import LineShell.Proofs.World

/-!
# Writing to terminals

Where no file stands in for a stream, everything that a command writes goes to the terminal
of the stream and to nothing else. Each way of writing has an equation for the world after
it (`print_apply`, `flush_apply`, `printLine_apply`, `report_apply`), and a world between two
commands is one in which no file stands in for anything (`World.IsIdle`).
-/

namespace LineShell

namespace Utf8

theorem encode_append (s t : String) : encode (s ++ t) = encode s ++ encode t := by
  simp [encode]

@[simp] theorem encode_empty : encode "" = [] := rfl

end Utf8

namespace World

/-- What the terminals of a world show. -/
def shown (w : World) : Both Bytes :=
  ⟨w.terminals.out.shown, w.terminals.err.shown⟩

theorem shown_get (w : World) (c : Channel) : w.shown.get c = (w.terminals.get c).shown := by
  cases c <;> rfl

/-- No command is running: the streams are those of the shell. -/
def IsIdle (w : World) : Prop :=
  w.redirects = ⟨none, none⟩

theorem IsIdle.get {w : World} (idle : w.IsIdle) (c : Channel) : w.redirects.get c = none := by
  rw [idle]
  cases c <;> rfl

section
variable (w : World) (c : Channel) (f g : Terminal → Terminal)

@[simp] theorem onTerminal_files : (w.onTerminal c f).files = w.files := rfl

@[simp] theorem onTerminal_here : (w.onTerminal c f).here = w.here := rfl

@[simp] theorem onTerminal_session : (w.onTerminal c f).session = w.session := rfl

@[simp] theorem onTerminal_console : (w.onTerminal c f).console = w.console := rfl

@[simp] theorem onTerminal_redirects : (w.onTerminal c f).redirects = w.redirects := rfl

@[simp] theorem onTerminal_echo : (w.onTerminal c f).echo = w.echo := rfl

@[simp] theorem onTerminal_records : (w.onTerminal c f).records = w.records := rfl

@[simp] theorem onTerminal_terminals :
    (w.onTerminal c f).terminals = w.terminals.set c (f (w.terminals.get c)) := rfl

theorem onTerminal_onTerminal : (w.onTerminal c f).onTerminal c g = w.onTerminal c (g ∘ f) := by
  cases c <;> rfl

end

end World

namespace Terminal

theorem print_print (t : Terminal) (bytes more : Bytes) :
    (t.print bytes).print more = t.print (bytes ++ more) := by
  simp [print]

/-- What is written past the buffer is shown last if nothing waits in the buffer. -/
theorem shown_write {t : Terminal} (empty : t.pending = []) (bytes : Bytes) :
    (t.write bytes).shown = t.shown ++ bytes := by
  simp [shown, printed, write, empty]

end Terminal

/-- How a line about an error looks. -/
def World.errorLine (w : World) (message : String) : Bytes :=
  Utf8.encode (Highlight.highlight message "RED" w.console.isTerminal w.console.colors ++ "\n")

namespace Act

variable {w : World} {c : Channel}

theorem print_apply (free : w.redirects.get c = none) (text : String) :
    print c text w = .ok () (w.onTerminal c (·.print (Utf8.encode text))) := by
  simp [print, free]

theorem flush_apply (free : w.redirects.get c = none) :
    flush c w = .ok () (w.onTerminal c (·.flush)) := by
  simp [flush, free]

theorem printLine_apply (free : w.redirects.get c = none) (text : String) :
    printLine c text w = .ok () (w.onTerminal c (·.print (Utf8.encode (text ++ "\n")))) := by
  have still : (w.onTerminal c (·.print (Utf8.encode text))).redirects.get c = none := free
  simp only [printLine, bind_apply, print_apply free, print_apply still,
    World.onTerminal_onTerminal]
  congr 2
  funext t
  simp [Terminal.print_print, Utf8.encode_append]

theorem printBytes_apply (free : w.redirects.get c = none) (raw : w.console.textOnly = false)
    (bytes : Bytes) :
    printBytes c bytes w = .ok () (w.onTerminal c fun t => (t.print bytes).flush) := by
  simp [printBytes, free, raw]

theorem report_apply (free : w.redirects.get .err = none) (message : String) :
    report message w =
      .ok () (w.onTerminal .err fun t => (t.print (w.errorLine message)).flush) := by
  have terminal : showsOnTerminal w .err = w.console.isTerminal := by
    simp [showsOnTerminal, free]
  have still : ∀ f, (w.onTerminal .err f).redirects.get .err = none := fun _ => free
  simp only [report, bind_apply, get_apply, terminal, printLine_apply free,
    flush_apply (still _), World.onTerminal_onTerminal]
  rfl

end Act

end LineShell
