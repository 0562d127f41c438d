import LineShell.Proofs.Execution.Concatenation
import LineShell.Proofs.Redirection.Settled
import LineShell.Proofs.Text.Utf8
import LineShell.Proofs.TwoRuns.Sharing

/-!
# Streams that take characters only

Where the streams of the shell take characters only, bytes are read as text before they are shown.
Of the builtins only `cat` passes bytes on. As long as what it reads is text (`World.CatsText`) a
command of the shell itself comes to the same on such streams and on those that take bytes: no other
thing is different in the two worlds, and all that was shown since the beginning is text
(`World.Decoded`).

Main statements: `execute_decoded` for one command, and `runCommands_asText` for a sequence.
-/

namespace LineShell

open Act Act.InStep

/-- The command is one of the shell itself. -/
def Command.IsBuiltin (c : Command) : Prop :=
  ∃ b : Builtin, c.name = some b.name

namespace World

/-- The world with streams that take characters only. -/
def asText (w : World) : World :=
  { w with console := { w.console with textOnly := true } }

/-- The streams of the second world take characters only, and all else is the same. Since `origin`
nothing but text was shown on the terminals. -/
structure Decoded (origin w v : World) : Prop where
  same : v = w.asText
  shows : ∀ c, ∃ text : String,
    (w.terminals.get c).shown = (origin.terminals.get c).shown ++ Utf8.encode text

variable {origin w v : World} {name : String} {names : List String} {c : Command}

namespace Decoded

theorem refl (w : World) : Decoded w w w.asText :=
  ⟨rfl, fun _ => ⟨"", (List.append_nil _).symm⟩⟩

/-! ## What is said -/

/-- A text more on a terminal. -/
theorem onTerminal (decoded : Decoded origin w v) (d : Channel) {f : Terminal → Terminal}
    {more : String} (shown : ∀ t, (f t).shown = t.shown ++ Utf8.encode more) :
    Decoded origin (w.onTerminal d f) (v.onTerminal d f) := by
  obtain ⟨rfl, shows⟩ := decoded
  refine ⟨rfl, fun c => ?_⟩
  obtain ⟨text, before⟩ := shows c
  by_cases same : c = d
  · subst same
    exact ⟨text ++ more, by simp [shown, before, Utf8.encode_append]⟩
  · exact ⟨text, by simpa [same] using before⟩

theorem note (decoded : Decoded origin w v) (level : Log.Level) (source : Log.Source)
    (message : String) : Decoded origin (w.note level source message) (v.note level source message) := by
  obtain ⟨rfl, shows⟩ := decoded
  have echo : w.asText.echo = w.echo := rfl
  simp only [World.note, echo]
  cases w.echo with
  | none => exact ⟨rfl, shows⟩
  | some echo =>
    dsimp only
    split
    · apply onTerminal
      · exact ⟨rfl, shows⟩
      · intro t
        rw [Terminal.shown_flush, Terminal.shown_print]
    · exact ⟨rfl, shows⟩

theorem saying : Saying (Decoded origin) where
  shares := by
    rintro w _ ⟨rfl, _⟩
    exact ⟨rfl, rfl, rfl, rfl⟩
  change := by
    rintro w _ files redirects ⟨rfl, shows⟩
    exact ⟨rfl, shows⟩
  note level source message decoded := decoded.note level source message
  remember := by
    rintro w _ f ⟨rfl, shows⟩
    exact ⟨rfl, shows⟩
  print text decoded := decoded.onTerminal .out fun t => t.shown_print (Utf8.encode text)
  flush decoded := decoded.onTerminal .out
    (show ∀ t, (Terminal.flush t).shown = t.shown ++ Utf8.encode "" by simp)

theorem report_respects (message : String) : Respects (Decoded origin) (report message) := by
  apply saying.report_respects
  rintro w v message decoded _
  obtain ⟨rfl, _⟩ := id decoded
  exact decoded.onTerminal .err fun t => by
    rw [Terminal.shown_flush, Terminal.shown_print]
    rfl

theorem answering : Answering (Decoded origin) :=
  saying.answering report_respects

/-- Bytes of a text are the same when they are read as text. -/
theorem printBytes (decoded : Decoded origin w v) {bytes : Bytes} (valid : Utf8.IsValid bytes) :
    SameOutcome (Decoded origin) (printBytes .out bytes w) (printBytes .out bytes v) := by
  have redirects := (saying.shares decoded).redirects
  simp only [Act.printBytes, bind_apply, get_apply, redirects]
  cases w.redirects.get .out with
  | some file => exact saying.onFile_respects .out file _ decoded
  | none =>
    obtain ⟨text, rfl⟩ := Utf8.isValid_iff.1 valid
    simp only [modify_apply, Utf8.decode_encode, ite_self]
    exact .ok _ (decoded.onTerminal .out fun t => by rw [Terminal.shown_flush, Terminal.shown_print])

end Decoded

/-! ## What `cat` reads -/

/-- The bytes that `cat` gets of a file, if it gets any. -/
def bytesOf? (w : World) (name : String) : Option Bytes :=
  (w.readOf name).bind (·.toOption)

/-- The files that `cat` shows hold texts, each of them when its turn comes. -/
def ShowsText : World → List String → Prop
  | _, [] => True
  | w, name :: names =>
    (∀ bytes ∈ w.bytesOf? name, Utf8.IsValid bytes) ∧
      match Builtin.showFile name w with
      | .ok _ after => after.ShowsText names
      | .error _ _ => True

instance decidableShowsText : (w : World) → (names : List String) → Decidable (w.ShowsText names)
  | _, [] => isTrue trivial
  | w, name :: names =>
    have : Decidable (match Builtin.showFile name w with
        | .ok _ after => after.ShowsText names
        | .error _ _ => True) :=
      match Builtin.showFile name w with
      | .ok _ after => decidableShowsText after names
      | .error _ _ => isTrue trivial
    inferInstanceAs (Decidable (_ ∧ _))

/-- The world in which a builtin begins with its work. -/
def atWork (w : World) (b : Builtin) (arguments : List String) : World :=
  w.note .debug .execution s!"builtin {b.name} {Text.quoteList arguments}"

/-- If the command is `cat`, and it is not refused for its redirections, all it reads is text. -/
def CatsText (w : World) (c : Command) : Prop :=
  ∀ opened, c.name = some Builtin.cat.name → openRedirects c w = .ok none opened →
    (opened.atWork .cat c.arguments).ShowsText c.arguments

/-- All that is read by `cat` while commands are carried out one after the other is text. -/
def AllCatText : World → List Command → Prop
  | _, [] => True
  | w, c :: commands => w.CatsText c ∧ ((execute c).run w).AllCatText commands

/-- What commands come to that are carried out one after the other, whether or not one of them is
stopped by a fault. -/
def outcomes (w : World) : List Command → List (Except Fault Int)
  | [] => []
  | c :: commands =>
    (match execute c w with
      | .ok status _ => .ok status
      | .error fault _ => .error fault) :: ((execute c).run w).outcomes commands

end World

open World

variable {origin w v : World} {name : String} {names : List String} {c : Command}

namespace Builtin

theorem showFile_decoded (decoded : Decoded origin w v)
    (valid : ∀ bytes ∈ w.bytesOf? name, Utf8.IsValid bytes) :
    SameOutcome (Decoded origin) (showFile name w) (showFile name v) := by
  have shares := Decoded.saying.shares decoded
  apply Decoded.answering.showFile_sameOutcome decoded
  · rw [shares.files, shares.here, shares.session]
  · intro clean bytes read
    refine decoded.printBytes (valid bytes ?_)
    have whole : w.readOf name = some (.ok bytes) := by simpa [readOf, clean] using read
    rw [bytesOf?, whole]
    rfl

/-- One file is shown after the other. -/
theorem showFiles_decoded (decoded : Decoded origin w v) (texts : w.ShowsText names) :
    SameOutcome (Decoded origin) (showFiles names w) (showFiles names v) := by
  induction names generalizing w v with
  | nil => exact .ok true decoded
  | cons name names ih =>
    obtain ⟨first, others⟩ := texts
    refine (showFile_decoded decoded first).bind_of_ok fun complete after after' ran related => ?_
    rw [ran] at others
    exact (ih related others).bind fun _ _ _ related => .ok _ related

/-- A builtin does the same on both kinds of streams. -/
theorem run_decoded (decoded : Decoded origin w v) (b : Builtin) {arguments : List String}
    (texts : b = .cat → w.ShowsText arguments) :
    SameOutcome (Decoded origin) (b.run arguments w) (b.run arguments v) := by
  by_cases reads : b = .cat
  · subst reads
    refine (showFiles_decoded decoded (texts rfl)).bind fun _ w v related => ?_
    exact bind Decoded.answering.flush (fun _ => InStep.pure _) related
  · exact Decoded.answering.run_respects reads arguments decoded

end Builtin

namespace Act

/-- A command does the same on both kinds of streams if what `cat` reads is text. -/
theorem execute_decoded (decoded : Decoded origin w v) (builtin : c.IsBuiltin)
    (texts : w.CatsText c) : SameOutcome (Decoded origin) (execute c w) (execute c v) := by
  obtain ⟨b, named⟩ := builtin
  have known : Builtin.ofName? b.name = some b := Builtin.ofName?_eq_some_iff.2 rfl
  rw [execute_named named]
  apply Decoded.saying.completing_sameOutcome
  refine (Decoded.saying.openRedirects_respects c decoded).bind_of_ok
    fun refusal opened opened' opens related => ?_
  cases refusal with
  | some refusal => exact bind (Decoded.report_respects _) (fun _ => InStep.pure _) related
  | none =>
    dsimp only
    rw [dispatch_builtin .usual c.arguments known, dispatch_builtin .usual c.arguments known]
    refine Builtin.run_decoded (related.note _ _ _) b fun reads => ?_
    subst reads
    exact texts opened named opens

theorem runCommands_decoded {commands : List Command} (decoded : Decoded origin w v)
    (builtins : ∀ c ∈ commands, c.IsBuiltin) (texts : w.AllCatText commands) :
    v.outcomes commands = w.outcomes commands ∧
      Decoded origin (w.runCommands commands) (v.runCommands commands) := by
  induction commands generalizing w v with
  | nil => exact ⟨rfl, decoded⟩
  | cons c commands ih =>
    obtain ⟨first, others⟩ := texts
    have both := execute_decoded decoded (builtins c (.head _)) first
    obtain ⟨same, last⟩ := ih both.run (fun d listed => builtins d (.tail _ listed)) others
    refine ⟨?_, last⟩
    rw [outcomes, outcomes, same]
    generalize execute c w = result at both ⊢
    generalize execute c v = result' at both ⊢
    cases both with
    | ok _ _ => rfl
    | error _ _ => rfl

/-- On streams that take characters only, commands of the shell itself come to the same as on
streams that take bytes, if all that `cat` reads is text: to the same statuses, to the same world,
and to the same text on each stream. Reading bytes of a text and writing what was read gives the
bytes. -/
theorem runCommands_asText {commands : List Command} (builtins : ∀ c ∈ commands, c.IsBuiltin)
    (texts : w.AllCatText commands) :
    w.asText.outcomes commands = w.outcomes commands ∧
    w.asText.runCommands commands = (w.runCommands commands).asText ∧
    (∀ channel, ∃ text : String,
      ((w.runCommands commands).terminals.get channel).shown =
        (w.terminals.get channel).shown ++ Utf8.encode text ∧
      ((w.asText.runCommands commands).terminals.get channel).shown =
        (w.terminals.get channel).shown ++ Utf8.encode text) ∧
    ∀ bytes, Utf8.IsValid bytes → Utf8.encode (Utf8.decode bytes) = bytes := by
  obtain ⟨same, ended, shows⟩ := runCommands_decoded (Decoded.refl w) builtins texts
  refine ⟨same, ended, fun channel => ?_, fun bytes => Utf8.encode_decode⟩
  obtain ⟨text, shown⟩ := shows channel
  refine ⟨text, shown, ?_⟩
  rw [ended]
  exact shown

/-- A shell in a directory with a file of characters that take two, three and four bytes. -/
def threeWidths : World :=
  { oneFile with
    files := ⟨#[.directory FileSystem.fullAccess FileSystem.root "" [("old", 1)],
      .file FileSystem.fullAccess (Utf8.encode "é€😀").toArray none]⟩ }

/-- Such characters are shown as they are, between the text and the errors of other commands. -/
theorem runCommands_threeWidths :
    let commands : List Command :=
      [{ name := some "cat", arguments := ["old", "nosuch", "old"] },
        { name := some "echo", arguments := ["ß"] }]
    (∀ c ∈ commands, c.IsBuiltin) ∧ threeWidths.AllCatText commands ∧
    threeWidths.asText.outcomes commands = [.ok 1, .ok 0] ∧
    (threeWidths.asText.runCommands commands).terminals.out.shown =
      Utf8.encode "é€😀é€😀ß\n" := by
  intro commands
  have builtins : ∀ c ∈ commands, c.IsBuiltin := by
    intro c listed
    simp only [commands, List.mem_cons, List.not_mem_nil, or_false] at listed
    rcases listed with rfl | rfl
    · exact ⟨.cat, rfl⟩
    · exact ⟨.echo, rfl⟩
  have texts : threeWidths.AllCatText commands := by
    refine ⟨?_, fun _ named _ => ?_, trivial⟩
    · rintro _ _ ⟨⟩
      decide +kernel
    · exact absurd named (by decide)
  obtain ⟨same, ended, _⟩ := runCommands_asText builtins texts
  have outcomes : threeWidths.outcomes commands = [.ok 1, .ok 0] := by rfl
  refine ⟨builtins, texts, same.trans outcomes, ?_⟩
  rw [ended]
  decide +kernel

end Act

end LineShell
