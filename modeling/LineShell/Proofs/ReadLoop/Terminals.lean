import LineShell.Proofs.Redirection.Noted
import LineShell.Proofs.TwoRuns.Sharing

/-!
# What the terminals show has no effect

No action looks at what a terminal was given before. `World.Alike` relates worlds that differ
in that only, and says that both terminals of a stream have been given the same since then.

The delicate point is a child: it writes past the buffer of the shell, and its output would
come before what waits there. `World.Calm` says that nothing waits; every launch begins with
that (`Alike.flushTerminals`), and a child keeps it (`Calm.hosting`).
-/

namespace LineShell

open Act Act.InStep

/-- After what each of them showed before, both terminals show the same. -/
def Terminal.Grown (past past' : Bytes) (s t : Terminal) : Prop :=
  ∃ more, s.shown = past ++ more ∧ t.shown = past' ++ more

namespace Terminal.Grown

variable {past past' : Bytes} {s t : Terminal} (grown : Grown past past' s t)
include grown

theorem print (bytes : Bytes) : Grown past past' (s.print bytes) (t.print bytes) := by
  obtain ⟨more, shown, shown'⟩ := grown
  exact ⟨more ++ bytes, by simp [shown], by simp [shown']⟩

theorem flush : Grown past past' s.flush t.flush := by
  obtain ⟨more, shown, shown'⟩ := grown
  exact ⟨more, by simp [shown], by simp [shown']⟩

theorem write (empty : s.pending = []) (empty' : t.pending = []) (bytes : Bytes) :
    Grown past past' (s.write bytes) (t.write bytes) := by
  obtain ⟨more, shown, shown'⟩ := grown
  exact ⟨more ++ bytes, by simp [shown_write empty, shown], by simp [shown_write empty', shown']⟩

end Terminal.Grown

/-- Worlds that are the same but for what their terminals showed before. -/
def World.Alike (past past' : Both Bytes) (w v : World) : Prop :=
  ∃ terminals, v = { w with terminals } ∧
    ∀ c, Terminal.Grown (past.get c) (past'.get c) (w.terminals.get c) (terminals.get c)

/-- Besides, nothing waits in the buffers of the terminals. -/
def World.Calm (past past' : Both Bytes) (w v : World) : Prop :=
  w.Alike past past' v ∧ ∀ c, (w.terminals.get c).pending = [] ∧ (v.terminals.get c).pending = []

variable {past past' : Both Bytes} {w v : World}

namespace World.Alike

theorem onTerminal {c : Channel} {f : Terminal → Terminal} (alike : w.Alike past past' v)
    (kept : ∀ {s t}, Terminal.Grown (past.get c) (past'.get c) s t →
      Terminal.Grown (past.get c) (past'.get c) (f s) (f t)) :
    (w.onTerminal c f).Alike past past' (v.onTerminal c f) := by
  obtain ⟨terminals, rfl, grown⟩ := alike
  refine ⟨terminals.set c (f (terminals.get c)), rfl, fun d => ?_⟩
  by_cases same : d = c
  · subst same
    simpa using kept (grown d)
  · simpa [same] using grown d

theorem note (alike : w.Alike past past' v) (level : Log.Level) (source : Log.Source)
    (message : String) :
    (w.note level source message).Alike past past' (v.note level source message) := by
  obtain ⟨terminals, rfl, grown⟩ := alike
  simp only [World.note]
  cases w.echo with
  | none => exact ⟨terminals, rfl, grown⟩
  | some echo =>
    dsimp only
    split
    · exact onTerminal ⟨terminals, rfl, grown⟩ fun grown => (grown.print _).flush
    · exact ⟨terminals, rfl, grown⟩

theorem flushTerminals (alike : w.Alike past past' v) :
    w.flushTerminals.Calm past past' v.flushTerminals := by
  obtain ⟨terminals, rfl, grown⟩ := alike
  refine ⟨⟨⟨terminals.out.flush, terminals.err.flush⟩, rfl, fun c => ?_⟩, fun c => ?_⟩
  · cases c with
    | out => exact (grown .out).flush
    | err => exact (grown .err).flush
  · cases c <;> exact ⟨rfl, rfl⟩

theorem remember (alike : w.Alike past past' v) (f : Session → Session) :
    World.Alike past past' { w with session := f w.session } { v with session := f v.session } := by
  obtain ⟨terminals, rfl, grown⟩ := alike
  exact ⟨terminals, rfl, grown⟩

theorem speaking : Speaking (World.Alike past past') where
  shares := by
    rintro w _ ⟨_, rfl, _⟩
    exact ⟨rfl, rfl, rfl, rfl⟩
  textOnly := by
    rintro w _ ⟨_, rfl, _⟩
    rfl
  change := by
    rintro w _ files redirects ⟨terminals, rfl, grown⟩
    exact ⟨terminals, rfl, grown⟩
  note level source message alike := alike.note level source message
  remember f alike := alike.remember f
  print _ alike := alike.onTerminal fun grown => grown.print _
  flush alike := alike.onTerminal fun grown => grown.flush
  pass _ alike := alike.onTerminal fun grown => (grown.print _).flush

end World.Alike

/-! ## What is said -/

theorem Act.report_respects (message : String) :
    Respects (World.Alike past past') (report message) := by
  apply World.Alike.speaking.report_respects
  rintro w v message alike _
  obtain ⟨_, rfl, _⟩ := id alike
  exact alike.onTerminal fun grown => (grown.print _).flush

theorem World.Alike.correspondence : Correspondence (World.Alike past past') :=
  World.Alike.speaking.correspondence Act.report_respects

/-! ## Children -/

namespace World.Calm

theorem onTerminal {c : Channel} {f : Terminal → Terminal} (calm : w.Calm past past' v)
    (kept : ∀ {s t}, s.pending = [] → t.pending = [] →
      Terminal.Grown (past.get c) (past'.get c) s t →
      Terminal.Grown (past.get c) (past'.get c) (f s) (f t))
    (empty : ∀ {s}, s.pending = [] → (f s).pending = []) :
    (w.onTerminal c f).Calm past past' (v.onTerminal c f) := by
  obtain ⟨⟨terminals, rfl, grown⟩, waits⟩ := calm
  refine ⟨⟨terminals.set c (f (terminals.get c)), rfl, fun d => ?_⟩, fun d => ?_⟩
  · by_cases same : d = c
    · subst same
      simpa using kept (waits d).1 (waits d).2 (grown d)
    · simpa [same] using grown d
  · by_cases same : d = c
    · subst same
      simpa using ⟨empty (waits d).1, empty (waits d).2⟩
    · simpa [same] using waits d

theorem note (calm : w.Calm past past' v) (level : Log.Level) (source : Log.Source)
    (message : String) :
    (w.note level source message).Calm past past' (v.note level source message) :=
  ⟨calm.1.note level source message, fun c =>
    ⟨pending_note (calm.2 c).1, pending_note (calm.2 c).2⟩⟩

/-- A child does the same in both worlds. -/
theorem hosting : Hosting (World.Calm past past') where
  shares calm := World.Alike.speaking.shares calm.1
  textOnly calm := World.Alike.speaking.textOnly calm.1
  change files redirects calm := ⟨World.Alike.speaking.change files redirects calm.1, calm.2⟩
  note level source message calm := calm.note level source message
  -- what is written past the buffer comes last, for the buffer is empty
  write _ bytes calm :=
    calm.onTerminal (fun empty empty' grown => grown.write empty empty' bytes) id

end World.Calm

end LineShell
