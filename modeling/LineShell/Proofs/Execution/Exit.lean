import Mathlib.Data.Int.ModEq
import LineShell.Proofs.ReadLoop.Run
import LineShell.Proofs.Redirection.Reports
import LineShell.Proofs.Text.Numerals

/-!
# What `exit` comes to

`exit` stops the session with eight bits of the integer that its argument writes, however large
that is and whatever its sign. An argument that is no numeral stops the session too, with 2 and one
line about it; only more than one argument keeps it going.

Main statement: `runExit_reads`.
-/

namespace LineShell

/-- The session is stopped with a code, and nothing else is different. -/
def World.stopped (w : World) (code : Int) : World :=
  { w with session := { w.session with exit := some code } }

namespace Builtin

open Act

variable {w : World} {argument : String}

/-- A number of eight bits that is congruent to an integer. -/
def IsCodeOf (n code : Int) : Prop :=
  0 ≤ code ∧ code ≤ 255 ∧ code ≡ n [ZMOD 256]

/-- There is one such number, the remainder that is not negative. -/
theorem isCodeOf_iff {n code : Int} : IsCodeOf n code ↔ code = n % 256 := by
  unfold IsCodeOf Int.ModEq
  omega

theorem stop_apply (n : Int) (w : World) :
    runExit.stop n w = .ok (n % 256) (w.stopped (n % 256)) := rfl

/-- Nothing is said about a numeral. -/
theorem runExit_numeral {n : Int} (numeral : Text.Numeral argument.toList n) (w : World) :
    run .exit [argument] w = .ok (n % 256) (w.stopped (n % 256)) := by
  have read := Text.integer?_eq_some_iff.2 numeral
  simp only [run, runExit, read]
  exact stop_apply n w

theorem runExit_other (takes : w.TakesErrors) (other : ∀ n, ¬ Text.Numeral argument.toList n) :
    ∃ v, w.Says s!"exit: {argument}: numeric argument required" v ∧
      run .exit [argument] w = .ok 2 (v.stopped 2) := by
  have nothing : Text.integer? argument = none := by
    cases read : Text.integer? argument with
    | none => rfl
    | some n => exact absurd (Text.integer?_eq_some_iff.1 read) (other n)
  obtain ⟨v, reported, said⟩ := report_said takes s!"exit: {argument}: numeric argument required"
  refine ⟨v, said, ?_⟩
  simp only [run, runExit, nothing, bind_apply, reported]
  exact stop_apply 2 v

theorem runExit_many (takes : w.TakesErrors) (first second : String) (others : List String) :
    ∃ v, run .exit (first :: second :: others) w = .ok 1 v ∧
      w.Says "exit: too many arguments" v := by
  obtain ⟨v, reported, said⟩ := report_said takes "exit: too many arguments"
  refine ⟨v, ?_, said⟩
  simp only [run, runExit, bind_apply, reported]
  rfl

/-- With one argument `exit` stops the session and gives the code that it keeps. For a numeral this
is the one number of eight bits that is congruent to the integer, and nothing else happens; for
every other text it is 2, and the text is reported. So the decimal text of an integer comes to its
remainder by 256. With more arguments this is reported, and the session stays as it is. -/
theorem runExit_reads (takes : w.TakesErrors) :
    (∀ argument, ∃ code after, run .exit [argument] w = .ok code after ∧
      after.session.isStopped ∧ after.session = { w.session with exit := some code } ∧
      (∀ n, Text.Numeral argument.toList n →
        (∀ k, IsCodeOf n k ↔ k = code) ∧ after = w.stopped code) ∧
      ((∀ n, ¬ Text.Numeral argument.toList n) → code = 2 ∧
        ∃ v, w.Says s!"exit: {argument}: numeric argument required" v ∧ after = v.stopped 2)) ∧
    (∀ n : Int, (toString n.natAbs).length ≤ 4300 →
      run .exit [toString n] w = .ok (n % 256) (w.stopped (n % 256))) ∧
    ∀ first second others, ∃ v, run .exit (first :: second :: others) w = .ok 1 v ∧
      w.Says "exit: too many arguments" v ∧ v.session = w.session := by
  refine ⟨fun argument => ?_, fun n short => ?_, fun first second others => ?_⟩
  · by_cases numeral : ∃ n, Text.Numeral argument.toList n
    · obtain ⟨n, numeral⟩ := numeral
      refine ⟨_, _, runExit_numeral numeral w, rfl, rfl, fun m numeral' => ?_, fun other => ?_⟩
      · -- a text writes no more than one integer
        have both := (Text.integer?_eq_some_iff.2 numeral).symm.trans
          (Text.integer?_eq_some_iff.2 numeral')
        obtain rfl := Option.some.inj both
        exact ⟨fun k => isCodeOf_iff, rfl⟩
      · exact absurd numeral (other n)
    · rw [not_exists] at numeral
      obtain ⟨v, said, ran⟩ := runExit_other takes numeral
      refine ⟨2, v.stopped 2, ran, rfl, ?_, fun n written => absurd written (numeral n),
        fun _ => ⟨rfl, v, said, rfl⟩⟩
      rw [World.stopped, said.session]
  · exact runExit_numeral (Text.numeral_toString short) w
  · obtain ⟨v, ran, said⟩ := runExit_many takes first second others
    exact ⟨v, ran, said, said.session⟩

/-- Where nothing but the root is there, `exit` keeps 246 of minus ten, and 2 of a text with two
underscores in a row. -/
theorem runExit_bare : World.bare.TakesErrors ∧ Text.Numeral " -1_0\t".toList (-10) ∧
    run .exit [" -1_0\t"] World.bare = .ok 246 (World.bare.stopped 246) ∧
    (∀ n, ¬ Text.Numeral "1__0".toList n) ∧
    (∃ v, run .exit ["1__0"] World.bare = .ok 2 v ∧ v.session.exit = some 2) ∧
    run .exit [toString (1000 : Int)] World.bare = .ok 232 (World.bare.stopped 232) := by
  have takes : World.bare.TakesErrors := World.IsIdle.takesErrors rfl
  obtain ⟨one, decimal, _⟩ := runExit_reads takes
  have numeral : Text.Numeral " -1_0\t".toList (-10) := Text.integer?_eq_some_iff.1 (by decide)
  have other : ∀ n, ¬ Text.Numeral "1__0".toList n := by
    intro n written
    have nothing : Text.integer? "1__0" = none := by decide
    rw [Text.integer?_eq_some_iff.2 written] at nothing
    cases nothing
  obtain ⟨code, after, ran, _, _, written, _⟩ := one " -1_0\t"
  obtain ⟨only, rfl⟩ := written _ numeral
  obtain rfl : 246 = code := (only 246).1 (isCodeOf_iff.2 (by decide))
  obtain ⟨code', after', ran', _, session, _, unread⟩ := one "1__0"
  obtain ⟨rfl, _⟩ := unread other
  exact ⟨takes, numeral, ran, other, ⟨after', ran', by rw [session]⟩, decimal 1000 (by decide)⟩

end Builtin

end LineShell
