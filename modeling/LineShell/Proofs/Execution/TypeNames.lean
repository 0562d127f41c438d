import LineShell.Proofs.Execution.TypeReport
import LineShell.Proofs.Redirection.Speech
import Mathlib.Data.List.TakeWhile

/-!
# What `type` says about many names

What `type` says about a name depends on what the name means (`World.meanings`), and nothing of
that changes while `type` speaks. So the names are described one after the other, each as it would
be alone (`describeNames_utters`), and without the flag that asks for everything there is the first
line only of what there is with it.

Main statement: `runType_homomorphic`.
-/

namespace LineShell

open Act

namespace World

variable {w v : World} {said : Both Bytes}

/-- All that a name means: the builtin of the name first and then its programs. -/
def meanings (w : World) (name : String) : List String :=
  (if (Builtin.ofName? name).isSome then [s!"{name} is a shell builtin"] else []) ++
    (w.candidates name).map fun path => s!"{name} is {path}"

/-- What of that is asked for. -/
def meaningsOf (w : World) (everything : Bool) (name : String) : List String :=
  if everything then w.meanings name else (w.meanings name).take 1

/-- Lines on the standard output. -/
def linesOf (lines : List String) : Bytes :=
  lines.flatMap fun line => Utf8.encode (line ++ "\n")

/-- What is said about a name: the lines about it, or that there are none. -/
def description (w : World) (everything : Bool) (name : String) : Both Bytes :=
  ⟨linesOf (w.meaningsOf everything name),
    if w.meanings name = [] then w.reportLine s!"{name}: not found" else []⟩

/-- What is said about names, one after the other. -/
def descriptions (w : World) (everything : Bool) (names : List String) : Both Bytes :=
  ⟨names.flatMap fun name => (w.description everything name).out,
    names.flatMap fun name => (w.description everything name).err⟩

theorem descriptions_append (everything : Bool) (names others : List String) :
    w.descriptions everything (names ++ others) =
      w.descriptions everything names ++ w.descriptions everything others := by
  simp [descriptions]

theorem meaningsOf_eq_nil_iff {everything : Bool} {name : String} :
    w.meaningsOf everything name = [] ↔ w.meanings name = [] := by
  cases everything <;> simp [meaningsOf]

namespace Speaks

variable (speaks : w.Speaks said v)
include speaks

/-- What is said changes nothing about the programs of a name. -/
theorem candidates_eq (name : String) : v.candidates name = w.candidates name := by
  have same : v.isExecutable = w.isExecutable := by
    funext path
    rw [isExecutable, isExecutable, speaks.here, speaks.tree.hasExecutable_eq]
  unfold candidates
  rw [same, speaks.session]

theorem meanings_eq (name : String) : v.meanings name = w.meanings name := by
  rw [meanings, meanings, speaks.candidates_eq]

theorem description_eq (everything : Bool) (name : String) :
    v.description everything name = w.description everything name := by
  rw [description, description, meaningsOf, meaningsOf, speaks.meanings_eq, speaks.reportLine_eq]

theorem descriptions_eq (everything : Bool) (names : List String) :
    v.descriptions everything names = w.descriptions everything names := by
  simp only [descriptions, speaks.description_eq]

end Speaks

end World

namespace Builtin

variable {w : World}

/-! ## One name -/

/-- A search says nothing, though it is noted. -/
theorem programsOf_utters (everything : Bool) (name : String) (w : World) :
    Utters (programsOf everything name) w
      (if everything then w.candidates name else (w.candidates name).take 1) .nothing := by
  cases everything with
  | true => exact .pure _ w
  | false =>
    have first : (w.candidates name).head?.toList = (w.candidates name).take 1 := by
      cases w.candidates name <;> rfl
    rw [if_neg Bool.false_ne_true, ← first]
    exact ⟨_, rfl, .note w _ _ _⟩

theorem meanings_utters (everything : Bool) (name : String) (w : World) :
    Utters (meanings everything name) w (w.meaningsOf everything name) .nothing := by
  unfold meanings World.meaningsOf World.meanings
  cases isBuiltin : (ofName? name).isSome with
  | false =>
    -- all that the name can mean is programs
    refine (programsOf_utters everything name w).bind_quiet fun v _ => ?_
    have lines : (if everything then w.candidates name else (w.candidates name).take 1).map
        (fun path => s!"{name} is {path}") =
        if everything then (w.candidates name).map fun path => s!"{name} is {path}"
        else ((w.candidates name).map fun path => s!"{name} is {path}").take 1 := by
      cases everything <;> simp
    simp only [Bool.false_eq_true, if_false, List.nil_append, ← lines]
    exact .pure _ v
  | true =>
    cases everything with
    | false => exact .pure _ w
    | true => exact (programsOf_utters true name w).bind_quiet fun v _ => .pure _ v

theorem printLines_utters (accepts : w.Accepts) (lines : List String) :
    Utters (printLines lines) w () (.only .out (World.linesOf lines)) := by
  induction lines generalizing w with
  | nil => exact .pure () w
  | cons line lines ih =>
    have split : World.linesOf (line :: lines) =
        Utf8.encode (line ++ "\n") ++ World.linesOf lines := List.flatMap_cons
    rw [split, ← Both.only_append]
    exact (printLine_utters accepts .out line).bind fun v speaks => ih (speaks.accepts accepts)

theorem describeName_utters (accepts : w.Accepts) (everything : Bool) (name : String) :
    Utters (describeName everything name) w (w.meanings name ≠ [])
      (w.description everything name) := by
  unfold describeName
  refine (meanings_utters everything name w).quiet_bind fun v speaks => ?_
  have printed := printLines_utters (speaks.accepts accepts) (w.meaningsOf everything name)
  rw [World.description]
  by_cases unknown : w.meanings name = []
  · have nothing : w.meaningsOf everything name = [] := World.meaningsOf_eq_nil_iff.2 unknown
    rw [nothing] at printed ⊢
    simp only [unknown, List.isEmpty_nil, if_true, ne_eq, not_true_eq_false, decide_false]
    refine printed.quiet_bind fun u speaks' => ?_
    rw [← speaks.reportLine_eq, ← speaks'.reportLine_eq]
    exact (report_utters (speaks'.accepts (speaks.accepts accepts)) _).bind_quiet
      fun x _ => .pure _ x
  · have some_ : (w.meaningsOf everything name).isEmpty = false := by
      simpa using mt World.meaningsOf_eq_nil_iff.1 unknown
    simp only [unknown, some_, Bool.false_eq_true, if_false, ne_eq, not_false_eq_true, decide_true]
    exact printed.bind_quiet fun u _ => .pure _ u

/-! ## Many names -/

theorem describeNames_utters (accepts : w.Accepts) (everything : Bool) (names : List String) :
    Utters (describeNames everything names) w (names.all fun name => w.meanings name ≠ [])
      (w.descriptions everything names) := by
  induction names generalizing w with
  | nil => exact .pure true w
  | cons name names ih =>
    have split : w.descriptions everything (name :: names) =
        w.description everything name ++ w.descriptions everything names := rfl
    rw [split]
    refine (describeName_utters accepts everything name).bind fun v speaks => ?_
    -- what was said about the first name changes nothing about the others
    have others := ih (speaks.accepts accepts)
    rw [speaks.descriptions_eq] at others
    simp only [speaks.meanings_eq] at others
    exact others.bind_quiet fun u _ => .pure _ u

/-- What `type` comes to if there are names: it fails if one of them means nothing. -/
def typeStatus (w : World) (names : List String) : Int :=
  if ∃ name ∈ names, w.meanings name = [] then 1 else 0

theorem typeStatus_eq_one_iff {names : List String} :
    typeStatus w names = 1 ↔ ∃ name ∈ names, w.meanings name = [] := by
  unfold typeStatus
  split
  case isTrue unknown => exact iff_of_true rfl unknown
  case isFalse known => exact iff_of_false (by decide) known

theorem typeStatus_append (w : World) (names others : List String) :
    typeStatus w (names ++ others) =
      if typeStatus w names = 1 ∨ typeStatus w others = 1 then 1 else 0 := by
  simp only [typeStatus_eq_one_iff]
  simp only [typeStatus, List.mem_append, or_and_right, exists_or]

theorem typeStatus_singleton (w : World) (name : String) :
    typeStatus w [name] = if w.meanings name = [] then 1 else 0 := by
  simp [typeStatus]

/-- The names are described that stand behind the flags. -/
theorem runType_utters (accepts : w.Accepts) {arguments names : List String}
    (names_eq : arguments.dropWhile (· = allFlag) = names) (nonempty : names ≠ []) :
    Utters (runType arguments) w (typeStatus w names)
      (w.descriptions (names.length < arguments.length) names) := by
  have status : typeStatus w names =
      if names.all fun name => w.meanings name ≠ [] then 0 else 1 := by
    simp only [typeStatus, ← ite_not (∃ name ∈ names, w.meanings name = []), List.all_eq_true,
      decide_eq_true_eq, not_exists, not_and, ne_eq]
  unfold runType
  simp only [names_eq, List.isEmpty_iff, nonempty, if_false, status]
  refine (describeNames_utters accepts _ names).bind_quiet fun v speaks => ?_
  exact (flush_utters (speaks.accepts accepts) .out).quiet_bind fun u _ => .pure _ u

theorem runType_flags_utters (accepts : w.Accepts) (k : Nat) {names : List String}
    (nonempty : names ≠ []) (plain : names.head? ≠ some allFlag) :
    Utters (runType (List.replicate k allFlag ++ names)) w (typeStatus w names)
      (w.descriptions (0 < k) names) := by
  have rest : (List.replicate k allFlag ++ names).dropWhile (· = allFlag) = names := by
    rw [List.dropWhile_append_of_pos (by simp)]
    cases names with
    | nil => rfl
    | cons name names => exact List.dropWhile_cons_of_neg (by simpa using plain)
  have uttered := runType_utters accepts rest nonempty
  have more : (names.length < (List.replicate k allFlag ++ names).length) = (0 < k) := by simp
  simpa only [more] using uttered

theorem runType_usage (accepts : w.Accepts) {arguments : List String}
    (flags : ∀ a ∈ arguments, a = allFlag) :
    Utters (runType arguments) w 2
      (.only .err (w.reportLine "type: usage: type [-a] name [name ...]")) := by
  have rest : arguments.dropWhile (· = allFlag) = [] := by simpa using flags
  unfold runType
  simp only [rest, List.isEmpty_nil, if_true]
  exact (report_utters accepts _).bind_quiet fun v _ => .pure _ v

/-- Where the streams take what is written, `type` goes along with its names: behind the same flags
it says about two lists of names what it says about the one and then what it says about the other,
and it fails if it fails for one of them. With the flag it says all that a name means, without it
the first line of that, and both fail for the same names and say the same then. If there is nothing
but flags, and only then, it comes to 2 and says how it is used. -/
theorem runType_homomorphic (accepts : w.Accepts) :
    (∀ (k : Nat) (xs ys : List String), xs ≠ [] → ys ≠ [] →
      xs.head? ≠ some allFlag → ys.head? ≠ some allFlag →
      let flags := List.replicate k allFlag
      ∃ (s t : Int) (said said' : Both Bytes),
        Utters (runType (flags ++ xs)) w s said ∧ Utters (runType (flags ++ ys)) w t said' ∧
        Utters (runType (flags ++ xs ++ ys)) w (if s = 1 ∨ t = 1 then 1 else 0)
          (said ++ said')) ∧
    (∀ (k : Nat) (name : String), name ≠ allFlag →
      let lines := w.meanings name
      let status := if lines = [] then 1 else 0
      let err := if lines = [] then w.reportLine s!"{name}: not found" else []
      Utters (runType (List.replicate (k + 1) allFlag ++ [name])) w status
        ⟨World.linesOf lines, err⟩ ∧
      Utters (runType [name]) w status ⟨World.linesOf (lines.take 1), err⟩) ∧
    ∀ arguments : List String,
      ((∃ v, runType arguments w = .ok 2 v) ↔ ∀ a ∈ arguments, a = allFlag) ∧
      ((∀ a ∈ arguments, a = allFlag) → Utters (runType arguments) w 2
        (.only .err (w.reportLine "type: usage: type [-a] name [name ...]"))) := by
  refine ⟨?_, ?_, ?_⟩
  · intro k xs ys some_ some_' plain plain' flags
    have begins : (xs ++ ys).head? ≠ some allFlag := by
      rwa [List.head?_append, Option.or_of_isSome (List.isSome_head?.2 some_)]
    have both := runType_flags_utters accepts k (List.append_ne_nil_of_left_ne_nil some_ ys) begins
    rw [World.descriptions_append, typeStatus_append, ← List.append_assoc] at both
    exact ⟨_, _, _, _, runType_flags_utters accepts k some_ plain,
      runType_flags_utters accepts k some_' plain', both⟩
  · intro k name notFlag lines status err
    have plain : [name].head? ≠ some allFlag := by simpa using notFlag
    have all := runType_flags_utters accepts (k + 1) (List.cons_ne_nil name []) plain
    have first := runType_flags_utters accepts 0 (List.cons_ne_nil name []) plain
    rw [typeStatus_singleton] at all first
    constructor
    · simpa [World.descriptions, World.description, World.meaningsOf] using all
    · simpa [World.descriptions, World.description, World.meaningsOf] using first
  · intro arguments
    refine ⟨⟨?_, fun flags => ?_⟩, runType_usage accepts⟩
    · rintro ⟨v, ran⟩
      by_cases flags : arguments.dropWhile (· = allFlag) = []
      · simpa using flags
      · -- with a name there is another status
        obtain ⟨u, ran', _⟩ := runType_utters accepts rfl flags
        rw [ran] at ran'
        injection ran' with status _
        unfold typeStatus at status
        split at status <;> cases status
    · obtain ⟨v, ran, _⟩ := runType_usage accepts flags
      exact ⟨v, ran⟩

/-- Where `tool` is a program in `../bin`, `type -a tool echo` says in a row what `type -a` says
about each of the two names. -/
theorem runType_besideBin :
    let w := World.besideBin
    w.Accepts ∧ ["tool"] ≠ [] ∧ ["echo"] ≠ [] ∧ ["tool"].head? ≠ some allFlag ∧
    ["echo"].head? ≠ some allFlag ∧ "nosuch" ≠ allFlag ∧
    (∃ v, runType ["-a", "tool", "echo"] w = .ok 0 v ∧ v.terminals.out.shown =
      Utf8.encode "tool is ../bin/tool\n" ++ Utf8.encode "echo is a shell builtin\n") ∧
    Utters (runType ["nosuch"]) w 1 ⟨[], w.reportLine "nosuch: not found"⟩ := by
  intro w
  have accepts : w.Accepts := World.IsIdle.accepts rfl
  obtain ⟨concatenates, agrees, _⟩ := runType_homomorphic accepts
  refine ⟨accepts, by decide, by decide, by decide, by decide, by decide, ?_, ?_⟩
  · obtain ⟨s, t, said, said', ⟨v, ran, speaks⟩, ⟨v', ran', speaks'⟩, u, ranBoth, speaksBoth⟩ :=
      concatenates 1 ["tool"] ["echo"] (by decide) (by decide) (by decide) (by decide)
    have first : runType ["-a", "tool"] w = .ok 0 ((runType ["-a", "tool"]).run w) ∧
        ((runType ["-a", "tool"]).run w).terminals.out.shown =
          Utf8.encode "tool is ../bin/tool\n" := by decide +kernel
    have second : runType ["-a", "echo"] w = .ok 0 ((runType ["-a", "echo"]).run w) ∧
        ((runType ["-a", "echo"]).run w).terminals.out.shown =
          Utf8.encode "echo is a shell builtin\n" := by decide +kernel
    obtain ⟨rfl, rfl⟩ := EStateM.Result.ok.inj (first.1.symm.trans ran)
    obtain ⟨rfl, rfl⟩ := EStateM.Result.ok.inj (second.1.symm.trans ran')
    -- the terminal shows nothing at first, and no records later
    have shows : ∀ {said v}, w.Speaks said v → v.terminals.out.shown = said.get .out := by
      intro said v speaks
      obtain ⟨shown, _, grown, same⟩ := speaks.onTerminal (c := .out) rfl
      exact grown.trans (same (.inl rfl))
    refine ⟨u, ranBoth, ?_⟩
    rw [shows speaksBoth, Both.append_get, ← shows speaks, ← shows speaks', first.2, second.2]
  · have unknown : w.meanings "nosuch" = [] := by decide +kernel
    have misses := (agrees 0 "nosuch" (by decide)).2
    simp only [unknown, if_true] at misses
    exact misses

end Builtin

end LineShell
