import LineShell.Proofs.FileSystem.Contents
import LineShell.Proofs.OneRun.Streams

/-!
# Trees that agree but for certain files

`FileSystem.AgreesBut ids fs gs` bounds what writing to open files can do to a tree: no node comes
or goes, and only the regular files `ids` may hold something else. The questions that the shell has
about a tree have the same answers then, and every other file is read as before.

Main statements: the relation is transitive (`AgreesBut.trans`), and what is done with an open file
keeps it (`OpenFile.Step.agreesBut`).
-/

namespace LineShell

open Relation (ReflTransGen)

namespace FileSystem

variable {ids ids' : NodeId → Prop} {fs gs hs : FileSystem} {here id : NodeId} {path : String}

/-- The trees are the same but for what certain regular files hold. -/
def AgreesBut (ids : NodeId → Prop) (fs gs : FileSystem) : Prop :=
  ∃ held, Veils held fs gs ∧ ∀ id, held id ≠ none → ids id

namespace AgreesBut

theorem refl (fs : FileSystem) : AgreesBut ids fs fs :=
  ⟨fun _ => none, ⟨rfl, fun _ => rfl, nofun⟩, fun _ known => absurd rfl known⟩

theorem mono (agrees : AgreesBut ids fs gs) (sub : ∀ id, ids id → ids' id) :
    AgreesBut ids' fs gs := by
  obtain ⟨held, veils, known⟩ := agrees
  exact ⟨held, veils, fun id holds => sub id (known id holds)⟩

theorem trans (first : AgreesBut ids fs gs) (second : AgreesBut ids gs hs) :
    AgreesBut ids fs hs := by
  obtain ⟨held, veils, known⟩ := first
  obtain ⟨held', veils', known'⟩ := second
  -- where both trees have replaced what a file holds, the later one counts
  refine ⟨fun id => (held' id).or (held id), ⟨?_, ?_, ?_⟩, ?_⟩
  · rw [veils'.next, veils.next]
  · intro id free
    obtain ⟨free', free⟩ := Option.or_eq_none_iff.1 free
    rw [veils'.apart free', veils.apart free]
  · intro id bytes holds
    rcases Option.or_eq_some_iff.1 holds with later | ⟨free', earlier⟩
    · obtain ⟨access, data, program, program', before, after⟩ := veils'.veiled later
      rcases veils.node_cases id with same | ⟨access', data', program'', _, _, before', after'⟩
      · exact ⟨access, data, program, program', same ▸ before, after⟩
      · rw [before] at after'
        cases after'
        exact ⟨access, data', program'', program', before', after⟩
    · obtain ⟨access, data, program, program', before, after⟩ := veils.veiled earlier
      exact ⟨access, data, program, program', before, (veils'.apart free').trans after⟩
  · intro id holds
    cases later : held' id with
    | some bytes => exact known' id (by simp [later])
    | none => exact known id (by simpa [later] using holds)

/-- A file is given other contents. -/
theorem withContents (fs : FileSystem) (id : NodeId) (bytes : Bytes) :
    AgreesBut (· = id) fs (fs.withContents id bytes) := by
  cases holds : fs.contents? id with
  | none =>
    -- what is no regular file is left as it is
    have same : fs.withContents id bytes = fs := by
      unfold FileSystem.withContents
      split
      case h_1 found => simp [contents?, found] at holds
      case h_2 => rfl
    rw [same]
    exact refl fs
  | some data =>
    refine ⟨_, (Veils.self holds).withContents (if_pos rfl) bytes, fun other known => ?_⟩
    by_cases same : other = id
    · exact same
    · simp [same] at known

/-! ## Questions -/

section
variable (agrees : AgreesBut ids fs gs)
include agrees

theorem find_eq (here : NodeId) (path : String) : gs.find here path = fs.find here path := by
  obtain ⟨_, veils, _⟩ := agrees
  exact veils.find_eq here path

theorem hasExecutable_eq (here : NodeId) (path : String) :
    gs.hasExecutable here path = fs.hasExecutable here path := by
  obtain ⟨_, veils, _⟩ := agrees
  exact veils.hasExecutable_eq here path

/-- A regular file remains one. -/
theorem isSome_contents? (regular : (fs.contents? id).isSome) : (gs.contents? id).isSome := by
  obtain ⟨_, veils, _⟩ := agrees
  unfold contents? at regular ⊢
  rcases veils.node_cases id with same | ⟨_, _, _, _, _, _, after⟩
  · rwa [same]
  · rw [after]
    rfl

/-- What is no regular file is not touched. -/
theorem device {device : Device} (found : fs.node? id = some (.device device)) :
    gs.node? id = some (.device device) := by
  obtain ⟨_, veils, _⟩ := agrees
  rcases veils.node_cases id with same | ⟨_, _, _, _, _, before, _⟩
  · rw [same, found]
  · rw [found] at before
    cases before

/-- A path leads to what it led to, or to a file that holds something else now. -/
theorem lookup_cases (here : NodeId) (path : String) :
    gs.lookup here path = fs.lookup here path ∨
    ∃ access data program data' program', fs.lookup here path = .ok (.file access data program) ∧
      gs.lookup here path = .ok (.file access data' program') := by
  obtain ⟨_, veils, _⟩ := agrees
  exact veils.lookup_cases here path

/-- A path that leads to none of the files leads to what it led to. -/
theorem lookup_eq (apart : ∀ id, fs.find here path = .ok id → ¬ ids id) :
    gs.lookup here path = fs.lookup here path := by
  obtain ⟨held, veils, known⟩ := agrees
  unfold lookup
  rw [veils.find_eq]
  cases found : fs.find here path with
  | error e => rfl
  | ok id =>
    have free : held id = none :=
      Classical.not_not.1 fun holds => apart id found (known id holds)
    simp only [veils.apart free]

end

end AgreesBut

/-- What is written to a file is in that file. -/
theorem writeTo_agreesBut {append : Bool} {offset offset' : Nat} {bytes : Bytes}
    (done : fs.writeTo id append offset bytes = .ok (offset', gs)) : AgreesBut (· = id) fs gs := by
  unfold writeTo at done
  split at done
  case h_1 access data program found =>
    split at done
    · cases done
      exact .refl fs
    · cases done
      have replaced := AgreesBut.withContents fs id
        (overlay data (if append then data.size else offset) bytes).toList
      rwa [withContents_eq found] at replaced
  case h_2 =>
    split at done
    · cases done
      exact .refl fs
    · cases done
  case h_3 =>
    cases done
    exact .refl fs

end FileSystem

/-- Whatever is done with an open file, it remains the same file, and the tree agrees but for what
is in it. -/
theorem OpenFile.Step.agreesBut {s t : OpenFile × FileSystem}
    (steps : ReflTransGen OpenFile.Step s t) :
    t.1.node = s.1.node ∧ s.2.AgreesBut (· = s.1.node) t.2 := by
  induction steps with
  | refl => exact ⟨rfl, .refl _⟩
  | tail _ step ih =>
    obtain ⟨same, agrees⟩ := ih
    cases step with
    | buffered => exact ⟨same, agrees⟩
    | written done =>
      refine ⟨same, agrees.trans ?_⟩
      rw [← same]
      exact FileSystem.writeTo_agreesBut done

end LineShell
