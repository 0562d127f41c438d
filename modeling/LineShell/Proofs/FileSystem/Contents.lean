import LineShell.Proofs.FileSystem.Edits

/-!
# What one file holds

`FileSystem.contents? fs id` is what the regular file `id` holds, and `fs.withContents id bytes`
is the tree in which it holds something else. Two trees that differ in what some files hold
remain so when such a file is given other contents in one of them (`Veils.withContents`).
-/

namespace LineShell.FileSystem

/-- What a regular file holds. -/
def contents? (fs : FileSystem) (id : NodeId) : Option Bytes :=
  match fs.node? id with
  | some (.file _ data _) => some data.toList
  | _ => none

/-- The tree in which a regular file holds other bytes. -/
def withContents (fs : FileSystem) (id : NodeId) (bytes : Bytes) : FileSystem :=
  match fs.node? id with
  | some (.file access _ program) => fs.put id (.file access bytes.toArray program)
  | _ => fs

variable {fs gs : FileSystem} {id : NodeId} {bytes : Bytes}

theorem ext_node? (h : ∀ id, fs.node? id = gs.node? id) : fs = gs := by
  have nodes : fs.nodes = gs.nodes := Array.ext_getElem? h
  cases fs
  cases gs
  exact congrArg _ nodes

theorem contents?_eq_some_iff : fs.contents? id = some bytes ↔
    ∃ access program, fs.node? id = some (.file access bytes.toArray program) := by
  unfold contents?
  constructor
  · intro holds
    split at holds
    case h_1 access data program found =>
      obtain rfl : data.toList = bytes := by simpa using holds
      exact ⟨access, program, by simpa using found⟩
    case h_2 => cases holds
  · rintro ⟨access, program, found⟩
    simp [found]

theorem withContents_eq {access : Access} {data : Array UInt8} {program : Option Program}
    (h : fs.node? id = some (.file access data program)) (bytes : Bytes) :
    fs.withContents id bytes = fs.put id (.file access bytes.toArray program) := by
  simp only [withContents, h]

@[simp] theorem next_withContents (fs : FileSystem) (id : NodeId) (bytes : Bytes) :
    (fs.withContents id bytes).next = fs.next := by
  unfold withContents
  split <;> simp

theorem node?_withContents_of_ne {other : NodeId} (h : other ≠ id) (bytes : Bytes) :
    (fs.withContents id bytes).node? other = fs.node? other := by
  unfold withContents
  split
  · exact node?_put_of_ne _ h
  · rfl

theorem node?_withContents {access : Access} {data : Array UInt8} {program : Option Program}
    (h : fs.node? id = some (.file access data program)) (bytes : Bytes) :
    (fs.withContents id bytes).node? id = some (.file access bytes.toArray program) := by
  rw [withContents_eq h]
  exact node?_put_self _ (lt_next_of_node? h)

theorem contents?_withContents (regular : (fs.contents? id).isSome) (bytes : Bytes) :
    (fs.withContents id bytes).contents? id = some bytes := by
  obtain ⟨old, holds⟩ := Option.isSome_iff_exists.1 regular
  obtain ⟨access, program, found⟩ := contents?_eq_some_iff.1 holds
  exact contents?_eq_some_iff.2 ⟨access, program, node?_withContents found bytes⟩

theorem withContents_self (holds : fs.contents? id = some bytes) :
    fs.withContents id bytes = fs := by
  obtain ⟨access, program, found⟩ := contents?_eq_some_iff.1 holds
  apply ext_node?
  intro other
  by_cases same : other = id
  · subst same
    rw [node?_withContents found, found]
  · exact node?_withContents_of_ne same bytes

theorem withContents_withContents (fs : FileSystem) (id : NodeId) (old new : Bytes) :
    (fs.withContents id old).withContents id new = fs.withContents id new := by
  cases holds : fs.contents? id with
  | none =>
    -- where there is no regular file both changes do nothing
    have unchanged : ∀ bytes, fs.withContents id bytes = fs := by
      intro bytes
      unfold withContents
      split
      case h_1 found => simp [contents?, found] at holds
      case h_2 => rfl
    rw [unchanged, unchanged]
  | some bytes =>
    obtain ⟨access, program, found⟩ := contents?_eq_some_iff.1 holds
    apply ext_node?
    intro other
    by_cases same : other = id
    · subst same
      rw [node?_withContents (node?_withContents found old), node?_withContents found]
    · simp only [node?_withContents_of_ne same]

/-- A tree goes with itself, whatever is known of one of its files. -/
theorem Veils.self (holds : fs.contents? id = some bytes) :
    Veils (fun other => if other = id then some bytes else none) fs fs := by
  obtain ⟨access, program, found⟩ := contents?_eq_some_iff.1 holds
  refine ⟨rfl, fun _ => rfl, fun {other bytes'} holds' => ?_⟩
  by_cases same : other = id
  · subst same
    obtain rfl : bytes = bytes' := by simpa using holds'
    exact ⟨access, bytes.toArray, program, program, found, found⟩
  · simp [same] at holds'

namespace Veils

variable {held : NodeId → Option Bytes} (veils : Veils held fs gs)
include veils

theorem contents?_eq (holds : held id = some bytes) : gs.contents? id = some bytes := by
  obtain ⟨access, _, _, program, _, after⟩ := veils.veiled holds
  exact contents?_eq_some_iff.2 ⟨access, program, after⟩

/-- A veiled file may be given other contents in the tree in which they count. -/
theorem withContents (holds : held id = some bytes) (new : Bytes) :
    Veils (fun other => if other = id then some new else held other) fs
      (gs.withContents id new) := by
  obtain ⟨access, data, program, program', before, after⟩ := veils.veiled holds
  refine ⟨by simp [veils.next], fun {other} free => ?_, fun {other bytes'} holds' => ?_⟩
  · -- a file that is not veiled is not the one that changes
    by_cases same : other = id
    · simp [same] at free
    · rw [if_neg same] at free
      rw [node?_withContents_of_ne same, veils.apart free]
  · by_cases same : other = id
    · subst same
      obtain rfl : new = bytes' := by simpa using holds'
      exact ⟨access, data, program, program', before, node?_withContents after new⟩
    · rw [if_neg same] at holds'
      rw [node?_withContents_of_ne same]
      exact veils.veiled holds'

end Veils

end LineShell.FileSystem
