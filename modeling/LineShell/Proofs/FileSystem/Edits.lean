import LineShell.Child.Run
import LineShell.Proofs.FileSystem.Veils

/-!
# Edits of trees that differ in what some files hold

What is done to a tree at nodes that are not veiled can be done to both trees of a
`FileSystem.Veils`, with the same outcome, and they remain trees of that kind
(`Veils.openToWrite`, `Veils.remove`, `Veils.permit`). What a veiled file holds can be
replaced in the one tree alone (`Veils.withData`).
-/

namespace LineShell.FileSystem

variable {fs gs : FileSystem} {id : NodeId}

/-! ## Nodes after a change -/

@[simp] theorem next_put (fs : FileSystem) (id : NodeId) (node : Node) :
    (fs.put id node).next = fs.next := by
  simp [put, next]

@[simp] theorem next_add (fs : FileSystem) (node : Node) : (fs.add node).next = fs.next + 1 := by
  simp [add, next]

theorem lt_next_of_node? {node : Node} (h : fs.node? id = some node) : id < fs.next := by
  obtain ⟨bound, _⟩ := Array.getElem?_eq_some_iff.1 h
  exact bound

theorem node?_eq_none (h : fs.next ≤ id) : fs.node? id = none :=
  Array.getElem?_eq_none h

theorem put_eq_self {node : Node} (h : fs.next ≤ id) : fs.put id node = fs := by
  unfold put
  rw [Array.setIfInBounds_eq_of_size_le h]

theorem node?_add (fs : FileSystem) (node : Node) (id : NodeId) :
    (fs.add node).node? id = if id = fs.next then some node else fs.node? id := by
  by_cases new : id = fs.next
  · subst new
    simp
  · rw [if_neg new]
    by_cases old : id < fs.next
    · exact node?_add_of_lt node old
    · have beyond : fs.next < id := Nat.lt_of_le_of_ne (Nat.le_of_not_lt old) (Ne.symm new)
      have reached : (fs.add node).next ≤ id := (next_add fs node).symm ▸ beyond
      rw [node?_eq_none reached, node?_eq_none (Nat.le_of_lt beyond)]

/-- Both edits are refused for the same reason, or both are done and leave trees that differ in
what some files hold. -/
inductive EditedAlike {ε : Type} (held : NodeId → Option Bytes) :
    Except ε FileSystem → Except ε FileSystem → Prop
  | refused (e : ε) : EditedAlike held (.error e) (.error e)
  | done {fs gs : FileSystem} (veils : Veils held fs gs) : EditedAlike held (.ok fs) (.ok gs)

namespace Veils

variable {held : NodeId → Option Bytes} (veils : Veils held fs gs)
include veils

theorem held_next : held fs.next = none := by
  cases holds : held fs.next with
  | none => rfl
  | some bytes =>
    obtain ⟨_, _, _, _, before, _⟩ := veils.veiled holds
    exact absurd (lt_next_of_node? before) (Nat.lt_irrefl _)

/-! ## Both trees -/

theorem put (apart : held id = none) (node : Node) :
    Veils held (fs.put id node) (gs.put id node) := by
  by_cases inside : id < fs.next
  · refine ⟨by simp [veils.next], fun {other} free => ?_, fun {other bytes} holds => ?_⟩
    · by_cases same : other = id
      · subst same
        rw [node?_put_self node inside, node?_put_self node (veils.next ▸ inside)]
      · rw [node?_put_of_ne node same, node?_put_of_ne node same, veils.apart free]
    · have other_ne : other ≠ id := by
        rintro rfl
        simp [apart] at holds
      rw [node?_put_of_ne node other_ne, node?_put_of_ne node other_ne]
      exact veils.veiled holds
  · -- there is no such node in either tree, so nothing is put anywhere
    have outside : fs.next ≤ id := Nat.le_of_not_lt inside
    rw [put_eq_self outside, put_eq_self (veils.next ▸ outside)]
    exact veils

theorem add (node : Node) : Veils held (fs.add node) (gs.add node) := by
  refine ⟨by simp [veils.next], fun {other} free => ?_, fun {other bytes} holds => ?_⟩
  · rw [node?_add, node?_add, veils.next, veils.apart free]
  · -- the new node is none of the veiled files, for these were there before
    have old : other ≠ fs.next := by
      rintro rfl
      simp [veils.held_next] at holds
    rw [node?_add, node?_add, veils.next, if_neg old, if_neg old]
    exact veils.veiled holds

/-- What is no regular file is the same in both trees. -/
theorem node?_eq_of_notFile {node : Node} (h : fs.node? id = some node)
    (notFile : ∀ access data program, node ≠ .file access data program) :
    gs.node? id = some node ∧ held id = none := by
  cases holds : held id with
  | none => exact ⟨(veils.apart holds).trans h, rfl⟩
  | some bytes =>
    obtain ⟨access, data, program, _, before, _⟩ := veils.veiled holds
    rw [h] at before
    exact absurd (Option.some.inj before) (notFile access data program)

theorem addIn (dir : NodeId) (name : String) (node : Node) :
    Veils held (fs.addIn dir name node) (gs.addIn dir name node) := by
  unfold FileSystem.addIn
  rcases veils.node_cases dir with same | ⟨_, _, _, _, _, before, after⟩
  · rw [same]
    cases found : fs.node? dir with
    | none => exact veils
    | some parent =>
      cases parent with
      | directory access above own entries =>
        obtain ⟨_, apart⟩ := veils.node?_eq_of_notFile found (by simp)
        dsimp only
        rw [veils.next]
        exact (veils.add node).put apart _
      | file => exact veils
      | link => exact veils
      | device => exact veils
  · rw [before, after]
    exact veils

theorem openToWrite {here : NodeId} {path : String}
    (apart : ∀ id, fs.locate .write here path = .ok (.node id) → held id = none) (append : Bool) :
    (∃ fault, fs.openToWrite here path append = .error fault ∧
      gs.openToWrite here path append = .error fault) ∨
    ∃ id fs' gs', fs.openToWrite here path append = .ok (id, fs') ∧
      gs.openToWrite here path append = .ok (id, gs') ∧ held id = none ∧ Veils held fs' gs' := by
  unfold FileSystem.openToWrite
  rw [veils.locate_eq]
  by_cases null : holdsNull path
  · simp only [if_pos null]
    exact .inl ⟨_, rfl, rfl⟩
  simp only [if_neg null]
  cases located : fs.locate .write here path with
  | error e => exact .inl ⟨_, rfl, rfl⟩
  | ok landing =>
    cases landing with
    | vacant dir name =>
      -- a new file has the same number in both trees
      simp only [veils.isWritable_eq]
      cases fs.isWritable dir with
      | true =>
        right
        exact ⟨fs.next, _, _, rfl, by rw [veils.next]; rfl, veils.held_next, veils.addIn dir name _⟩
      | false => exact .inl ⟨_, rfl, rfl⟩
    | node id =>
      -- a file that is there must not be veiled, or else only one of the trees may change
      have free := apart id located
      simp only [veils.apart free]
      cases fs.node? id with
      | none => exact .inl ⟨_, rfl, rfl⟩
      | some node =>
        cases node with
        | file access data program =>
          dsimp only
          by_cases refused : (!access.write) = true
          · simp only [if_pos refused]
            exact .inl ⟨_, rfl, rfl⟩
          simp only [if_neg refused]
          cases append with
          | true => exact .inr ⟨id, fs, gs, rfl, rfl, free, veils⟩
          | false => exact .inr ⟨id, _, _, rfl, rfl, free, veils.put free _⟩
        | device device => exact .inr ⟨id, fs, gs, rfl, rfl, free, veils⟩
        | directory => exact .inl ⟨_, rfl, rfl⟩
        | link => exact .inl ⟨_, rfl, rfl⟩

theorem writeTo (apart : held id = none) (append : Bool) (offset : Nat) (bytes : Bytes) :
    (∃ e, fs.writeTo id append offset bytes = .error e ∧
      gs.writeTo id append offset bytes = .error e) ∨
    ∃ after fs' gs', fs.writeTo id append offset bytes = .ok (after, fs') ∧
      gs.writeTo id append offset bytes = .ok (after, gs') ∧ Veils held fs' gs' := by
  unfold FileSystem.writeTo
  rw [veils.apart apart]
  by_cases empty : bytes = []
  · -- writing nothing is not refused even by a full device
    subst empty
    simp only [if_true]
    right
    cases fs.node? id with
    | none => exact ⟨_, _, _, rfl, rfl, veils⟩
    | some node =>
      cases node with
      | device device => cases device <;> exact ⟨_, _, _, rfl, rfl, veils⟩
      | _ => exact ⟨_, _, _, rfl, rfl, veils⟩
  simp only [if_neg empty]
  cases fs.node? id with
  | none => exact .inr ⟨_, _, _, rfl, rfl, veils⟩
  | some node =>
    cases node with
    | file access data program => exact .inr ⟨_, _, _, rfl, rfl, veils.put apart _⟩
    | device device =>
      cases device with
      | null => exact .inr ⟨_, _, _, rfl, rfl, veils⟩
      | full => exact .inl ⟨_, rfl, rfl⟩
    | directory => exact .inr ⟨_, _, _, rfl, rfl, veils⟩
    | link => exact .inr ⟨_, _, _, rfl, rfl, veils⟩

theorem writeFile {here : NodeId} {path : String}
    (apart : ∀ id, fs.locate .write here path = .ok (.node id) → held id = none) (text : String) :
    EditedAlike held (Child.writeFile fs here path text) (Child.writeFile gs here path text) := by
  unfold Child.writeFile
  -- opening and writing are refused alike or done alike, one after the other
  rcases veils.openToWrite apart false with ⟨fault, before, after⟩ |
    ⟨id, fs', gs', before, after, free, veils'⟩
  · rw [before, after]
    exact .refused fault
  · rw [before, after]
    rcases veils'.writeTo free false 0 (Utf8.encode text) with ⟨e, before, after⟩ |
      ⟨_, _, _, before, after, veils''⟩
    · simp only [bind, Except.bind, before, after]
      exact .refused _
    · simp only [bind, Except.bind, before, after]
      exact .done veils''

theorem remove (here : NodeId) (path : String) :
    EditedAlike held (fs.remove here path) (gs.remove here path) := by
  unfold FileSystem.remove
  rw [veils.locate_eq]
  cases fs.locate .entry here path with
  | error e => exact .refused e
  | ok landing =>
    cases landing with
    | vacant => exact .refused _
    | node id =>
      simp only [veils.holder?_eq]
      cases fs.holder? id with
      | none => exact .refused _
      | some dir =>
        dsimp only
        rcases veils.node_cases dir with same | ⟨_, _, _, _, _, before, after⟩
        · rw [same]
          cases found : fs.node? dir with
          | none => exact .refused _
          | some node =>
            cases node with
            | directory access parent name entries =>
              obtain ⟨_, free⟩ := veils.node?_eq_of_notFile found (by simp)
              dsimp only
              split
              · exact .done (veils.put free _)
              · exact .refused _
            | file => exact .refused _
            | link => exact .refused _
            | device => exact .refused _
        · rw [before, after]
          exact .refused _

/-- Permissions of a veiled file are set in both trees; what it holds remains. -/
theorem permitNode (id : NodeId) (access : Access) :
    Veils held (fs.permitNode id access) (gs.permitNode id access) := by
  unfold FileSystem.permitNode
  cases holds : held id with
  | none =>
    rw [veils.apart holds]
    cases fs.node? id with
    | none => exact veils
    | some node =>
      cases node with
      | file => exact veils.put holds _
      | directory => exact veils.put holds _
      | link => exact veils
      | device => exact veils
  | some bytes =>
    obtain ⟨old, data, program, program', before, after⟩ := veils.veiled holds
    rw [before, after]
    have inside := lt_next_of_node? before
    refine ⟨by simp [veils.next], fun {other} free => ?_, fun {other bytes'} holds' => ?_⟩
    · have other_ne : other ≠ id := by
        rintro rfl
        simp [free] at holds
      simp only [node?_put_of_ne _ other_ne, veils.apart free]
    · by_cases same : other = id
      · subst same
        obtain rfl : bytes = bytes' := by simpa [holds] using holds'
        exact ⟨access, data, program, program', node?_put_self _ inside,
          node?_put_self _ (veils.next ▸ inside)⟩
      · simp only [node?_put_of_ne _ same]
        exact veils.veiled holds'

theorem permit (here : NodeId) (path : String) (access : Access) :
    EditedAlike held (fs.permit here path access) (gs.permit here path access) := by
  unfold FileSystem.permit
  rw [veils.find_eq]
  cases fs.find here path with
  | error e => exact .refused e
  | ok id => exact .done (veils.permitNode id access)

end Veils

end LineShell.FileSystem
