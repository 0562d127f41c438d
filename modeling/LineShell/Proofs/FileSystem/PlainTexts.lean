import LineShell.FileSystem.Setup
import LineShell.Proofs.FileSystem.Passage
import LineShell.Proofs.FileSystem.Steps
import LineShell.Proofs.OneRun.Commands
import LineShell.Proofs.Path.Below

/-!
# Texts in a tree

The character NUL ends a text for an operating system, so no name in a directory and no target of a
link holds it (`FileSystem.IsPlain`). In such a tree a path that holds it leads nowhere.

Main statements: `not_holdsNull_of_find`, every tree that is set up is one of this kind
(`isPlain_furnish`), and it remains one whatever the shell and its children do to it
(`IsPlain.edits`, `Act.runLine_isPlain`). So what is said of plain trees elsewhere holds in every
world that a shell comes to from a tree that was set up.
-/

namespace LineShell

open Relation (ReflTransGen)

/-- No text in a node holds the character that ends a text. -/
def Node.IsPlain : Node → Prop
  | .directory _ _ _ entries => ∀ entry ∈ entries, ¬ holdsNull entry.1
  | .link target => ¬ holdsNull target
  | .file _ _ _ => True
  | .device _ => True

instance : DecidablePred Node.IsPlain
  | .directory _ _ _ entries => inferInstanceAs (Decidable (∀ entry ∈ entries, ¬ holdsNull entry.1))
  | .link target => inferInstanceAs (Decidable (¬ holdsNull target))
  | .file _ _ _ => inferInstanceAs (Decidable True)
  | .device _ => inferInstanceAs (Decidable True)

namespace FileSystem

/-- No text in the tree holds the character that ends a text. -/
def IsPlain (fs : FileSystem) : Prop :=
  ∀ id node, fs.node? id = some node → node.IsPlain

variable {fs gs : FileSystem} {here id dir : NodeId} {name path : String} {names : List String}
  {links : Nat} {node : Node}

theorem isPlain_iff : fs.IsPlain ↔ ∀ node ∈ fs.nodes.toList, node.IsPlain := by
  constructor
  · intro plain node listed
    obtain ⟨id, found⟩ := List.mem_iff_getElem?.1 listed
    exact plain id node (by rwa [node?, ← Array.getElem?_toList])
  · intro plain id node found
    rw [node?, ← Array.getElem?_toList] at found
    exact plain node (List.mem_of_getElem? found)

instance : DecidablePred IsPlain :=
  fun _ => decidable_of_iff _ isPlain_iff.symm

/-! ## Walks -/

/-- Where a name is looked up, and what comes of it. -/
theorem step_cases {next : Step} (h : fs.step here name = .ok next) :
    (IsDots name ∧ ∃ id, next = .node id) ∨ ∃ access parent own entries,
      fs.node? here = some (.directory access parent own entries) ∧
      ((next = .missing ∧ entries.lookup name = none) ∨
        ∃ id, entries.lookup name = some id ∧
          (next = .node id ∨ ∃ target, next = .link id target ∧
            fs.node? id = some (.link target))) := by
  obtain ⟨access, parent, own, entries, found⟩ := exists_directory_of_step h
  simp only [step, found] at h
  by_cases empty : name = ""
  · rw [if_pos empty] at h
    exact .inl ⟨.inl empty, here, (Except.ok.inj h).symm⟩
  rw [if_neg empty] at h
  split at h
  · cases h
  by_cases dot : name = "."
  · rw [if_pos dot] at h
    exact .inl ⟨.inr (.inl dot), here, (Except.ok.inj h).symm⟩
  rw [if_neg dot] at h
  by_cases dots : name = ".."
  · rw [if_pos dots] at h
    exact .inl ⟨.inr (.inr dots), parent, (Except.ok.inj h).symm⟩
  rw [if_neg dots] at h
  split at h
  · cases h
  refine .inr ⟨access, parent, own, entries, found, ?_⟩
  cases listed : entries.lookup name with
  | none =>
    rw [listed] at h
    exact .inl ⟨(Except.ok.inj h).symm, rfl⟩
  | some id =>
    rw [listed] at h
    refine .inr ⟨id, rfl, ?_⟩
    dsimp only at h
    split at h
    case h_1 target linked => exact .inr ⟨target, (Except.ok.inj h).symm, linked⟩
    case h_2 => exact .inl (Except.ok.inj h).symm

theorem not_holdsNull_of_isDots (dots : IsDots name) : ¬ holdsNull name := by
  rcases dots with rfl | rfl | rfl <;> decide

/-- A name that leads on is one that a directory has, or one of those that are not looked up. -/
theorem not_holdsNull_of_step (plain : fs.IsPlain) {next : Step}
    (h : fs.step here name = .ok next) (known : next ≠ .missing) : ¬ holdsNull name := by
  rcases step_cases h with ⟨dots, _⟩ | ⟨access, parent, own, entries, found, looked⟩
  · exact not_holdsNull_of_isDots dots
  · obtain ⟨id, listed, _⟩ := looked.resolve_left fun missing => known missing.1
    obtain ⟨front, back, split, _⟩ := List.lookup_eq_some_iff.1 listed
    exact plain here _ found (name, id) (by simp [split])

theorem not_holdsNull_of_link (plain : fs.IsPlain) {target : String}
    (h : fs.step here name = .ok (.link id target)) : ¬ holdsNull target := by
  rcases step_cases h with ⟨_, _, other⟩ | ⟨_, _, _, _, _, ⟨other, _⟩ | ⟨id', _, onward⟩⟩
  · cases other
  · cases other
  · rcases onward with other | ⟨target', same, linked⟩
    · cases other
    · cases same
      exact plain _ _ linked

theorem plain_of_walkWith (plain : fs.IsPlain)
    {jump : NodeId → List String → Except Errno Landing}
    (jumps : ∀ start names, jump start names = .ok (.node id) → ∀ name ∈ names, ¬ holdsNull name)
    (h : fs.walkWith .use jump here names = .ok (.node id)) : ∀ name ∈ names, ¬ holdsNull name := by
  induction names generalizing here with
  | nil => nofun
  | cons first rest ih =>
    rw [List.forall_mem_cons]
    rcases walkWith_use_cons_cases h with ⟨next, stepped, onward⟩ | ⟨link, target, stepped, onward⟩
    · exact ⟨not_holdsNull_of_step plain stepped nofun, ih onward⟩
    · -- what comes behind the link is followed behind its target
      have followed := jumps _ _ onward
      exact ⟨not_holdsNull_of_step plain stepped nofun,
        fun name listed => followed name (List.mem_append_right _ listed)⟩

theorem plain_of_walk (plain : fs.IsPlain) (h : fs.walk .use links here names = .ok (.node id)) :
    ∀ name ∈ names, ¬ holdsNull name := by
  induction links generalizing here names with
  | zero => exact plain_of_walkWith plain (fun _ _ found => by cases found) h
  | succ links ih => exact plain_of_walkWith plain (fun _ _ found => ih found) h

theorem holdsNull_iff_exists_piece : holdsNull path ↔ ∃ piece ∈ Text.pieces '/' path,
    holdsNull piece := by
  rw [holdsNull_eq_any_pieces (by decide : '/' ≠ '\x00'), List.any_eq_true]

/-- A path that leads somewhere can be handed to an operating system. -/
theorem not_holdsNull_of_find (plain : fs.IsPlain) (found : fs.find here path = .ok id) :
    ¬ holdsNull path := by
  have located := locate_of_find found
  obtain ⟨_, _, walks⟩ := locate_of_ok located
  rw [walks] at located
  intro holds
  obtain ⟨piece, listed, inside⟩ := holdsNull_iff_exists_piece.1 holds
  exact plain_of_walk plain located piece listed inside

theorem plain_of_vacantWith (plain : fs.IsPlain)
    {jump : NodeId → List String → Except Errno Landing}
    (jumps : ∀ start names, (∀ name ∈ names, ¬ holdsNull name) →
      jump start names = .ok (.vacant dir name) → ¬ holdsNull name)
    (clean : ∀ name ∈ names, ¬ holdsNull name)
    (h : fs.walkWith .use jump here names = .ok (.vacant dir name)) : ¬ holdsNull name := by
  induction names generalizing here with
  | nil => cases h
  | cons first rest ih =>
    rw [List.forall_mem_cons] at clean
    rw [walkWith_use_cons] at h
    cases stepped : fs.step here first with
    | error e => simp [stepped] at h
    | ok next =>
      rw [stepped] at h
      cases next with
      | node next => exact ih clean.2 h
      | link link target =>
        refine jumps _ _ (fun name listed => ?_) h
        rcases List.mem_append.1 listed with listed | listed
        · intro inside
          exact not_holdsNull_of_link plain stepped
            (holdsNull_iff_exists_piece.2 ⟨name, listed, inside⟩)
        · exact clean.2 name listed
      | missing =>
        dsimp only at h
        split at h
        · cases h
          exact clean.1
        · cases h

/-- A name for something new comes from the path or from a link on the way. -/
theorem not_holdsNull_of_vacant (plain : fs.IsPlain) {purpose : Purpose}
    (clean : ¬ holdsNull path) (h : fs.locate purpose here path = .ok (.vacant dir name)) :
    ¬ holdsNull name := by
  have located := locate_use_of_locate (by simp) h
  obtain ⟨_, _, walks⟩ := locate_of_ok located
  rw [walks] at located
  have pieces : ∀ piece ∈ Text.pieces '/' path, ¬ holdsNull piece := fun piece listed inside =>
    clean (holdsNull_iff_exists_piece.2 ⟨piece, listed, inside⟩)
  clear walks h
  generalize startOf here path = start at located
  generalize Text.pieces '/' path = names at located pieces
  generalize maxLinks = links at located
  induction links generalizing start names with
  | zero => exact plain_of_vacantWith plain (fun _ _ _ found => by cases found) pieces located
  | succ links ih =>
    exact plain_of_vacantWith plain (fun start names clean found => ih start names clean found)
      pieces located

/-! ## Changes -/

namespace IsPlain

theorem put (plain : fs.IsPlain) (fits : node.IsPlain) : (fs.put id node).IsPlain := by
  intro other node' found
  by_cases inside : id < fs.next
  · by_cases same : other = id
    · subst same
      rw [node?_put_self node inside] at found
      exact Option.some.inj found ▸ fits
    · rw [node?_put_of_ne node same] at found
      exact plain other node' found
  · rw [put_eq_self (Nat.le_of_not_lt inside)] at found
    exact plain other node' found

theorem addIn (plain : fs.IsPlain) (fits : node.IsPlain) (clean : ¬ holdsNull name) :
    (fs.addIn dir name node).IsPlain := by
  unfold FileSystem.addIn
  split
  case h_2 => exact plain
  case h_1 access parent own entries found =>
    have added : (fs.add node).IsPlain := by
      intro other node' found'
      rw [node?_add] at found'
      split at found'
      · exact Option.some.inj found' ▸ fits
      · exact plain other node' found'
    apply added.put
    intro entry listed
    rcases List.mem_append.1 listed with listed | listed
    · exact plain dir _ found entry listed
    · obtain rfl := List.mem_singleton.1 listed
      exact clean

theorem permitNode (plain : fs.IsPlain) (id : NodeId) (access : Access) :
    (fs.permitNode id access).IsPlain := by
  unfold FileSystem.permitNode
  split
  · exact plain.put trivial
  · rename_i found
    exact plain.put fun entry listed => plain id _ found entry listed
  · exact plain

theorem edit (plain : fs.IsPlain) (edit : fs.Edit gs) : gs.IsPlain := by
  cases edit with
  | opened done =>
    unfold openToWrite at done
    split at done
    · cases done
    rename_i clean
    repeat' split at done
    all_goals cases done
    · rename_i located _
      exact plain.addIn trivial (not_holdsNull_of_vacant plain clean located)
    · exact plain
    · exact plain.put trivial
    · exact plain
  | written done =>
    unfold writeTo at done
    repeat' split at done
    all_goals cases done
    · exact plain
    · exact plain.put trivial
    · exact plain.put trivial
    · exact plain
    · exact plain
  | directoryMade done =>
    unfold makeDirectory at done
    split at done
    · cases done
    rename_i clean
    repeat' split at done
    all_goals cases done
    rename_i located _
    exact plain.addIn (fun _ listed => nomatch listed) (not_holdsNull_of_vacant plain clean located)
  | removed done =>
    unfold remove at done
    repeat' split at done
    all_goals cases done
    rename_i found _
    -- of the names some are left
    exact plain.put fun entry kept => plain _ _ found entry (List.mem_filter.1 kept).1
  | permitted done =>
    unfold permit at done
    split at done
    all_goals cases done
    exact plain.permitNode _ _

theorem edits (plain : fs.IsPlain) (edits : fs.Edits gs) : gs.IsPlain := by
  induction edits with
  | refl => exact plain
  | tail _ edit ih => exact ih.edit edit

end IsPlain

/-! ## Trees that are set up -/

end FileSystem

/-- No text of a planned link holds the character that ends a text. Other plans are refused if
their paths do. -/
def Plan.IsPlain : Plan → Prop
  | .link path target => ¬ holdsNull path ∧ ¬ holdsNull target
  | _ => True

namespace FileSystem

variable {fs : FileSystem}

theorem IsPlain.carryOut (plain : fs.IsPlain) {plan : Plan} (fits : plan.IsPlain) :
    (fs.carryOut plan).1.IsPlain := by
  have way : ∀ path, (fs.makeWay path).IsPlain := fun path =>
    plain.edits (fs.makeDirectories_edits _ _ _)
  cases plan with
  | directory path access => exact plain.edits (fs.makeDirectories_edits _ _ _)
  | file path data access =>
    unfold FileSystem.carryOut
    dsimp only
    split
    case h_1 id gs done => exact ((way _).edit (.opened done)).put trivial
    case h_2 => exact way _
  | link path target =>
    unfold FileSystem.carryOut
    dsimp only
    split
    case h_1 dir name located =>
      have clean := not_holdsNull_of_vacant (way _) fits.1 located
      exact (way _).addIn fits.2 clean
    case h_2 => exact way _
  | program path actions access =>
    unfold FileSystem.carryOut
    dsimp only
    split
    case h_1 id gs done => exact ((way _).edit (.opened done)).put trivial
    case h_2 => exact way _

theorem IsPlain.furnish (plain : fs.IsPlain) {plans : List Plan}
    (fits : ∀ plan ∈ plans, plan.IsPlain) : (fs.furnish plans).IsPlain := by
  unfold FileSystem.furnish
  apply List.foldlRecOn
  · refine List.foldlRecOn (motive := fun made : FileSystem × List (NodeId × Access) =>
      made.1.IsPlain) plans _ plain ?_
    exact fun _ plain plan listed => plain.carryOut (fits plan listed)
  · exact fun _ plain permission _ => plain.permitNode permission.1 permission.2

theorem isPlain_initial {name : String} (clean : ¬ holdsNull name) : (initial name).IsPlain := by
  have fixed : ∀ other ∈ ["dev", "bin", "null", "full", "sh"], ¬ holdsNull other := by decide
  simp only [List.forall_mem_cons] at fixed
  simp only [isPlain_iff, initial, List.forall_mem_cons, Node.IsPlain]
  simp [fixed, clean]

/-- Every tree that is set up by plans whose links can be made holds plain texts only. -/
theorem isPlain_furnish {name : String} (clean : ¬ holdsNull name) {plans : List Plan}
    (fits : ∀ plan ∈ plans, plan.IsPlain) : ((initial name).furnish plans).IsPlain :=
  (isPlain_initial clean).furnish fits

end FileSystem

/-- Whatever a line does, the texts of the tree are plain afterwards if they were so before. -/
theorem Act.runLine_isPlain {w : World} (line : String) (plain : w.files.IsPlain) :
    ((runLine line).run w).files.IsPlain := by
  have steps := runLine_takes line w
  rw [← run_eq_state] at steps
  exact plain.edits (World.Steps.files steps)

end LineShell
