import LineShell.Proofs.Path.Below
import LineShell.Proofs.Redirection.Targets

/-!
# Redirections that are no refusal

A file that cannot be opened is refused, and the command says so. Opening it ends in a fault for two
reasons only: its path holds the character that ends a text, or on the way to it more directories
are missing than are made at once (`World.LacksWay`).

Main statement: `openRedirects_fault`.
-/

namespace LineShell

/-- A path on the way to another one holds no character that this one does not hold. -/
theorem Path.holdsNull_toString {path : Path} {above : List String} (nonempty : above ≠ [])
    (listed : ∀ name ∈ above, name ∈ path.parts)
    (holds : holdsNull (Path.toString ⟨path.root, above⟩)) : holdsNull path.toString := by
  obtain ⟨first, others, rfl⟩ := List.exists_cons_of_ne_nil nonempty
  have some_ : path.parts ≠ [] := List.ne_nil_of_mem (listed first (.head _))
  change holdsNull (Path.toString ⟨path.root, path.parts⟩)
  have visible : '/' ≠ '\x00' := by decide
  rw [toString_eq_glue nonempty, holdsNull_glue visible, List.any_append, Bool.or_eq_true] at holds
  rw [toString_eq_glue some_, holdsNull_glue visible, List.any_append, Bool.or_eq_true]
  refine holds.imp_right fun held => ?_
  obtain ⟨name, isAbove, null⟩ := List.any_eq_true.1 held
  exact List.any_eq_true.2 ⟨name, listed name isAbove, null⟩

namespace FileSystem

variable {fs gs : FileSystem} {here : NodeId} {root : Root} {names : List String} {path : String}
  {append : Bool} {fault : Fault} {room : Nat}

/-- Of the directories with the given names, nearest first, there are more than `room`, and those
are missing that the nearest ones of them are in. -/
def LacksMore (fs : FileSystem) (here : NodeId) (root : Root) (room : Nat) (names : List String) :
    Prop :=
  room < names.length ∧ ∀ i, 0 < i → i ≤ room →
    fs.has here (Path.toString ⟨root, (names.drop i).reverse⟩) = false

theorem Grows.has (grows : Grows fs gs) (there : fs.has here path = true) :
    gs.has here path = true := by
  unfold FileSystem.has at there ⊢
  cases looked : fs.lookup here path with
  | error e =>
    rw [looked] at there
    cases there
  | ok node =>
    obtain ⟨id, found, before⟩ := find_of_lookup looked
    obtain ⟨node', after, _⟩ := grows.grown before
    simp [FileSystem.lookup, grows.find found, after, Except.isOk, Except.toBool]

/-- What is missing in a tree that has grown was missing before. -/
theorem LacksMore.of_grows (grows : Grows fs gs) (lacks : gs.LacksMore here root room names) :
    fs.LacksMore here root room names := by
  refine ⟨lacks.1, fun i low high => ?_⟩
  cases there : fs.has here (Path.toString ⟨root, (names.drop i).reverse⟩) with
  | false => rfl
  | true => exact (grows.has there).symm.trans (lacks.2 i low high)

theorem makeDirectory_fault (failed : fs.makeDirectory here path = .error fault) :
    (∃ e, fault = .refused e) ∨ (fault = .nullByte ∧ holdsNull path) := by
  unfold makeDirectory at failed
  split at failed
  case isTrue null => exact .inr ⟨(Except.error.inj failed).symm, null⟩
  case isFalse =>
    left
    split at failed
    · exact ⟨_, (Except.error.inj failed).symm⟩
    · exact ⟨_, (Except.error.inj failed).symm⟩
    · split at failed
      · cases failed
      · exact ⟨_, (Except.error.inj failed).symm⟩

theorem openToWrite_fault (failed : fs.openToWrite here path append = .error fault) :
    (∃ e, fault = .refused e) ∨ (fault = .nullByte ∧ holdsNull path) := by
  unfold openToWrite at failed
  split at failed
  case isTrue null => exact .inr ⟨(Except.error.inj failed).symm, null⟩
  case isFalse =>
    left
    split at failed
    · exact ⟨_, (Except.error.inj failed).symm⟩
    · split at failed
      · cases failed
      · exact ⟨_, (Except.error.inj failed).symm⟩
    · split at failed
      · split at failed
        · exact ⟨_, (Except.error.inj failed).symm⟩
        · split at failed <;> cases failed
      · cases failed
      · exact ⟨_, (Except.error.inj failed).symm⟩
      · exact ⟨_, (Except.error.inj failed).symm⟩

theorem makeDirectoriesWithin_fault
    (failed : (fs.makeDirectoriesWithin here root room names).2 = .error fault) :
    (∃ e, fault = .refused e) ∨
    (fault = .nullByte ∧ ∃ above, above ≠ [] ∧ above <:+ names ∧
      holdsNull (Path.toString ⟨root, above.reverse⟩)) ∨
    (fault = .tooDeep ∧ fs.LacksMore here root room names) := by
  induction names generalizing room with
  | nil => cases room <;> cases failed
  | cons name above ih =>
    cases room with
    | zero =>
      refine .inr (.inr ⟨(Except.error.inj failed).symm, Nat.zero_lt_succ _, ?_⟩)
      intro i low high
      exact absurd low (Nat.not_lt_of_le high)
    | succ room =>
      unfold makeDirectoriesWithin at failed
      extract_lets path before at failed
      cases earlier : before with
      | mk gs outcome =>
        rw [earlier] at failed
        cases outcome with
        | error fault' =>
          -- the directories before this one could not be made
          obtain rfl : fault' = fault := Except.error.inj failed
          unfold before at earlier
          split at earlier
          · cases earlier
          case isFalse lacks =>
            rw [not_or, Bool.not_eq_true] at lacks
            have nested : (fs.makeDirectoriesWithin here root room above).2 = .error fault' := by
              split at earlier
              · cases earlier
              · rw [earlier]
            rcases ih nested with refused | ⟨null, way, some_, suffix, holds⟩ | ⟨deep, more, missing⟩
            · exact .inl refused
            · exact .inr (.inl ⟨null, way, some_, suffix.trans (List.suffix_cons _ _), holds⟩)
            · refine .inr (.inr ⟨deep, Nat.succ_lt_succ more, fun i low high => ?_⟩)
              obtain ⟨j, rfl⟩ := Nat.exists_eq_succ_of_ne_zero (Nat.ne_of_gt low)
              rw [List.drop_succ_cons]
              cases j with
              | zero => exact lacks.2
              | succ j => exact missing _ (Nat.succ_pos j) (Nat.le_of_succ_le_succ high)
        | ok _ =>
          dsimp only at failed
          cases made : gs.makeDirectory here path with
          | ok hs => simp [made] at failed
          | error fault' =>
            rw [made] at failed
            dsimp only at failed
            split at failed
            · cases failed
            · cases failed
              refine (makeDirectory_fault made).imp_right fun null => .inl ⟨null.1, ?_⟩
              exact ⟨_, List.cons_ne_nil name above, List.suffix_rfl, null.2⟩

/-- Why the file of a redirection is neither opened nor refused. -/
theorem openTarget_fault {path : Path}
    (failed : (fs.openTarget here path append).2 = .error fault) :
    (∃ e, fault = .refused e) ∨ (fault = .nullByte ∧ holdsNull path.toString) ∨
    (fault = .tooDeep ∧
      fs.LacksMore here path.root maxMissing path.parts.reverse.tail) := by
  unfold openTarget at failed
  split at failed
  case h_1 gs fault' made =>
    obtain rfl : fault' = fault := Except.error.inj failed
    have outcome := congrArg Prod.snd made
    refine (makeDirectoriesWithin_fault outcome).imp_right fun other => other.imp_left ?_
    rintro ⟨null, above, nonempty, suffix, holds⟩
    refine ⟨null, Path.holdsNull_toString (by simpa using nonempty) (fun name listed => ?_) holds⟩
    have inTail := suffix.subset (List.mem_reverse.1 listed)
    exact List.mem_reverse.1 (List.mem_of_mem_tail inTail)
  case h_2 gs made =>
    split at failed
    case h_1 fault' opened =>
      obtain rfl : fault' = fault := Except.error.inj failed
      exact (openToWrite_fault opened).imp_right .inl
    case h_2 => cases failed

end FileSystem

namespace World

/-- On the way to the file of a redirection more directories are missing than are made at once. -/
def LacksWay (w : World) (r : Redirect) : Prop :=
  let path := Path.resolve w.session.cwd r.path
  w.files.LacksMore w.here path.root FileSystem.maxMissing path.parts.reverse.tail

end World

namespace Act

open World

variable {w opened : World} {c : Command} {fault : Fault}

theorem openRedirect_fault {channel : Channel} {r : Option Redirect}
    (failed : openRedirect channel r w = .error fault opened) : ∃ r', r = some r' ∧
      ((fault = .nullByte ∧ holdsNull (w.session.resolve r'.path)) ∨
        (fault = .tooDeep ∧ w.LacksWay r')) := by
  unfold openRedirect at failed
  cases r with
  | none => cases failed
  | some r =>
    refine ⟨r, rfl, ?_⟩
    dsimp only at failed
    split at failed
    · cases failed
    · simp only [bind_apply, get_apply, set_apply] at failed
      cases tried : (w.files.openTarget w.here (Path.resolve w.session.cwd r.path) r.append).2 with
      | ok id => simp [tried] at failed
      | error fault' =>
        rw [tried] at failed
        rcases FileSystem.openTarget_fault tried with ⟨e, rfl⟩ | null | deep
        · cases failed
        · cases null.1
          cases failed
          exact .inl null
        · cases deep.1
          cases failed
          exact .inr deep

/-- Where the files of a command are neither opened nor refused, the path of one of them holds the
character that ends a text, or it leads too deep below what there is. -/
theorem openRedirects_fault (failed : openRedirects c w = .error fault opened) :
    ∃ r, (c.stderr = some r ∨ c.stdout = some r) ∧
      ((fault = .nullByte ∧ holdsNull (w.session.resolve r.path)) ∨
        (fault = .tooDeep ∧ w.LacksWay r)) := by
  have first := openRedirect_tries w .err c.stderr
  unfold openRedirects at failed
  rw [bind_apply] at failed
  cases ran : openRedirect .err c.stderr w with
  | error fault' mid =>
    rw [ran] at failed
    cases failed
    obtain ⟨r, redirects, why⟩ := openRedirect_fault ran
    exact ⟨r, .inl redirects, why⟩
  | ok refusal mid =>
    rw [ran] at failed first
    cases refusal with
    | some refusal => cases failed
    | none =>
      obtain ⟨r, redirects, why⟩ := openRedirect_fault failed
      refine ⟨r, .inr redirects, ?_⟩
      -- opening the file for the errors has made the tree grow at most
      rcases first.of_accepted with ⟨_, rfl⟩ | ⟨_, _, _, _, _, _, rfl, opens⟩
      · exact why
      · exact why.imp_right fun deep => ⟨deep.1, deep.2.of_grows opens.develops.toGrows⟩

end Act

end LineShell
