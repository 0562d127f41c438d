import LineShell.Proofs.Redirection.Targets
import LineShell.Proofs.OneRun.Streams

/-!
# Files that are opened and closed

The files of a command begin with nothing in their buffers (`openRedirects_opensFresh`). When they
are closed, each for itself, what is still in the buffers is written; on a device that is full
that fails, and then nothing happens but that a record is kept (`World.Closes`).

Main statement: `closes_closeRedirect`.
-/

namespace LineShell

open Relation (ReflTransGen)
open Act (Takes state)

/-! ## Devices that are full -/

namespace OpenFile

/-- The open file is the device that takes no bytes. -/
def IsFull (s : OpenFile × FileSystem) : Prop :=
  s.2.node? s.1.node = some (.device .full)

variable {s t : OpenFile × FileSystem} {act : FileAct Unit}

/-- Writing makes no file a device and no device a file, and to a device nothing is added. -/
theorem Step.isFull_iff (step : Step s t) : (IsFull t ↔ IsFull s) ∧ (IsFull s → t.2 = s.2) := by
  cases step with
  | buffered => exact ⟨.rfl, fun _ => rfl⟩
  | @written file offset bytes files files' done =>
    unfold FileSystem.writeTo at done
    unfold IsFull
    split at done
    case h_1 access data program found =>
      split at done
      · cases done
        exact ⟨.rfl, fun _ => rfl⟩
      · cases done
        have after := FileSystem.node?_put_self (.file access
          (FileSystem.overlay data (if file.append then data.size else file.offset) bytes) program)
          (FileSystem.lt_next_of_node? found)
        simp [found, after]
    case h_2 found =>
      split at done
      · cases done
        exact ⟨.rfl, fun _ => rfl⟩
      · cases done
    case h_3 =>
      cases done
      exact ⟨.rfl, fun _ => rfl⟩

theorem isFull_iff_of_steps (steps : ReflTransGen Step s t) :
    (IsFull t ↔ IsFull s) ∧ (IsFull s → t.2 = s.2) := by
  induction steps with
  | refl => exact ⟨.rfl, fun _ => rfl⟩
  | tail _ step ih =>
    obtain ⟨same, files⟩ := step.isFull_iff
    exact ⟨same.trans ih.1, fun full => (files (ih.1.2 full)).trans (ih.2 full)⟩

/-- Only the full device refuses what is done. -/
def RefusedByFull (act : FileAct Unit) : Prop :=
  ∀ s e t, act s = .error e t → IsFull t

theorem RefusedByFull.bind {next : Unit → FileAct Unit} (first : RefusedByFull act)
    (rest : ∀ value, RefusedByFull (next value)) : RefusedByFull (act >>= next) := by
  intro s e t refused
  rw [Act.bind_apply] at refused
  cases ran : act s with
  | ok value mid =>
    rw [ran] at refused
    exact rest value mid e t refused
  | error e' mid =>
    rw [ran] at refused
    cases refused
    exact first s e t ran

theorem RefusedByFull.get_bind {next : OpenFile × FileSystem → FileAct Unit}
    (rest : ∀ s, RefusedByFull (next s)) : RefusedByFull (get >>= next) :=
  fun s e t refused => rest s s e t refused

theorem RefusedByFull.modify (f : OpenFile × FileSystem → OpenFile × FileSystem) :
    RefusedByFull (modify f) := by
  intro s e t refused
  cases refused

theorem write_refusedByFull (bytes : Bytes) : RefusedByFull (write bytes) := by
  rintro ⟨file, files⟩ e t refused
  unfold write at refused
  dsimp only at refused
  cases done : files.writeTo file.node file.append file.offset bytes with
  | ok result => simp [done] at refused
  | error reason =>
    rw [done] at refused
    cases refused
    unfold FileSystem.writeTo at done
    split at done
    · split at done <;> cases done
    · assumption
    · cases done

theorem flushBlock_refusedByFull : RefusedByFull flushBlock :=
  .get_bind fun s => (write_refusedByFull s.1.block).bind fun _ => .modify _

theorem writeBytes_refusedByFull (bytes : Bytes) : RefusedByFull (writeBytes bytes) := by
  apply RefusedByFull.get_bind
  intro s
  split
  · exact .modify _
  · apply flushBlock_refusedByFull.bind
    intro _
    split
    · exact .modify _
    · exact write_refusedByFull bytes

theorem flushText_refusedByFull : RefusedByFull flushText :=
  .get_bind fun s => (RefusedByFull.modify _).bind fun _ => writeBytes_refusedByFull s.1.text

theorem flush_refusedByFull : RefusedByFull flush :=
  flushText_refusedByFull.bind fun _ => flushBlock_refusedByFull

theorem print_refusedByFull (bytes : Bytes) : RefusedByFull (print bytes) := by
  -- text is passed on before and after the new text is gathered, if there is enough of it
  have passes : ∀ p : OpenFile × FileSystem → Prop, [DecidablePred p] →
      RefusedByFull (do if p (← get) then flushText else pure ()) := by
    intro p _
    apply RefusedByFull.get_bind
    intro s
    split
    · exact flushText_refusedByFull
    · exact .modify id
  apply (passes fun s => textSize < s.1.text.length + bytes.length).bind
  intro _
  apply (RefusedByFull.modify _).bind
  intro _
  exact passes fun s => textSize ≤ s.1.text.length

theorem printBytes_refusedByFull (bytes : Bytes) : RefusedByFull (printBytes bytes) := by
  apply flush_refusedByFull.bind
  intro _
  apply (writeBytes_refusedByFull bytes).bind
  intro _
  exact flushBlock_refusedByFull

/-- Where closing a file fails, that is the full device, and nothing happens to the tree. -/
theorem close_failed {file : OpenFile} {files : FileSystem} {e : Errno}
    (failed : (close file files).2 = some e) :
    IsFull (file, files) ∧ (close file files).1 = files := by
  have flushed := flush_takes (file, files)
  unfold close at failed ⊢
  cases ran : flush (file, files) with
  | ok _ after => simp [ran] at failed
  | error reason after =>
    rw [ran] at flushed
    have full := flush_refusedByFull _ _ _ ran
    obtain ⟨same, kept⟩ := isFull_iff_of_steps flushed
    -- the block is tried again, in vain
    have again := flushBlock_takes after
    have unchanged : (state (flushBlock after)).2 = files :=
      ((isFull_iff_of_steps again).2 full).trans (kept (same.1 full))
    refine ⟨same.1 full, ?_⟩
    dsimp only
    cases ran' : flushBlock after <;> simpa [ran', state] using unchanged

end OpenFile

/-! ## Closing -/

namespace World

/-- The ways in which the file of a stream can be closed. Whether that succeeds or fails, the file
of the other stream is not touched. -/
inductive Closes (w : World) (c : Channel) : World → Prop
  | nothing (free : w.redirects.get c = none) : Closes w c w
  | closed {file : OpenFile} (stands : w.redirects.get c = some file) (files : FileSystem) :
      Closes w c { w with files, redirects := w.redirects.set c none }
  | failed {file : OpenFile} (stands : w.redirects.get c = some file)
      (full : OpenFile.IsFull (file, w.files)) (e : Errno) :
      Closes w c (({ w with redirects := w.redirects.set c none } : World).note .warning .execution
        s!"could not close {file.path}: {(Fault.refused e).message}")

theorem Closes.session {w v : World} {c : Channel} (closes : w.Closes c v) :
    v.session = w.session := by
  cases closes with
  | nothing => rfl
  | closed => rfl
  | failed => simp

theorem closes_closeRedirect (w : World) (c : Channel) : w.Closes c (w.closeRedirect c) := by
  unfold closeRedirect
  cases stands : w.redirects.get c with
  | none => exact .nothing stands
  | some file =>
    dsimp only
    cases failure : (file.close w.files).2 with
    | none => exact .closed stands _
    | some e =>
      obtain ⟨full, unchanged⟩ := OpenFile.close_failed failure
      dsimp only
      rw [unchanged]
      exact .failed stands full e

end World

/-! ## Opening -/

/-- A file that has just been opened holds nothing if it is not appended to or held nothing. -/
theorem FileSystem.Opens.eq_nil {here id : NodeId} {ways : String → Prop} {path : String}
    {append : Bool} {fs gs : FileSystem} (opens : fs.Opens here ways path append id gs)
    (empty : append = true → ∀ data, fs.contents? id = some data → data = []) {data : Bytes}
    (holds : gs.contents? id = some data) : data = [] := by
  cases opens with
  | file develops leads kept =>
    obtain rfl := Option.some.inj (kept.symm.trans holds)
    split
    case isTrue appends =>
      cases before : fs.contents? id with
      | none => rfl
      | some data => exact empty appends data before
    case isFalse => rfl
  | device develops found isDevice => simp [FileSystem.contents?, isDevice] at holds

namespace World

/-- The files that stand in for streams have just been opened: nothing was written to them, and
what is not appended to holds nothing. -/
def OpensFresh (w : World) : Prop :=
  ∀ c file, w.redirects.get c = some file →
    file.offset = 0 ∧ file.block = [] ∧ file.text = [] ∧
    (file.append = false → ∀ data, w.files.contents? file.node = some data → data = [])

variable {w v : World} {c : Channel} {r : Option Redirect}

theorem IsIdle.opensFresh (idle : w.IsIdle) : w.OpensFresh := by
  intro c file stands
  simp [idle.get c] at stands

/-- Opening a file empties it at most. -/
theorem Tries.opensFresh {result : EStateM.Result Fault World (Option Refusal)}
    (tries : v.Tries c r result) (fresh : v.OpensFresh) : (state result).OpensFresh := by
  have directories : ∀ {ways : String → Prop} {files : FileSystem},
      v.files.Develops v.here ways (fun _ => False) files →
      OpensFresh { v with files } := by
    intro ways files made d file stands
    obtain ⟨offset, block, text, empty⟩ := fresh _ _ stands
    refine ⟨offset, block, text, fun truncates data holds => ?_⟩
    exact empty truncates data ((made.contents?_eq not_false).symm.trans holds)
  cases tries with
  | none => exact fresh
  | slash => exact fresh
  | refused named made => exact directories made
  | fault named made => exact directories made
  | @opened r id files named clean opens =>
    intro d file stands
    rcases Both.get_set_eq_some stands with ⟨rfl, rfl⟩ | ⟨_, before⟩
    · refine ⟨rfl, rfl, rfl, fun truncates data holds => ?_⟩
      exact opens.eq_nil (fun appends => absurd appends (by simpa using truncates)) holds
    · obtain ⟨offset, block, text, empty⟩ := fresh _ _ before
      refine ⟨offset, block, text, fun truncates data holds => ?_⟩
      by_cases same : file.node = id
      · rw [same] at holds empty
        exact opens.eq_nil (fun _ => empty truncates) holds
      · exact empty truncates data ((opens.develops.contents?_eq same).symm.trans holds)

theorem openRedirects_opensFresh (idle : w.IsIdle) (c : Command) :
    (state (Act.openRedirects c w)).OpensFresh := by
  have first := (Act.openRedirect_tries w .err c.stderr).opensFresh idle.opensFresh
  unfold Act.openRedirects
  rw [Act.bind_apply]
  cases ran : Act.openRedirect .err c.stderr w with
  | error fault mid =>
    rw [ran] at first
    exact first
  | ok refusal mid =>
    rw [ran] at first
    cases refusal with
    | some refusal => exact first
    | none => exact (Act.openRedirect_tries mid .out c.stdout).opensFresh first

end World

end LineShell
