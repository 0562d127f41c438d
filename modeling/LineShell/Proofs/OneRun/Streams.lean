import LineShell.Proofs.OneRun.Steps

/-!
# Steps on streams and files

Everything that goes by way of an open file, a terminal or a child comes to steps that leave
the session alone: `moves` is any relation here.

Main statements: an action with an open file does nothing but edit the tree (`print_edits`,
`flush_edits`, `close_edits`), what is said on a stream takes steps (`print_takes`,
`flush_takes`, `printBytes_takes`, `report_takes`), and so do a child (`Child.run_steps`) and
the opening and closing of files (`openRedirects_takes`, `closing_takes`).
-/

namespace LineShell

open Relation (ReflTransGen)
open Act (Takes state)

/-! ## Open files -/

namespace OpenFile

/-- What is done with an open file: its buffers change, or it is written to. -/
inductive Step : OpenFile × FileSystem → OpenFile × FileSystem → Prop
  | buffered (file : OpenFile) (text block : Bytes) (files : FileSystem) :
      Step (file, files) ({ file with text, block }, files)
  | written {file : OpenFile} {offset : Nat} {bytes : Bytes} {files files' : FileSystem}
      (done : files.writeTo file.node file.append file.offset bytes = .ok (offset, files')) :
      Step (file, files) ({ file with offset }, files')

variable {s t : OpenFile × FileSystem}

theorem Step.edits (steps : ReflTransGen Step s t) : s.2.Edits t.2 := by
  induction steps with
  | refl => exact .refl
  | tail _ step ih =>
    cases step with
    | buffered => exact ih
    | written done => exact ih.tail (.written done)

theorem buffer_takes (text block : OpenFile → Bytes) :
    Takes Step (modify fun (file, files) =>
      ({ file with text := text file, block := block file }, files) : FileAct PUnit) :=
  Takes.modify fun (file, files) => .single (.buffered file (text file) (block file) files)

theorem write_takes (bytes : Bytes) : Takes Step (write bytes) := by
  intro (file, files)
  unfold write
  dsimp only
  cases done : files.writeTo file.node file.append file.offset bytes with
  | ok result => exact .single (.written done)
  | error e => exact .refl

theorem gather_takes (bytes : Bytes) : Takes Step (gather bytes) :=
  buffer_takes (·.text) (·.block ++ bytes)

theorem flushBlock_takes : Takes Step flushBlock := by
  apply Takes.bind .get
  intro s
  apply Takes.bind (write_takes s.1.block)
  intro _
  exact buffer_takes (·.text) fun _ => []

theorem writeBytes_takes (bytes : Bytes) : Takes Step (writeBytes bytes) := by
  apply Takes.bind .get
  intro s
  split
  · exact gather_takes bytes
  · apply Takes.bind flushBlock_takes
    intro _
    split
    · exact gather_takes bytes
    · exact write_takes bytes

theorem flushText_takes : Takes Step flushText := by
  apply Takes.bind .get
  intro s
  apply Takes.bind (buffer_takes (fun _ => []) (·.block))
  intro _
  exact writeBytes_takes s.1.text

theorem makeRoom_takes (more : Nat) : Takes Step (makeRoom more) := by
  apply Takes.bind .get
  intro s
  split
  · exact flushText_takes
  · exact .pure ()

theorem passPortion_takes : Takes Step passPortion := by
  apply Takes.bind .get
  intro s
  split
  · exact flushText_takes
  · exact .pure ()

theorem print_takes (bytes : Bytes) : Takes Step (print bytes) := by
  apply Takes.bind (makeRoom_takes bytes.length)
  intro _
  apply Takes.bind (buffer_takes (·.text ++ bytes) (·.block))
  intro _
  exact passPortion_takes

theorem flush_takes : Takes Step flush :=
  Takes.bind flushText_takes fun _ => flushBlock_takes

theorem printBytes_takes (bytes : Bytes) : Takes Step (printBytes bytes) := by
  apply Takes.bind flush_takes
  intro _
  apply Takes.bind (writeBytes_takes bytes)
  intro _
  exact flushBlock_takes

theorem close_steps (file : OpenFile) (files : FileSystem) :
    ∃ last, ReflTransGen Step (file, files) (last, (close file files).1) := by
  have flushed := flush_takes (file, files)
  unfold close
  cases ran : flush (file, files) with
  | ok _ after =>
    rw [ran] at flushed
    exact ⟨_, flushed⟩
  | error e after =>
    rw [ran] at flushed
    have again := flushBlock_takes after
    dsimp only
    cases ran' : flushBlock after with
    | ok _ last =>
      rw [ran'] at again
      exact ⟨_, flushed.trans again⟩
    | error e last =>
      rw [ran'] at again
      exact ⟨_, flushed.trans again⟩

theorem close_edits (file : OpenFile) (files : FileSystem) : files.Edits (close file files).1 := by
  obtain ⟨last, steps⟩ := close_steps file files
  exact Step.edits steps

end OpenFile

variable {moves : Session → Session → Prop}

namespace Act

/-! ## Saying something -/

theorem onFile_takes {act : FileAct Unit} (steps : Takes OpenFile.Step act) (c : Channel)
    (file : OpenFile) : Takes (World.Step moves) (onFile c file act) := by
  intro w
  have edits := OpenFile.Step.edits (steps (file, w.files))
  unfold onFile
  cases ran : act (file, w.files) with
  | ok _ after =>
    rw [ran] at edits
    exact (World.edited_steps edits).tail (.redirected _ _)
  | error e after =>
    rw [ran] at edits
    exact (World.edited_steps edits).tail (.redirected _ _)

theorem note_takes (level : Log.Level) (source : Log.Source) (message : String) :
    Takes (World.Step moves) (note level source message) :=
  Takes.modify fun w => w.note_steps level source message

theorem print_takes (c : Channel) (text : String) :
    Takes (World.Step moves) (print c text) := by
  apply Takes.bind .get
  intro w
  cases w.redirects.get c with
  | some file => exact onFile_takes (OpenFile.print_takes _) c file
  | none => exact Takes.modify fun w => w.onTerminal_steps c _

theorem flush_takes (c : Channel) : Takes (World.Step moves) (flush c) := by
  apply Takes.bind .get
  intro w
  cases w.redirects.get c with
  | some file => exact onFile_takes OpenFile.flush_takes c file
  | none => exact Takes.modify fun w => w.onTerminal_steps c _

theorem printBytes_takes (c : Channel) (bytes : Bytes) :
    Takes (World.Step moves) (printBytes c bytes) := by
  apply Takes.bind .get
  intro w
  cases w.redirects.get c with
  | some file => exact onFile_takes (OpenFile.printBytes_takes bytes) c file
  | none => exact Takes.modify fun w => w.onTerminal_steps c _

theorem printLine_takes (c : Channel) (text : String) :
    Takes (World.Step moves) (printLine c text) :=
  Takes.bind (print_takes c text) fun _ => print_takes c "\n"

theorem report_takes (message : String) : Takes (World.Step moves) (report message) := by
  apply Takes.bind .get
  intro w
  apply Takes.bind (printLine_takes .err _)
  intro _
  exact flush_takes .err

end Act

/-! ## Children -/

namespace World

theorem receive_steps (w : World) (c : Channel) (bytes : Bytes) :
    Steps moves w (w.receive c bytes) := by
  unfold receive
  cases w.redirects.get c with
  | some file =>
    have edits := OpenFile.Step.edits (OpenFile.write_takes bytes (file, w.files))
    dsimp only
    cases ran : OpenFile.write bytes (file, w.files) with
    | ok _ after =>
      rw [ran] at edits
      exact (edited_steps edits).tail (.redirected _ _)
    | error e after => exact .refl
  | none =>
    dsimp only
    split
    · exact .refl
    · exact w.onTerminal_steps c _

theorem withFiles_steps {ε : Type} (w : World) {outcome : Except ε FileSystem}
    (edits : ∀ files, outcome = .ok files → w.files.Edits files) :
    Steps moves w (w.withFiles outcome) := by
  cases outcome with
  | ok files => exact edited_steps (edits files rfl)
  | error e => exact .refl

end World

namespace Child

theorem perform_steps (child : Child) (w : World) (action : Action) :
    w.Steps moves (child.perform w action) := by
  cases action with
  | out text => exact w.receive_steps .out _
  | err text => exact w.receive_steps .err _
  | showArguments => exact w.receive_steps .out _
  | showDirectory => exact w.receive_steps .out _
  | showVariable name => exact w.receive_steps .out _
  | write path text => exact w.withFiles_steps fun _ done => writeFile_edits done
  | remove path => exact w.withFiles_steps fun _ done => .single (.removed done)
  | permit path access => exact w.withFiles_steps fun _ done => .single (.permitted done)
  | interrupt => exact .refl
  | die signal => exact .refl
  | finish status => exact .refl

theorem runActions_steps (child : Child) (actions : List Action) (w : World) :
    w.Steps moves (child.runActions actions w).2 := by
  induction actions generalizing w with
  | nil => exact .refl
  | cons action actions ih =>
    have first : w.Steps moves (child.perform w action) := child.perform_steps w action
    -- an action that ends the child leaves the world as it is
    cases action with
    | finish status => exact .refl
    | die signal => exact .refl
    | _ => exact first.trans (ih _)

theorem run_steps (child : Child) (program : Program) (w : World) :
    w.Steps moves (child.run program w).2 :=
  child.runActions_steps _ w

end Child

/-! ## Opening and closing -/

namespace World

theorem closeRedirect_steps (w : World) (c : Channel) : Steps moves w (w.closeRedirect c) := by
  unfold closeRedirect
  cases w.redirects.get c with
  | none => exact .refl
  | some file =>
    have closed : Steps moves w
        { w with files := (file.close w.files).1, redirects := w.redirects.set c none } :=
      (edited_steps (file.close_edits w.files)).tail (.redirected _ _)
    dsimp only
    cases (file.close w.files).2 with
    | none => exact closed
    | some e => exact closed.trans (note_steps _ _ _ _)

theorem closeRedirects_steps (w : World) : Steps moves w w.closeRedirects :=
  (w.closeRedirect_steps .err).trans (closeRedirect_steps _ .out)

end World

namespace Act

theorem closing_takes {α : Type} {act : Act α} (steps : Takes (World.Step moves) act) :
    Takes (World.Step moves) (closing act) := by
  intro w
  have before := steps w
  unfold closing
  cases ran : act w with
  | ok a after =>
    rw [ran] at before
    exact before.trans after.closeRedirects_steps
  | error fault after =>
    rw [ran] at before
    exact before.trans after.closeRedirects_steps

theorem openRedirect_takes (c : Channel) (r : Option Redirect) :
    Takes (World.Step moves) (openRedirect c r) := by
  unfold openRedirect
  cases r with
  | none => exact .pure none
  | some r =>
    dsimp only
    split
    · exact .pure _
    · intro w
      have edits :=
        w.files.openTarget_edits w.here (Path.resolve w.session.cwd r.path) r.append
      simp only [bind_apply, get_apply, set_apply]
      generalize
        w.files.openTarget w.here (Path.resolve w.session.cwd r.path) r.append = opened at edits ⊢
      obtain ⟨files, outcome⟩ := opened
      have edited : World.Steps moves w { w with files } := World.edited_steps edits
      cases outcome with
      | ok node => exact edited.tail (.redirected _ _)
      | error fault =>
        cases fault with
        | refused e => exact edited
        | _ => exact edited

theorem openRedirects_takes (command : Command) :
    Takes (World.Step moves) (openRedirects command) := by
  apply Takes.bind (openRedirect_takes .err command.stderr)
  intro refusal
  cases refusal with
  | some refusal => exact .pure _
  | none => exact openRedirect_takes .out command.stdout

end Act

end LineShell
