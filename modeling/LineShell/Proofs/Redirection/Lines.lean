import LineShell.Execution
import LineShell.Proofs.FileSystem.Development
import LineShell.Proofs.OpenFile
import LineShell.Proofs.Output

/-!
# A line on a stream that is in a file

A line that is printed and flushed while a file stands in for the stream comes to the end of that
file, or it vanishes if the file is the device that swallows everything. In both cases nothing
waits in a buffer afterwards, so closing the file writes no more (`OpenFile.TakesLine`).

Main statements: `writeLine_regular` and `writeLine_null` for the open file, and
`writeLine_closeRedirect` for a command that says one line.
-/

namespace LineShell

/-! ## Open files -/

namespace OpenFile

/-- Writes a line at once. -/
def writeLine (text : String) : FileAct Unit := do
  print (Utf8.encode text)
  print (Utf8.encode "\n")
  flush

/-- An open file takes a line: the tree is `after` then, and closing the file leaves it so. -/
def TakesLine (file : OpenFile) (files : FileSystem) (text : String) (after : FileSystem) : Prop :=
  ∃ file', writeLine text (file, files) = .ok () (file', after) ∧ file'.close after = (after, none)

/-- The line comes behind what waits in the buffers, which are empty then. -/
theorem writeLine_placed {fs : FileSystem} {node : NodeId} {append : Bool} {data : Bytes}
    {start : Nat} {state : OpenFile × FileSystem} (regular : (fs.contents? node).isSome)
    (placed : Placed fs node append data start state) (line : String) :
    ∃ after, writeLine line state = .ok () after ∧
      Placed fs node append
        (FileSystem.overlaid data start
          (state.1.block ++ state.1.text ++ Utf8.encode (line ++ "\n")))
        (start + (state.1.block ++ state.1.text ++ Utf8.encode (line ++ "\n")).length) after ∧
      after.1.block = [] ∧ after.1.text = [] := by
  obtain ⟨first, passed, ran, placed', kept⟩ := print_placed regular placed (Utf8.encode line)
  obtain ⟨second, passed', ran', placed'', kept'⟩ :=
    print_placed regular placed' (Utf8.encode "\n")
  obtain ⟨after, ran'', flushed, empty⟩ := flush_placed regular placed''.joined
  have all : passed ++ passed' ++ (second.1.block ++ second.1.text) =
      state.1.block ++ state.1.text ++ Utf8.encode (line ++ "\n") := by
    calc passed ++ passed' ++ (second.1.block ++ second.1.text)
      _ = passed ++ (passed' ++ second.1.block ++ second.1.text) := by simp
      _ = passed ++ first.1.block ++ first.1.text ++ Utf8.encode "\n" := by
        rw [kept']
        simp
      _ = state.1.block ++ state.1.text ++ Utf8.encode (line ++ "\n") := by
        rw [kept, Utf8.encode_append]
        simp
  have joined := flushed.joined
  rw [all] at joined
  exact ⟨after, by simp [writeLine, ran, ran', ran''], joined, empty⟩

theorem writeLine_regular {fs files : FileSystem} {node : NodeId} {append : Bool} {data : Bytes}
    {file : OpenFile} (regular : (fs.contents? node).isSome)
    (written : Written fs node append data (file, files))
    (block : file.block = []) (text : file.text = []) (line : String) :
    file.TakesLine files line (fs.withContents node (data ++ Utf8.encode (line ++ "\n"))) := by
  obtain ⟨⟨file', files'⟩, ran, placed, block', text'⟩ :=
    writeLine_placed regular written.placed line
  dsimp only at placed block' text'
  rw [block, text, List.nil_append, List.nil_append] at placed
  have written' := placed.written
  have closed := close_eq regular written'
  rw [block', text', List.append_nil, List.append_nil] at closed
  obtain rfl := written'.files
  exact ⟨file', ran, closed⟩

/-! ## The device that swallows everything -/

section
variable {fs : FileSystem} {node : NodeId} (null : fs.node? node = some (.device .null))

/-- What an action writes to the file `node` vanishes. -/
def Vanishes (fs : FileSystem) (node : NodeId) (act : FileAct Unit) : Prop :=
  ∀ file : OpenFile, file.node = node →
    ∃ file', act (file, fs) = .ok () (file', fs) ∧ file'.node = node

theorem Vanishes.bind {act : FileAct Unit} {next : Unit → FileAct Unit}
    (first : Vanishes fs node act) (rest : ∀ value, Vanishes fs node (next value)) :
    Vanishes fs node (act >>= next) := by
  intro file same
  obtain ⟨file', ran, same'⟩ := first file same
  obtain ⟨file'', ran', same''⟩ := rest () file' same'
  exact ⟨file'', by rw [Act.bind_apply, ran]; exact ran', same''⟩

/-- What is done may depend on what is in the buffers. -/
theorem Vanishes.get_bind {next : OpenFile × FileSystem → FileAct Unit}
    (rest : ∀ state, Vanishes fs node (next state)) : Vanishes fs node (get >>= next) :=
  fun file same => rest (file, fs) file same

theorem buffer_vanishes (text block : OpenFile → Bytes) : Vanishes fs node
    (modify fun (file, files) => ({ file with text := text file, block := block file }, files)) :=
  fun file same => ⟨{ file with text := text file, block := block file }, rfl, same⟩

include null

theorem write_vanishes (bytes : Bytes) : Vanishes fs node (write bytes) := by
  rintro file rfl
  exact ⟨file, by simp [write, FileSystem.writeTo, null], rfl⟩

theorem flushBlock_vanishes : Vanishes fs node flushBlock := by
  apply Vanishes.get_bind
  intro state
  apply (write_vanishes null state.1.block).bind
  intro _
  exact buffer_vanishes (·.text) fun _ => []

theorem writeBytes_vanishes (bytes : Bytes) : Vanishes fs node (writeBytes bytes) := by
  have gathers : Vanishes fs node (gather bytes) := buffer_vanishes (·.text) (·.block ++ bytes)
  apply Vanishes.get_bind
  intro state
  split
  · exact gathers
  · apply (flushBlock_vanishes null).bind
    intro _
    split
    · exact gathers
    · exact write_vanishes null bytes

theorem flushText_vanishes : Vanishes fs node flushText := by
  apply Vanishes.get_bind
  intro state
  apply (buffer_vanishes (fun _ => []) (·.block)).bind
  intro _
  exact writeBytes_vanishes null state.1.text

theorem print_vanishes (bytes : Bytes) : Vanishes fs node (print bytes) := by
  have passes : ∀ p : OpenFile × FileSystem → Prop, [DecidablePred p] →
      Vanishes fs node (do if p (← get) then flushText else pure ()) := by
    intro p _
    apply Vanishes.get_bind
    intro state
    split
    · exact flushText_vanishes null
    · exact fun file same => ⟨file, rfl, same⟩
  apply (passes fun state => textSize < state.1.text.length + bytes.length).bind
  intro _
  apply (buffer_vanishes (·.text ++ bytes) (·.block)).bind
  intro _
  exact passes fun state => textSize ≤ state.1.text.length

theorem flush_vanishes : Vanishes fs node flush :=
  (flushText_vanishes null).bind fun _ => flushBlock_vanishes null

theorem writeLine_vanishes (line : String) : Vanishes fs node (writeLine line) :=
  (print_vanishes null _).bind fun _ => (print_vanishes null _).bind fun _ => flush_vanishes null

theorem close_null {file : OpenFile} (same : file.node = node) : file.close fs = (fs, none) := by
  obtain ⟨file', flushed, _⟩ := flush_vanishes null file same
  simp [close, flushed]

theorem writeLine_null {file : OpenFile} (same : file.node = node) (line : String) :
    file.TakesLine fs line fs := by
  obtain ⟨file', ran, same'⟩ := writeLine_vanishes null line file same
  exact ⟨file', ran, close_null null same'⟩

end

end OpenFile

/-! ## Streams -/

namespace Act

variable {w : World} {c : Channel} {file : OpenFile} {files : FileSystem} {text : String}

/-- Two actions on the file of a stream are one. -/
theorem onFile_bind {act : Act Unit} {next : Unit → Act Unit} {first second : FileAct Unit}
    (begins : act w = onFile c file first w)
    (goes : ∀ v file', v.redirects.get c = some file' → next () v = onFile c file' second v) :
    (act >>= next) w = onFile c file (first >>= fun _ => second) w := by
  rw [bind_apply, begins]
  simp only [onFile, bind_apply]
  cases ran : first (file, w.files) with
  | error e after => rfl
  | ok _ after =>
    dsimp only
    rw [goes _ after.1 (by simp), onFile]
    dsimp only
    cases second (after.1, after.2) <;> simp only [Both.set_set]

theorem print_onFile (stands : w.redirects.get c = some file) (text : String) :
    print c text w = onFile c file (OpenFile.print (Utf8.encode text)) w := by
  simp [print, stands]

theorem flush_onFile (stands : w.redirects.get c = some file) :
    flush c w = onFile c file OpenFile.flush w := by
  simp [flush, stands]

theorem writeLine_onFile (stands : w.redirects.get c = some file) (text : String) :
    (do printLine c text; flush c) w = onFile c file (OpenFile.writeLine text) w := by
  have parts : (do printLine c text; flush c) =
      (do print c text; do print c "\n"; flush c : Act Unit) := by
    simp [printLine]
  rw [parts]
  apply onFile_bind (print_onFile stands text)
  intro v file' stands'
  apply onFile_bind (print_onFile stands' "\n")
  intro v file' stands'
  exact flush_onFile stands'

/-- What a command that says one line leaves behind once its files are closed. -/
theorem writeLine_closeRedirect (stands : w.redirects.get c = some file)
    (takes : file.TakesLine w.files text files) : ∃ v,
    (do printLine c text; flush c) w = .ok () v ∧ v.closeRedirect c =
      { w with files, redirects := w.redirects.set c none } ∧
    ∃ file', v = { w with files, redirects := w.redirects.set c (some file') } := by
  obtain ⟨file', ran, closed⟩ := takes
  refine ⟨{ w with files, redirects := w.redirects.set c (some file') }, ?_, ?_, file', rfl⟩
  · rw [writeLine_onFile stands, onFile, ran]
  · simp [World.closeRedirect, closed, Both.set_set]

/-- Off a terminal an error reads as it is. -/
theorem report_onFile (stands : w.redirects.get .err = some file) (message : String) :
    report message w = (do printLine .err message; flush .err) w := by
  have text : Highlight.highlight message "RED" (showsOnTerminal w .err) w.console.colors =
      message := by
    simp [Highlight.highlight, showsOnTerminal, stands]
  simp only [report, bind_apply, get_apply, text]

end Act

end LineShell
