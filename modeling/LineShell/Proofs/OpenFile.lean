import LineShell.Proofs.FileSystem.Contents
import LineShell.Proofs.FileSystem.Overlay
import LineShell.Proofs.World

/-!
# Writing to an open file

Whatever the portions are in which an open file passes its bytes on, what was written to it is
at every moment in the file, then in the block, then in the text that was gathered.
`OpenFile.Placed` says what is in the file itself and where the next bytes go: it is carried
through each step, and on a regular file no step is refused. A file that is written to at its end
only is the special case `OpenFile.Written`.

Main statements: `print_placed`, `flush_placed`, `printBytes_placed` and `close_placed`, and for
files that are written to at their end `print_written`, `flush_written`, `printBytes_written` and
`close_eq`.
-/

namespace LineShell.OpenFile

open FileSystem (overlaid overlaid_overlaid overlaid_length overlaid_nil)

/-- An open file and a tree that differs from `fs` in that the file `node` holds `data`; the
next write puts its bytes at `start`. -/
structure Placed (fs : FileSystem) (node : NodeId) (append : Bool) (data : Bytes) (start : Nat)
    (state : OpenFile × FileSystem) : Prop where
  same : state.1.node = node
  mode : state.1.append = append
  files : state.2 = fs.withContents node data
  place : (if append then data.length else state.1.offset) = start

variable {fs : FileSystem} {node : NodeId} {append : Bool} {data : Bytes} {start : Nat}
  {state : OpenFile × FileSystem}

/-- What is in the buffers makes no difference to it. -/
theorem Placed.buffers (placed : Placed fs node append data start state) (text block : Bytes) :
    Placed fs node append data start ({ state.1 with text, block }, state.2) :=
  ⟨placed.same, placed.mode, placed.files, placed.place⟩

/-- Two writes one after the other are one. -/
theorem Placed.joined {bytes more : Bytes}
    (placed : Placed fs node append (overlaid (overlaid data start bytes) (start + bytes.length) more)
      (start + bytes.length + more.length) state) :
    Placed fs node append (overlaid data start (bytes ++ more)) (start + (bytes ++ more).length)
      state := by
  rwa [overlaid_overlaid, Nat.add_assoc, ← List.length_append] at placed

section
variable (regular : (fs.contents? node).isSome)
include regular

/-! ## Portions -/

theorem write_placed (placed : Placed fs node append data start state) (bytes : Bytes) :
    ∃ after, write bytes state = .ok () after ∧
      Placed fs node append (overlaid data start bytes) (start + bytes.length) after ∧
      after.1.block = state.1.block ∧ after.1.text = state.1.text := by
  obtain ⟨file, files⟩ := state
  obtain ⟨same, mode, changed, place⟩ := placed
  dsimp only at same mode changed place
  subst same changed mode
  have holds := FileSystem.contents?_withContents regular data
  obtain ⟨access, program, found⟩ := FileSystem.contents?_eq_some_iff.1 holds
  simp only [write, FileSystem.writeTo, found]
  by_cases empty : bytes = []
  · -- writing nothing does not even change the tree
    subst empty
    simp only [if_true, overlaid_nil]
    exact ⟨_, rfl, ⟨rfl, rfl, rfl, place⟩, rfl, rfl⟩
  · have here : (if file.append = true then data.toArray.size else file.offset) = start := place
    have grown : FileSystem.overlay data.toArray start bytes =
        (overlaid data start bytes).toArray := by
      simp [overlaid, empty]
    simp only [if_neg empty, here]
    rw [grown, ← FileSystem.withContents_eq found, FileSystem.withContents_withContents]
    refine ⟨_, rfl, ⟨rfl, rfl, rfl, ?_⟩, rfl, rfl⟩
    dsimp only
    split
    case isTrue appends =>
      rw [if_pos appends] at place
      rw [← place, overlaid_length, List.length_append]
    case isFalse => rfl

theorem flushBlock_placed (placed : Placed fs node append data start state) :
    ∃ after, flushBlock state = .ok () after ∧
      Placed fs node append (overlaid data start state.1.block)
        (start + state.1.block.length) after ∧
      after.1.block = [] ∧ after.1.text = state.1.text := by
  obtain ⟨after, ran, placed', _, text⟩ := write_placed regular placed state.1.block
  refine ⟨({ after.1 with block := [] }, after.2), ?_, placed'.buffers _ _, rfl, text⟩
  simp [flushBlock, ran]

/-- Bytes that are passed on come behind the block, wherever they end up. -/
theorem writeBytes_placed (placed : Placed fs node append data start state) (bytes : Bytes) :
    ∃ after passed, writeBytes bytes state = .ok () after ∧
      Placed fs node append (overlaid data start passed) (start + passed.length) after ∧
      passed ++ after.1.block = state.1.block ++ bytes ∧ after.1.text = state.1.text := by
  -- the block takes the bytes, or it is written first; a long run of bytes passes it by
  by_cases fits : state.1.block.length + bytes.length ≤ blockSize
  · refine ⟨({ state.1 with block := state.1.block ++ bytes }, state.2), [], ?_, ?_, rfl, rfl⟩
    · simp [writeBytes, fits, gather]
    · rw [overlaid_nil]
      exact placed.buffers _ _
  · obtain ⟨flushed, ran, placed', block, text⟩ := flushBlock_placed regular placed
    by_cases small : bytes.length ≤ blockSize
    · refine ⟨({ flushed.1 with block := flushed.1.block ++ bytes }, flushed.2), _, ?_,
        placed'.buffers _ _, by simp [block], text⟩
      simp [writeBytes, fits, ran, small, gather]
    · obtain ⟨after, ran', placed'', block', text'⟩ := write_placed regular placed' bytes
      refine ⟨after, _, ?_, placed''.joined, by simp [block', block], text'.trans text⟩
      simp [writeBytes, fits, ran, small, ran']

theorem flushText_placed (placed : Placed fs node append data start state) :
    ∃ after passed, flushText state = .ok () after ∧
      Placed fs node append (overlaid data start passed) (start + passed.length) after ∧
      passed ++ after.1.block = state.1.block ++ state.1.text ∧ after.1.text = [] := by
  obtain ⟨after, passed, ran, placed', kept, text⟩ :=
    writeBytes_placed regular (placed.buffers [] state.1.block) state.1.text
  exact ⟨after, passed, by simp [flushText, ran], placed', kept, text⟩

/-! ## What the shell does with an open file -/

theorem makeRoom_placed (placed : Placed fs node append data start state) (more : Nat) :
    ∃ after passed, makeRoom more state = .ok () after ∧
      Placed fs node append (overlaid data start passed) (start + passed.length) after ∧
      passed ++ after.1.block ++ after.1.text = state.1.block ++ state.1.text := by
  by_cases full : textSize < state.1.text.length + more
  · obtain ⟨after, passed, ran, placed', kept, text⟩ := flushText_placed regular placed
    exact ⟨after, passed, by simp [makeRoom, full, ran], placed', by simp [kept, text]⟩
  · exact ⟨state, [], by simp [makeRoom, full], by simpa using placed, rfl⟩

theorem passPortion_placed (placed : Placed fs node append data start state) :
    ∃ after passed, passPortion state = .ok () after ∧
      Placed fs node append (overlaid data start passed) (start + passed.length) after ∧
      passed ++ after.1.block ++ after.1.text = state.1.block ++ state.1.text := by
  by_cases full : textSize ≤ state.1.text.length
  · obtain ⟨after, passed, ran, placed', kept, text⟩ := flushText_placed regular placed
    exact ⟨after, passed, by simp [passPortion, full, ran], placed', by simp [kept, text]⟩
  · exact ⟨state, [], by simp [passPortion, full], by simpa using placed, rfl⟩

theorem print_placed (placed : Placed fs node append data start state) (bytes : Bytes) :
    ∃ after passed, print bytes state = .ok () after ∧
      Placed fs node append (overlaid data start passed) (start + passed.length) after ∧
      passed ++ after.1.block ++ after.1.text = state.1.block ++ state.1.text ++ bytes := by
  obtain ⟨roomy, passed, ran, placed', kept⟩ := makeRoom_placed regular placed bytes.length
  obtain ⟨after, passed', ran', placed'', kept'⟩ :=
    passPortion_placed regular (placed'.buffers (roomy.1.text ++ bytes) roomy.1.block)
  refine ⟨after, _, by simp [print, ran, ran'], placed''.joined, ?_⟩
  rw [← kept, List.append_assoc passed, List.append_assoc passed, kept']
  simp

theorem flush_placed (placed : Placed fs node append data start state) :
    ∃ after, flush state = .ok () after ∧
      Placed fs node append (overlaid data start (state.1.block ++ state.1.text))
        (start + (state.1.block ++ state.1.text).length) after ∧
      after.1.block = [] ∧ after.1.text = [] := by
  obtain ⟨passing, passed, ran, placed', kept, text⟩ := flushText_placed regular placed
  obtain ⟨after, ran', placed'', block, text'⟩ := flushBlock_placed regular placed'
  have joined := placed''.joined
  rw [kept] at joined
  exact ⟨after, by simp [flush, ran, ran'], joined, block, text'.trans text⟩

theorem printBytes_placed (placed : Placed fs node append data start state) (bytes : Bytes) :
    ∃ after, printBytes bytes state = .ok () after ∧
      Placed fs node append (overlaid data start (state.1.block ++ state.1.text ++ bytes))
        (start + (state.1.block ++ state.1.text ++ bytes).length) after ∧
      after.1.block = [] ∧ after.1.text = [] := by
  obtain ⟨flushed, ran, placed', block, text⟩ := flush_placed regular placed
  obtain ⟨passing, passed, ran', placed'', kept, text'⟩ := writeBytes_placed regular placed' bytes
  obtain ⟨after, ran'', placed''', block', text''⟩ := flushBlock_placed regular placed''
  have joined := placed'''.joined
  rw [kept, block, List.nil_append] at joined
  exact ⟨after, by simp [printBytes, ran, ran', ran''], joined.joined, block',
    text''.trans (text'.trans text)⟩

/-- Closing writes what is still in the buffers, and nothing is lost. -/
theorem close_placed {file : OpenFile} {files : FileSystem}
    (placed : Placed fs node append data start (file, files)) :
    close file files =
      (fs.withContents node (overlaid data start (file.block ++ file.text)), none) := by
  obtain ⟨after, ran, placed', _⟩ := flush_placed regular placed
  obtain ⟨last, files'⟩ := after
  simp only [close, ran]
  exact congrArg (·, none) placed'.files

end

/-! ## At the end of a file -/

/-- An open file and a tree that differs from `fs` in that the file `node` holds `data`; the
next write puts its bytes behind them. -/
structure Written (fs : FileSystem) (node : NodeId) (append : Bool) (data : Bytes)
    (state : OpenFile × FileSystem) : Prop where
  same : state.1.node = node
  mode : state.1.append = append
  files : state.2 = fs.withContents node data
  atEnd : state.1.append = true ∨ state.1.offset = data.length

theorem Written.placed (written : Written fs node append data state) :
    Placed fs node append data data.length state := by
  obtain ⟨same, mode, files, atEnd⟩ := written
  refine ⟨same, mode, files, ?_⟩
  rw [mode] at atEnd
  cases append with
  | true => rfl
  | false => exact atEnd.resolve_left (by simp)

/-- After a write at the end the next one is at the end, too. -/
theorem Placed.written {bytes : Bytes}
    (placed : Placed fs node append (overlaid data data.length bytes) (data.length + bytes.length)
      state) : Written fs node append (data ++ bytes) state := by
  obtain ⟨same, mode, files, place⟩ := placed
  rw [overlaid_length] at files place
  refine ⟨same, mode, files, ?_⟩
  rw [mode]
  cases append with
  | true => exact .inl rfl
  | false => exact .inr (place.trans (List.length_append).symm)

variable (regular : (fs.contents? node).isSome)
include regular

theorem write_written (written : Written fs node append data state) (bytes : Bytes) :
    ∃ after, write bytes state = .ok () after ∧ Written fs node append (data ++ bytes) after ∧
      after.1.block = state.1.block ∧ after.1.text = state.1.text := by
  obtain ⟨after, ran, placed, buffers⟩ := write_placed regular written.placed bytes
  exact ⟨after, ran, placed.written, buffers⟩

theorem print_written (written : Written fs node append data state) (bytes : Bytes) :
    ∃ after passed, print bytes state = .ok () after ∧
      Written fs node append (data ++ passed) after ∧
      passed ++ after.1.block ++ after.1.text = state.1.block ++ state.1.text ++ bytes := by
  obtain ⟨after, passed, ran, placed, kept⟩ := print_placed regular written.placed bytes
  exact ⟨after, passed, ran, placed.written, kept⟩

theorem flush_written (written : Written fs node append data state) :
    ∃ after, flush state = .ok () after ∧
      Written fs node append (data ++ state.1.block ++ state.1.text) after ∧
      after.1.block = [] ∧ after.1.text = [] := by
  obtain ⟨after, ran, placed, empty⟩ := flush_placed regular written.placed
  have written' := placed.written
  rw [← List.append_assoc] at written'
  exact ⟨after, ran, written', empty⟩

theorem printBytes_written (written : Written fs node append data state) (bytes : Bytes) :
    ∃ after, printBytes bytes state = .ok () after ∧
      Written fs node append (data ++ state.1.block ++ state.1.text ++ bytes) after ∧
      after.1.block = [] ∧ after.1.text = [] := by
  obtain ⟨after, ran, placed, empty⟩ := printBytes_placed regular written.placed bytes
  have written' := placed.written
  rw [← List.append_assoc, ← List.append_assoc] at written'
  exact ⟨after, ran, written', empty⟩

theorem close_eq {file : OpenFile} {files : FileSystem}
    (written : Written fs node append data (file, files)) :
    close file files = (fs.withContents node (data ++ file.block ++ file.text), none) := by
  rw [close_placed regular written.placed, overlaid_length, List.append_assoc]

end LineShell.OpenFile
