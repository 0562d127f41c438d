import LineShell.Proofs.Execution.Frame
import LineShell.Proofs.Execution.Handles
import LineShell.Proofs.OpenFile
import LineShell.Proofs.Redirection.Children
import LineShell.Proofs.Redirection.Noted

/-!
# An account of what is said

What a command says on a stream is in the file of that stream when the command has ended, however
it has ended. `World.Works` follows a command from one thing that it does to the next one, with
what is said by it; `Account` tells what a file holds to which both streams may have written, each
at its own place.

Each thing that is done keeps the account (`Does.accounts`), and closing the files settles it
(`Works.settles`).
-/

namespace LineShell

open Act
open Relation (ReflTransGen)
open FileSystem (overlaid overlaid_nil overlaid_overlaid overlaid_length)

/-! ## Files that two streams write to -/

/-- What a file holds that held `base` when it was opened. Each stream has written bytes to it: at
its end, or behind what the stream has written before, where these bytes take the place of others.
If `changed` holds, the file may have been given other contents besides. -/
inductive Account (appends : Both Bool) (changed : Prop) (base : Bytes) : Both Bytes → Bytes → Prop
  | start : Account appends changed base ⟨[], []⟩ base
  | write {written : Both Bytes} {data : Bytes} (before : Account appends changed base written data)
      (c : Channel) (bytes : Bytes) :
      Account appends changed base (written.set c (written.get c ++ bytes))
        (overlaid data (if appends.get c then data.length else (written.get c).length) bytes)
  | change {written : Both Bytes} {data : Bytes} (before : Account appends changed base written data)
      (allowed : changed) (data' : Bytes) : Account appends changed base written data'

namespace Account

variable {appends : Both Bool} {changed changed' : Prop} {base data : Bytes} {written : Both Bytes}

theorem mono (account : Account appends changed base written data) (weaker : changed → changed') :
    Account appends changed' base written data := by
  induction account with
  | start => exact .start
  | write _ c bytes ih => exact .write ih c bytes
  | change _ allowed data' ih => exact .change ih (weaker allowed) data'

/-- A single stream puts all its bytes one behind the other. -/
theorem sole (account : Account appends changed base written data) (still : ¬ changed) {c : Channel}
    (alone : ∀ d, d ≠ c → written.get d = []) :
    data = overlaid base (if appends.get c then base.length else 0) (written.get c) := by
  induction account with
  | start => cases c <;> simp [Both.get]
  | @write written data before d bytes ih =>
    by_cases same : d = c
    · subst same
      have others : ∀ e, e ≠ d → written.get e = [] := fun e different => by
        simpa [different] using alone e different
      have data_eq := ih others
      rw [Both.get_set_self, ← overlaid_overlaid, ← data_eq]
      congr 1
      split
      case isTrue appends =>
        rw [if_pos appends, overlaid_length] at data_eq
        rw [data_eq, List.length_append]
      case isFalse => rw [Nat.zero_add]
    · have nothing := alone d same
      rw [Both.get_set_self, List.append_eq_nil_iff] at nothing
      obtain ⟨none, rfl⟩ := nothing
      have others : ∀ e, e ≠ c → written.get e = [] := fun e different => by
        by_cases again : e = d
        · rw [again, none]
        · simpa [again] using alone e different
      rw [overlaid_nil, Both.get_set_of_ne _ _ (Ne.symm same)]
      exact ih others
  | change _ allowed => exact absurd allowed still

/-- Two streams that write at the end lose nothing. -/
theorem pooled (account : Account appends changed base written data) (still : ¬ changed)
    (ends : ∀ c, appends.get c = true) :
    ∃ mixed, Merges written.out written.err mixed ∧ data = base ++ mixed := by
  induction account with
  | start => exact ⟨[], .nil, (List.append_nil base).symm⟩
  | write _ c bytes ih =>
    obtain ⟨mixed, merges, rfl⟩ := ih
    refine ⟨mixed ++ bytes, merges.extend c bytes, ?_⟩
    rw [if_pos (ends c), overlaid_length, List.append_assoc]
  | change _ allowed => exact absurd allowed still

end Account

/-! ## What a command does -/

/-- What is to be told of something that a command does: it says bytes on a stream, or a child
changes the tree. -/
inductive Deed
  | said (c : Channel) (bytes : Bytes)
  | edited (before after : FileSystem)

namespace Deed

/-- What is said on a stream. -/
def on (c : Channel) : Deed → Bytes
  | .said d bytes => if d = c then bytes else []
  | .edited .. => []

/-- A child gives other contents to the file. -/
def Changes (id : NodeId) : Deed → Prop
  | .said .. => False
  | .edited before after => after.contents? id ≠ before.contents? id

/-- It is not a child that changes the tree. -/
def IsSaid : Deed → Prop
  | .said .. => True
  | .edited .. => False

/-- All that is said on a stream. -/
def saidOn (c : Channel) (deeds : List Deed) : Bytes :=
  deeds.flatMap (on c)

@[simp] theorem saidOn_nil (c : Channel) : saidOn c [] = [] := rfl

@[simp] theorem saidOn_append (c : Channel) (deeds more : List Deed) :
    saidOn c (deeds ++ more) = saidOn c deeds ++ saidOn c more := by
  simp [saidOn]

theorem saidOn_said (c d : Channel) (bytes : Bytes) :
    saidOn d [.said c bytes] = if c = d then bytes else [] := by
  simp [saidOn, on]

end Deed

namespace World

/-- One thing that is done while a command does its work, and what is to be told of it. A child
writes past the buffers, which are empty by then. -/
inductive Does : World → List Deed → World → Prop
  | prints (w : World) (c : Channel) (text : String) :
      Does w [.said c (Utf8.encode text)] (state (print c text w))
  | passes (w : World) (c : Channel) (bytes : Bytes) :
      Does w [.said c bytes] (state (printBytes c bytes w))
  | flushes (w : World) (c : Channel) : Does w [] (state (flush c w))
  | childWrites {w : World} (settled : w.JustOpened) (c : Channel) (bytes : Bytes) :
      Does w [.said c bytes] (w.receive c bytes)
  | childEdits {w : World} {files : FileSystem} (edit : w.files.Edit files) :
      Does w [.edited w.files files] { w with files }
  | other {w v : World} (files : v.files = w.files) (redirects : v.redirects = w.redirects) :
      Does w [] v

/-- The things that a command does, one after the other. -/
inductive Works (w : World) : List Deed → World → Prop
  | nothing : Works w [] w
  | more {v u : World} {deeds next : List Deed} (works : Works w deeds v) (does : Does v next u) :
      Works w (deeds ++ next) u

theorem Works.trans {w v u : World} {deeds later : List Deed} (first : w.Works deeds v)
    (second : v.Works later u) : w.Works (deeds ++ later) u := by
  induction second with
  | nothing => simpa using first
  | more _ does ih =>
    rw [← List.append_assoc]
    exact ih.more does

/-! ## The account of a file -/

/-- Whether a stream is in the file. -/
def isIn (w : World) (id : NodeId) (c : Channel) : Bool :=
  match w.redirects.get c with
  | some file => file.node = id
  | none => false

/-- Which of the streams write at the end of their files. -/
def appending (w : World) : Both Bool :=
  ⟨(w.redirects.get .out).any (·.append), (w.redirects.get .err).any (·.append)⟩

theorem appending_get {w : World} {c : Channel} {file : OpenFile}
    (stands : w.redirects.get c = some file) : w.appending.get c = file.append := by
  cases c <;> simp [appending, Both.get] at stands ⊢ <;> simp [stands]

end World

/-- What a stream has said, what of it was written to the file `id`, and the open file that stands
in for the stream: the rest is in its buffers. Nothing is written by a stream that is not in that
file, and nothing is left to be written once the open file is closed. -/
inductive InFile (id : NodeId) (append : Bool) :
    (isOpen isIn : Bool) → (said written : Bytes) → Option OpenFile → Prop
  | apart {isOpen : Bool} {said : Bytes} {handle : Option OpenFile}
      (other : ∀ file, handle = some file → file.node ≠ id) :
      InFile id append isOpen false said [] handle
  | stands {said written : Bytes} {file : OpenFile} (node : file.node = id)
      (mode : file.append = append) (place : append = false → file.offset = written.length)
      (kept : written ++ file.block ++ file.text = said) :
      InFile id append true true said written (some file)
  | closed {said : Bytes} : InFile id append false true said said none

namespace InFile

variable {id : NodeId} {append isOpen isIn : Bool} {said written : Bytes} {file : OpenFile}

theorem of_some (stream : InFile id append isOpen isIn said written (some file)) :
    (isIn = false ∧ written = [] ∧ file.node ≠ id) ∨
      (isIn = true ∧ isOpen = true ∧ file.node = id ∧ file.append = append ∧
        (append = false → file.offset = written.length) ∧
        written ++ file.block ++ file.text = said) := by
  cases stream with
  | apart other => exact .inl ⟨rfl, rfl, other file rfl⟩
  | stands node mode place kept => exact .inr ⟨rfl, rfl, node, mode, place, kept⟩

theorem of_none (stream : InFile id append true isIn said written none) :
    isIn = false ∧ written = [] := by
  cases stream with
  | apart other => exact ⟨rfl, rfl⟩

theorem of_closed {handle : Option OpenFile}
    (stream : InFile id append false isIn said written handle) :
    written = if isIn then said else [] := by
  cases stream <;> rfl

end InFile

namespace World

/-- The account of the file `id` since its streams were opened in the world `opened`. -/
structure Accounts (opened : World) (id : NodeId) (base : Bytes) (deeds : List Deed)
    (isOpen : Channel → Bool) (written : Both Bytes) (data : Bytes) (v : World) : Prop where
  account : Account opened.appending (∃ deed ∈ deeds, deed.Changes id) base written data
  holds : v.files.contents? id = some data
  streams : ∀ c, InFile id (opened.appending.get c) (isOpen c) (opened.isIn id c)
    (Deed.saidOn c deeds) (written.get c) (v.redirects.get c)

variable {opened v u : World} {id : NodeId} {base data : Bytes} {deeds more : List Deed}
  {isOpen : Channel → Bool} {written : Both Bytes} {c : Channel}

theorem state_onFile (c : Channel) (file : OpenFile) (act : FileAct Unit) (v : World) :
    state (onFile c file act v) =
      { v with
        files := (state (act (file, v.files))).2
        redirects := v.redirects.set c (some (state (act (file, v.files))).1) } := by
  unfold onFile
  cases act (file, v.files) <;> rfl

namespace Accounts

theorem account_append (accounts : Accounts opened id base deeds isOpen written data v)
    (more : List Deed) :
    Account opened.appending (∃ deed ∈ deeds ++ more, deed.Changes id) base written data :=
  accounts.account.mono fun ⟨deed, listed, changes⟩ =>
    ⟨deed, List.mem_append_left more listed, changes⟩

/-- A stream says something that does not come to the file. -/
theorem elsewhere {bytes : Bytes} {after : World}
    (accounts : Accounts opened id base deeds isOpen written data v)
    (tells : ∀ d, Deed.saidOn d more = if c = d then bytes else [])
    (apart : opened.isIn id c = false) (nothing : written.get c = [])
    (holds : after.files.contents? id = v.files.contents? id)
    (handle : ∀ file, after.redirects.get c = some file → file.node ≠ id)
    (others : ∀ d, d ≠ c → after.redirects.get d = v.redirects.get d) :
    Accounts opened id base (deeds ++ more) isOpen written data after where
  account := accounts.account_append more
  holds := holds.trans accounts.holds
  streams d := by
    by_cases same : d = c
    · subst same
      rw [apart, nothing]
      exact .apart handle
    · have stream := accounts.streams d
      rw [others d same, Deed.saidOn_append, tells, if_neg (Ne.symm same), List.append_nil]
      exact stream

/-- The place at which a stream writes next. -/
def placeOf (appends : Both Bool) (written : Both Bytes) (data : Bytes) (c : Channel) : Nat :=
  if appends.get c then data.length else (written.get c).length

theorem placed {file : OpenFile} (accounts : Accounts opened id base deeds isOpen written data v)
    (stands : v.redirects.get c = some file) (isIn : file.node = id) :
    OpenFile.Placed v.files id (opened.appending.get c) data
      (placeOf opened.appending written data c) (file, v.files) := by
  have stream := accounts.streams c
  rw [stands] at stream
  rcases stream.of_some with ⟨_, _, apart⟩ | ⟨_, _, node, mode, place, _⟩
  · exact absurd isIn apart
  · refine ⟨node, mode, (FileSystem.withContents_self accounts.holds).symm, ?_⟩
    unfold placeOf
    split
    case isTrue => rfl
    case isFalse truncates => exact place (by simpa using truncates)

/-- A stream says something that comes to the file, or waits in the buffers. -/
theorem write {file file' : OpenFile} {files : FileSystem} {passed bytes : Bytes}
    (accounts : Accounts opened id base deeds isOpen written data v)
    (stands : v.redirects.get c = some file) (isIn : file.node = id)
    (tells : ∀ d, Deed.saidOn d more = if c = d then bytes else [])
    (placed : OpenFile.Placed v.files id (opened.appending.get c)
      (overlaid data (placeOf opened.appending written data c) passed)
      (placeOf opened.appending written data c + passed.length) (file', files))
    (kept : passed ++ file'.block ++ file'.text = file.block ++ file.text ++ bytes) :
    Accounts opened id base (deeds ++ more) isOpen (written.set c (written.get c ++ passed))
      (overlaid data (placeOf opened.appending written data c) passed)
      { v with files, redirects := v.redirects.set c (some file') } where
  account := (accounts.account_append more).write c passed
  holds := by
    have regular : (v.files.contents? id).isSome := by simp [accounts.holds]
    have files_eq : files = _ := placed.files
    rw [files_eq]
    exact FileSystem.contents?_withContents regular _
  streams d := by
    have stream := accounts.streams d
    by_cases same : d = c
    · subst same
      rw [stands] at stream
      simp only [Both.get_set_self, Deed.saidOn_append, tells, if_true]
      rcases stream.of_some with ⟨_, _, apart⟩ | ⟨here, isOpen, _, _, _, said⟩
      · exact absurd isIn apart
      · rw [here, isOpen]
        refine .stands placed.same placed.mode (fun truncates => ?_) ?_
        · have place := placed.place
          simp only [placeOf, truncates, Bool.false_eq_true, if_false] at place
          rw [place, List.length_append]
        · have passed' := congrArg (written.get d ++ ·) kept
          simp only [← List.append_assoc, said] at passed' ⊢
          exact passed'
    · simp only [ne_eq, same, not_false_eq_true, Both.get_set_of_ne, Deed.saidOn_append, tells,
        if_neg (Ne.symm same), List.append_nil]
      exact stream

end Accounts

/-- There is an account of the file as long as its streams are open. -/
def IsAccounted (opened : World) (id : NodeId) (base : Bytes) (deeds : List Deed) (v : World) :
    Prop :=
  ∃ written data, Accounts opened id base deeds (fun _ => true) written data v

/-- What is done with an open file changes the contents of no other one. -/
theorem contents?_of_steps {s t : OpenFile × FileSystem} (steps : ReflTransGen OpenFile.Step s t)
    (apart : s.1.node ≠ id) : t.1.node ≠ id ∧ t.2.contents? id = s.2.contents? id := by
  obtain ⟨same, develops⟩ : _ ∧ s.2.Develops 0 (fun _ => False) _ t.2 :=
    OpenFile.Step.develops steps
  exact ⟨same ▸ apart, develops.contents?_eq (Ne.symm apart)⟩

/-- Something is said on a stream that is in a file. -/
theorem IsAccounted.onFile {file : OpenFile} {act : FileAct Unit} {bytes : Bytes}
    (accounted : IsAccounted opened id base deeds v) (stands : v.redirects.get c = some file)
    (tells : ∀ d, Deed.saidOn d more = if c = d then bytes else [])
    (takes : Takes OpenFile.Step act)
    (delivers : ∀ {append data start}, (v.files.contents? id).isSome →
      OpenFile.Placed v.files id append data start (file, v.files) →
      ∃ after passed, act (file, v.files) = .ok () after ∧
        OpenFile.Placed v.files id append (overlaid data start passed) (start + passed.length)
          after ∧
        passed ++ after.1.block ++ after.1.text = file.block ++ file.text ++ bytes) :
    IsAccounted opened id base (deeds ++ more) (state (Act.onFile c file act v)) := by
  obtain ⟨written, data, accounts⟩ := accounted
  rw [state_onFile]
  by_cases isIn : file.node = id
  · have regular : (v.files.contents? id).isSome := by simp [accounts.holds]
    obtain ⟨after, passed, ran, placed, kept⟩ := delivers regular (accounts.placed stands isIn)
    rw [ran]
    exact ⟨_, _, accounts.write stands isIn tells placed kept⟩
  · obtain ⟨apart, contents⟩ := contents?_of_steps (takes (file, v.files)) isIn
    have stream := accounts.streams c
    rw [stands] at stream
    rcases stream.of_some with ⟨notIn, nothing, _⟩ | ⟨_, _, node, _⟩
    · refine ⟨_, _, accounts.elsewhere tells notIn nothing contents (fun other opened => ?_)
        fun d different => by simp [different]⟩
      simp only [Both.get_set_self, Option.some.injEq] at opened
      exact opened ▸ apart
    · exact absurd node isIn

/-- Something is said on a stream for which no file stands in. -/
theorem IsAccounted.onTerminal {bytes : Bytes} (accounted : IsAccounted opened id base deeds v)
    (free : v.redirects.get c = none)
    (tells : ∀ d, Deed.saidOn d more = if c = d then bytes else [])
    (files : u.files = v.files) (redirects : u.redirects = v.redirects) :
    IsAccounted opened id base (deeds ++ more) u := by
  obtain ⟨written, data, accounts⟩ := accounted
  have stream := accounts.streams c
  rw [free] at stream
  obtain ⟨notIn, nothing⟩ := stream.of_none
  refine ⟨_, _, accounts.elsewhere tells notIn nothing (congrArg (·.contents? id) files)
    (fun other opened => ?_) fun d _ => congrArg (·.get d) redirects⟩
  rw [redirects, free] at opened
  cases opened

/-- What a child writes goes to the file of the stream at once. -/
theorem receive_eq_onFile {file : OpenFile} (stands : v.redirects.get c = some file)
    (bytes : Bytes) : v.receive c bytes = state (Act.onFile c file (OpenFile.write bytes) v) := by
  have same : v.redirects.set c (some file) = v.redirects := by
    rw [← stands]
    cases c <;> rfl
  unfold receive OpenFile.write Act.onFile
  simp only [stands]
  cases v.files.writeTo file.node file.append file.offset bytes with
  | ok result => rfl
  | error e => simp only [state, same]

theorem Does.accounts (does : Does v more u) (accounted : IsAccounted opened id base deeds v) :
    IsAccounted opened id base (deeds ++ more) u := by
  cases does with
  | prints c text =>
    have said := fun d => Deed.saidOn_said c d (Utf8.encode text)
    simp only [print, bind_apply, get_apply]
    cases stands : v.redirects.get c with
    | none => exact accounted.onTerminal stands said rfl rfl
    | some file =>
      exact accounted.onFile stands said (OpenFile.print_takes _)
        fun regular placed => OpenFile.print_placed regular placed _
  | passes c bytes =>
    have said := fun d => Deed.saidOn_said c d bytes
    simp only [printBytes, bind_apply, get_apply]
    cases stands : v.redirects.get c with
    | none => exact accounted.onTerminal stands said rfl rfl
    | some file =>
      refine accounted.onFile stands said (OpenFile.printBytes_takes bytes)
        fun regular placed => ?_
      obtain ⟨after, ran, placed', block, text⟩ :=
        OpenFile.printBytes_placed regular placed bytes
      exact ⟨after, _, ran, placed', by simp [block, text]⟩
  | flushes c =>
    have said : ∀ d, Deed.saidOn d [] = if c = d then [] else [] := by simp
    simp only [flush, bind_apply, get_apply]
    cases stands : v.redirects.get c with
    | none => exact accounted.onTerminal stands said rfl rfl
    | some file =>
      refine accounted.onFile stands said OpenFile.flush_takes fun regular placed => ?_
      obtain ⟨after, ran, placed', block, text⟩ := OpenFile.flush_placed regular placed
      exact ⟨after, _, ran, placed', by simp [block, text]⟩
  | childWrites settled c bytes =>
    have said := fun d => Deed.saidOn_said c d bytes
    cases stands : v.redirects.get c with
    | none =>
      unfold receive
      simp only [stands]
      split
      · exact accounted.onTerminal stands said rfl rfl
      · exact accounted.onTerminal stands said rfl rfl
    | some file =>
      rw [receive_eq_onFile stands]
      refine accounted.onFile stands said (OpenFile.write_takes bytes) fun regular placed => ?_
      obtain ⟨after, ran, placed', block, text⟩ := OpenFile.write_placed regular placed bytes
      obtain ⟨noBlock, noText⟩ := settled c file stands
      exact ⟨after, _, ran, placed', by simp [block, text, noBlock, noText]⟩
  | @childEdits files edit =>
    obtain ⟨written, data, accounts⟩ := accounted
    have regular : (files.contents? id).isSome := edit.isSome_contents? (by simp [accounts.holds])
    obtain ⟨data', holds⟩ := Option.isSome_iff_exists.1 regular
    have streams : ∀ d, InFile id (opened.appending.get d) true (opened.isIn id d)
        (Deed.saidOn d (deeds ++ [.edited v.files files])) (written.get d) (v.redirects.get d) := by
      intro d
      have nothing : Deed.saidOn d [.edited v.files files] = [] := rfl
      rw [Deed.saidOn_append, nothing, List.append_nil]
      exact accounts.streams d
    by_cases same : files.contents? id = v.files.contents? id
    · exact ⟨written, data, accounts.account_append _, same.trans accounts.holds, streams⟩
    · have changes : ∃ deed ∈ deeds ++ [.edited v.files files], deed.Changes id :=
        ⟨.edited v.files files, by simp, same⟩
      exact ⟨written, data', (accounts.account_append _).change changes data', holds, streams⟩
  | other files redirects =>
    obtain ⟨written, data, accounts⟩ := accounted
    rw [List.append_nil]
    refine ⟨written, data, accounts.account, ?_, fun d => ?_⟩
    · rw [files]
      exact accounts.holds
    · rw [redirects]
      exact accounts.streams d

/-- Files that have just been opened have an account in which nothing was said. -/
theorem OpensFresh.accounted (fresh : opened.OpensFresh)
    (holds : opened.files.contents? id = some base) : IsAccounted opened id base [] opened := by
  refine ⟨⟨[], []⟩, base, .start, holds, fun c => ?_⟩
  have nothing : (⟨[], []⟩ : Both Bytes).get c = [] := by cases c <;> rfl
  rw [nothing]
  cases stands : opened.redirects.get c with
  | none =>
    have notIn : opened.isIn id c = false := by simp [isIn, stands]
    rw [notIn]
    exact .apart (by simp)
  | some file =>
    obtain ⟨offset, block, text, _⟩ := fresh c file stands
    by_cases same : file.node = id
    · have here : opened.isIn id c = true := by simp [isIn, stands, same]
      rw [here]
      exact .stands same (appending_get stands).symm (fun _ => offset) (by simp [block, text])
    · have notIn : opened.isIn id c = false := by simp [isIn, stands, same]
      rw [notIn]
      exact .apart fun other isOther => by
        cases isOther
        exact same

theorem Works.accounted (works : opened.Works deeds v) (fresh : opened.OpensFresh)
    (holds : opened.files.contents? id = some base) : IsAccounted opened id base deeds v := by
  induction works with
  | nothing => exact fresh.accounted holds
  | more _ does ih => exact does.accounts ih

/-! ## Closing -/

theorem closeRedirect_files {file : OpenFile} (stands : v.redirects.get c = some file) :
    (v.closeRedirect c).files = (file.close v.files).1 := by
  unfold closeRedirect
  simp only [stands]
  cases (file.close v.files).2 <;> simp

/-- Only the stream that is closed is another one afterwards. -/
theorem Accounts.close {after : World} {written' : Both Bytes} {data' : Bytes}
    (accounts : Accounts opened id base deeds isOpen written data v)
    (account : Account opened.appending (∃ deed ∈ deeds, deed.Changes id) base written' data')
    (holds : after.files.contents? id = some data')
    (handles : after.redirects = v.redirects.set c none)
    (same : ∀ d, d ≠ c → written'.get d = written.get d)
    (closed : InFile id (opened.appending.get c) false (opened.isIn id c) (Deed.saidOn c deeds)
      (written'.get c) none) :
    Accounts opened id base deeds (fun d => if d = c then false else isOpen d) written' data'
      after where
  account := account
  holds := holds
  streams d := by
    rw [handles]
    by_cases here : d = c
    · subst here
      rw [Both.get_set_self, if_pos rfl]
      exact closed
    · rw [Both.get_set_of_ne _ _ here, if_neg here, same d here]
      exact accounts.streams d

/-- Closing the file of a stream writes what of it has not been written yet. -/
theorem Accounts.closeRedirect (accounts : Accounts opened id base deeds isOpen written data v)
    (isOpenHere : isOpen c = true) : ∃ written' data', Accounts opened id base deeds
      (fun d => if d = c then false else isOpen d) written' data' (v.closeRedirect c) := by
  have stream := accounts.streams c
  rw [isOpenHere] at stream
  have handles : (v.closeRedirect c).redirects = v.redirects.set c none := closeRedirect_redirects ..
  cases stands : v.redirects.get c with
  | none =>
    rw [stands] at stream
    obtain ⟨notIn, nothing⟩ := stream.of_none
    have unchanged : v.closeRedirect c = v := by simp [World.closeRedirect, stands]
    refine ⟨written, data, accounts.close accounts.account ?_ handles (fun _ _ => rfl) ?_⟩
    · rw [unchanged, accounts.holds]
    · rw [notIn, nothing]
      exact .apart (by simp)
  | some file =>
    rw [stands] at stream
    have files := closeRedirect_files stands
    rcases stream.of_some with ⟨notIn, nothing, node⟩ | ⟨here, _, node, _, _, kept⟩
    · obtain ⟨last, steps⟩ := file.close_steps v.files
      refine ⟨written, data, accounts.close accounts.account ?_ handles (fun _ _ => rfl) ?_⟩
      · rw [files, (contents?_of_steps steps node).2, accounts.holds]
      · rw [notIn, nothing]
        exact .apart (by simp)
    · have regular : (v.files.contents? id).isSome := by simp [accounts.holds]
      have closed := OpenFile.close_placed regular (accounts.placed stands node)
      refine ⟨_, _, accounts.close (accounts.account.write c (file.block ++ file.text)) ?_ handles
        (fun d other => Both.get_set_of_ne _ _ other) ?_⟩
      · rw [files, closed]
        exact FileSystem.contents?_withContents regular _
      · rw [Both.get_set_self, ← List.append_assoc, kept, here]
        exact .closed

/-- What the streams of a command have said to the file. -/
def saidIn (opened : World) (id : NodeId) (deeds : List Deed) : Both Bytes :=
  ⟨if opened.isIn id .out then Deed.saidOn .out deeds else [],
    if opened.isIn id .err then Deed.saidOn .err deeds else []⟩

theorem saidIn_get (opened : World) (id : NodeId) (deeds : List Deed) (c : Channel) :
    (opened.saidIn id deeds).get c =
      if opened.isIn id c then Deed.saidOn c deeds else [] := by
  cases c <;> rfl

/-- Once its streams are closed all that they have said to the file was written to it. -/
theorem Works.settles (works : opened.Works deeds v) (fresh : opened.OpensFresh)
    (holds : opened.files.contents? id = some base) :
    ∃ data, v.closeRedirects.files.contents? id = some data ∧
      Account opened.appending (∃ deed ∈ deeds, deed.Changes id) base (opened.saidIn id deeds)
        data := by
  obtain ⟨_, _, accounts⟩ := works.accounted fresh holds
  obtain ⟨_, _, first⟩ := accounts.closeRedirect (c := .err) rfl
  obtain ⟨written, data, second⟩ := first.closeRedirect (c := .out) rfl
  have all : written = opened.saidIn id deeds := by
    have parts : ∀ c, written.get c = (opened.saidIn id deeds).get c := by
      intro c
      have stream := second.streams c
      have closed : (if c = .out then false else if c = .err then false else true) = false := by
        cases c <;> rfl
      rw [closed] at stream
      rw [saidIn_get, stream.of_closed]
    have out := parts .out
    have err := parts .err
    cases written
    simp only [Both.get] at out err
    rw [out, err]
  rw [← all]
  exact ⟨data, second.holds, second.account⟩

end World

end LineShell
