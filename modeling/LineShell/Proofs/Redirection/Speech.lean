import LineShell.Proofs.FileSystem.Agreement
import LineShell.Proofs.Redirection.Reports
import LineShell.Proofs.Redirection.Settled

/-!
# What an action says

`Act.Utters act w a said`: carried out in the world `w`, the action `act` comes to `a`, and `said`
is what it says on the two streams until then. Besides, records may be kept, and nothing else
happens (`World.Speaks`). What two actions say one after the other is what the first one says and
then what the other says in the world that the first one leaves (`Utters.bind`).

Where the streams take what is written to them (`World.Accepts`) each way of writing says what it
is given: `print_utters`, `printBytes_utters`, `flush_utters` and `report_utters`. What was said is
on the terminal (`Speaks.onTerminal`) or, once the streams are closed, in the file
(`Speaks.inFile`).
-/

namespace LineShell

open Act
open Relation (ReflTransGen)

/-! ## What is said on two streams -/

namespace Both

/-- Nothing on either stream. -/
def nothing : Both Bytes :=
  ⟨[], []⟩

/-- Bytes on one of the streams. -/
def only (c : Channel) (bytes : Bytes) : Both Bytes :=
  nothing.set c bytes

instance : Append (Both Bytes) :=
  ⟨fun said more => ⟨said.out ++ more.out, said.err ++ more.err⟩⟩

@[simp] theorem nothing_get (c : Channel) : nothing.get c = [] := by
  cases c <;> rfl

@[simp] theorem only_get_self (c : Channel) (bytes : Bytes) : (only c bytes).get c = bytes :=
  get_set_self _ _ _

theorem only_get_of_ne {c d : Channel} (different : d ≠ c) (bytes : Bytes) :
    (only c bytes).get d = [] := by
  rw [only, get_set_of_ne _ _ different, nothing_get]

@[simp] theorem append_get (said more : Both Bytes) (c : Channel) :
    (said ++ more).get c = said.get c ++ more.get c := by
  cases c <;> rfl

@[simp] theorem append_mk (out err out' err' : Bytes) :
    (⟨out, err⟩ : Both Bytes) ++ ⟨out', err'⟩ = ⟨out ++ out', err ++ err'⟩ := rfl

theorem only_append (c : Channel) (bytes more : Bytes) :
    only c bytes ++ only c more = only c (bytes ++ more) := by
  cases c <;> rfl

theorem append_nothing (said : Both Bytes) : said ++ nothing = said :=
  congrArg₂ Both.mk (List.append_nil _) (List.append_nil _)

end Both

namespace World

variable {w v u : World} {c : Channel} {said more : Both Bytes}

/-! ## Streams that take what is written -/

/-- The streams take what is written to them: each of them is the terminal, a regular file or the
device that swallows everything. -/
def Accepts (w : World) : Prop :=
  ∀ c file, w.redirects.get c = some file →
    (w.files.contents? file.node).isSome ∨ w.files.node? file.node = some (.device .null)

instance (w : World) : Decidable w.Accepts :=
  decidable_of_iff (∀ file ∈ w.redirects.out.toList ++ w.redirects.err.toList,
      (w.files.contents? file.node).isSome ∨ w.files.node? file.node = some (.device .null)) <| by
    constructor
    · intro taken c file stands
      cases c <;> exact taken file (by simp_all [Both.get])
    · intro accepts file listed
      rcases List.mem_append.1 listed with out | err
      · exact accepts .out file (Option.mem_toList.1 out)
      · exact accepts .err file (Option.mem_toList.1 err)

theorem IsIdle.accepts (idle : w.IsIdle) : w.Accepts := by
  intro c file stands
  simp [idle.get c] at stands

/-! ## Speaking -/

/-- How a line about an error looks on the stream for the errors. -/
def reportLine (w : World) (message : String) : Bytes :=
  Utf8.encode
    (Highlight.highlight message "RED" (showsOnTerminal w .err) w.console.colors ++ "\n")

/-- How bytes look on a stream. A terminal that takes characters only is given them as text. -/
def passed (w : World) (c : Channel) (bytes : Bytes) : Bytes :=
  if (w.redirects.get c).isNone && w.console.textOnly then Utf8.encode (Utf8.decode bytes)
  else bytes

/-- From one world to another something was said and records were kept, and that is all. What was
said on a stream in a file can be told; what was said on a terminal is shown there, with the records
in between that are shown. In the tree at most the files of the streams hold something else. -/
structure Speaks (w : World) (said : Both Bytes) (v : World) : Prop where
  told : ∃ deeds, w.Works deeds v ∧ (∀ deed ∈ deeds, deed.IsSaid) ∧
    ∀ c, (w.redirects.get c).isSome → Deed.saidOn c deeds = said.get c
  shown : ∀ c, ∃ shown,
    Merges (if (w.redirects.get c).isSome then [] else said.get c) (w.noted v c) shown ∧
    (v.terminals.get c).shown = (w.terminals.get c).shown ++ shown
  session : v.session = w.session
  here : v.here = w.here
  console : v.console = w.console
  echo : v.echo = w.echo
  records : w.records <:+ v.records
  streams : ∀ c, (v.redirects.get c).map (·.node) = (w.redirects.get c).map (·.node)
  tree : w.files.AgreesBut (fun id => ∃ c, w.isIn id c = true) v.files

namespace Speaks

theorem refl (w : World) : w.Speaks .nothing w where
  told := ⟨[], .nothing, by simp, by simp⟩
  shown c := ⟨[], by simpa using Merges.nil, by simp⟩
  session := rfl
  here := rfl
  console := rfl
  echo := rfl
  records := List.suffix_rfl
  streams _ := rfl
  tree := .refl _

section
variable (speaks : w.Speaks said v)
include speaks

theorem isSome_get (c : Channel) : (v.redirects.get c).isSome = (w.redirects.get c).isSome := by
  simpa using congrArg Option.isSome (speaks.streams c)

theorem isIn_eq (id : NodeId) (c : Channel) : v.isIn id c = w.isIn id c := by
  have same := speaks.streams c
  unfold isIn
  cases after : v.redirects.get c <;> cases before : w.redirects.get c <;>
    simp_all

theorem reportLine_eq (message : String) : v.reportLine message = w.reportLine message := by
  have free : (v.redirects.get .err).isNone = (w.redirects.get .err).isNone := by
    rw [← Option.not_isSome, ← Option.not_isSome, speaks.isSome_get]
  simp only [reportLine, showsOnTerminal, speaks.console, free]

theorem passed_eq (c : Channel) (bytes : Bytes) : v.passed c bytes = w.passed c bytes := by
  have free : (v.redirects.get c).isNone = (w.redirects.get c).isNone := by
    rw [← Option.not_isSome, ← Option.not_isSome, speaks.isSome_get]
  simp only [passed, speaks.console, free]

theorem accepts (accepts : w.Accepts) : v.Accepts := by
  intro c file' stands'
  obtain ⟨file, stands, same⟩ : ∃ file, w.redirects.get c = some file ∧ file.node = file'.node := by
    have same := speaks.streams c
    rw [stands'] at same
    exact Option.map_eq_some_iff.1 same.symm
  rcases accepts c file stands with regular | null
  · exact .inl (speaks.tree.isSome_contents? (same ▸ regular))
  · exact .inr (speaks.tree.device (same ▸ null))

end

theorem trans (first : w.Speaks said v) (second : v.Speaks more u) :
    w.Speaks (said ++ more) u where
  told := by
    obtain ⟨deeds, works, isSaid, tells⟩ := first.told
    obtain ⟨deeds', works', isSaid', tells'⟩ := second.told
    refine ⟨deeds ++ deeds', works.trans works', ?_, fun c stands => ?_⟩
    · intro deed listed
      exact (List.mem_append.1 listed).elim (isSaid deed) (isSaid' deed)
    · rw [Deed.saidOn_append, tells c stands, tells' c (first.isSome_get c ▸ stands),
        Both.append_get]
  shown c := by
    obtain ⟨shown, merges, grown⟩ := first.shown c
    obtain ⟨shown', merges', grown'⟩ := second.shown c
    refine ⟨shown ++ shown', ?_, by rw [grown', grown, List.append_assoc]⟩
    have both := merges.append merges'
    rw [← noted_trans first.records second.records second.echo, first.isSome_get] at both
    split at both
    case isTrue stands => rwa [if_pos stands]
    case isFalse free => rwa [if_neg free, Both.append_get]
  session := second.session.trans first.session
  here := second.here.trans first.here
  console := second.console.trans first.console
  echo := second.echo.trans first.echo
  records := first.records.trans second.records
  streams c := (second.streams c).trans (first.streams c)
  tree := by
    refine first.tree.trans (second.tree.mono ?_)
    rintro id ⟨c, isIn⟩
    exact ⟨c, first.isIn_eq id c ▸ isIn⟩

/-- What is said on a terminal is shown there at once. -/
theorem print (free : w.redirects.get c = none) (bytes : Bytes) {f : Terminal → Terminal}
    (shows : ∀ t, (f t).shown = t.shown ++ bytes) :
    w.Speaks (.only c bytes) (w.onTerminal c f) where
  told := by
    have works : w.Works ([] ++ []) (w.onTerminal c f) := Works.nothing.more (.other rfl rfl)
    refine ⟨_, works, by simp, fun d stands => ?_⟩
    have different : d ≠ c := by
      rintro rfl
      simp [free] at stands
    rw [Both.only_get_of_ne different]
    rfl
  shown d := by
    by_cases same : d = c
    · subst same
      refine ⟨bytes, ?_, by simp [shows]⟩
      have merges := Merges.nil.say bytes
      simpa [free] using merges
    · refine ⟨[], ?_, by simp [same]⟩
      simpa [Both.only_get_of_ne same] using Merges.nil
  session := rfl
  here := rfl
  console := rfl
  echo := rfl
  records := List.suffix_rfl
  streams _ := rfl
  tree := .refl _

theorem note (w : World) (level : Log.Level) (source : Log.Source) (message : String) :
    w.Speaks .nothing (w.note level source message) where
  told := by
    have works : w.Works ([] ++ []) (w.note level source message) :=
      Works.nothing.more (.other (by simp) (by simp))
    exact ⟨_, works, by simp, by simp⟩
  shown c := by
    cases c with
    | out => exact ⟨[], by simpa [noted] using Merges.nil, by simp [Both.get]⟩
    | err =>
      have merges := Merges.nil.note (w.recordLine ⟨level, source, message⟩)
      refine ⟨_, ?_, shown_note w⟩
      rw [noted_note List.suffix_rfl, noted_self]
      simpa using merges
  session := by simp
  here := by simp
  console := by simp
  echo := by simp
  records := by simp
  streams _ := by simp
  tree := by
    rw [note_files]
    exact .refl _

theorem flushTerminals (w : World) : w.Speaks .nothing w.flushTerminals where
  told := by
    have works : w.Works ([] ++ []) w.flushTerminals := Works.nothing.more (.other rfl rfl)
    exact ⟨_, works, by simp, by simp⟩
  shown c := by
    refine ⟨[], ?_, ?_⟩
    · have nothing : w.noted w.flushTerminals c = [] := w.noted_self c
      simpa [nothing] using Merges.nil
    · cases c <;> simp [World.flushTerminals, Both.get]
  session := rfl
  here := rfl
  console := rfl
  echo := rfl
  records := List.suffix_rfl
  streams _ := rfl
  tree := .refl _

/-- What is said on a stream in a file does not show on a terminal. -/
theorem onFile {file file' : OpenFile} {files : FileSystem} {deeds : List Deed}
    (stands : w.redirects.get c = some file)
    (does : Does w deeds { w with files, redirects := w.redirects.set c (some file') })
    (isSaid : ∀ deed ∈ deeds, deed.IsSaid)
    (tells : ∀ d, Deed.saidOn d deeds = said.get d) (quiet : ∀ d, d ≠ c → said.get d = [])
    (same : file'.node = file.node) (agrees : w.files.AgreesBut (· = file.node) files) :
    w.Speaks said { w with files, redirects := w.redirects.set c (some file') } where
  told := by
    have works := Works.nothing.more does
    exact ⟨_, works, isSaid, fun d _ => tells d⟩
  shown d := by
    refine ⟨[], ?_, by simp⟩
    have nothing : w.noted { w with files, redirects := w.redirects.set c (some file') } d = [] :=
      w.noted_self d
    rw [nothing]
    by_cases here : d = c
    · subst here
      simpa [stands] using Merges.nil
    · simpa [quiet d here] using Merges.nil
  session := rfl
  here := rfl
  console := rfl
  echo := rfl
  records := List.suffix_rfl
  streams d := by
    by_cases here : d = c
    · subst here
      simp [stands, same]
    · simp [here]
  tree := by
    refine agrees.mono ?_
    rintro id rfl
    exact ⟨c, by simp [isIn, stands]⟩

/-! ### Where it can be seen -/

/-- What was said on a terminal is shown there, and nothing besides unless records are shown. -/
theorem onTerminal (speaks : w.Speaks said v) (free : w.redirects.get c = none) :
    ∃ shown, Merges (said.get c) (w.noted v c) shown ∧
      (v.terminals.get c).shown = (w.terminals.get c).shown ++ shown ∧
      (c = .out ∨ w.echo = none → shown = said.get c) := by
  obtain ⟨shown, merges, grown⟩ := speaks.shown c
  rw [free] at merges
  refine ⟨shown, merges, grown, fun unseen => merges.eq_said ?_⟩
  rcases unseen with rfl | hidden
  · rfl
  · exact noted_of_echo speaks.echo hidden c

/-- What was said on a stream that is in a file alone is at the end of the file when the streams
have been closed. -/
theorem inFile (speaks : w.Speaks said v) (fresh : w.OpensFresh) {id : NodeId} {base : Bytes}
    (holds : w.files.contents? id = some base) (isIn : w.isIn id c = true)
    (alone : ∀ d, d ≠ c → w.isIn id d = false) :
    v.closeRedirects.files.contents? id = some (base ++ said.get c) := by
  obtain ⟨deeds, works, isSaid, tells⟩ := speaks.told
  obtain ⟨data, settled, account⟩ := works.settles fresh holds
  have still : ∀ deed ∈ deeds, ¬ deed.Changes id := by
    intro deed listed changes
    cases deed with
    | said => exact changes
    | edited => exact isSaid _ listed
  have stands : (w.redirects.get c).isSome := by
    unfold World.isIn at isIn
    cases open_ : w.redirects.get c with
    | none => simp [open_] at isIn
    | some file => rfl
  have whole := (holdsSaid_of_account fresh holds account).sole still c isIn alone
  rw [settled, whole, tells c stands]

end Speaks

end World

/-! ## Actions that say something -/

namespace Act

variable {α β : Type} {w : World} {a : α} {b : β} {said more : Both Bytes} {c : Channel}

/-- The action comes to a value, and what it says until then is `said`. -/
def Utters (act : Act α) (w : World) (a : α) (said : Both Bytes) : Prop :=
  ∃ v, act w = .ok a v ∧ w.Speaks said v

namespace Utters

theorem pure (a : α) (w : World) : Utters (Pure.pure a) w a .nothing :=
  ⟨w, rfl, .refl w⟩

/-- The world of which it is told is the one that the action leaves. -/
theorem at_run {act : Act α} (utters : Utters act w a said) :
    act w = .ok a (act.run w) ∧ w.Speaks said (act.run w) := by
  obtain ⟨v, ran, speaks⟩ := utters
  have left : act.run w = v := by simp [Act.run, ran]
  exact ⟨left ▸ ran, left ▸ speaks⟩

theorem bind {act : Act α} {next : α → Act β} (first : Utters act w a said)
    (rest : ∀ v, w.Speaks said v → Utters (next a) v b more) :
    Utters (act >>= next) w b (said ++ more) := by
  obtain ⟨v, ran, speaks⟩ := first
  obtain ⟨u, ran', speaks'⟩ := rest v speaks
  exact ⟨u, by rw [bind_apply, ran]; exact ran', speaks.trans speaks'⟩

theorem get_bind {next : World → Act β} (rest : Utters (next w) w b said) :
    Utters (get >>= next) w b said :=
  rest

/-- After something that says nothing there is no more said than what comes then. -/
theorem quiet_bind {act : Act α} {next : α → Act β} (first : Utters act w a .nothing)
    (rest : ∀ v, w.Speaks .nothing v → Utters (next a) v b said) :
    Utters (act >>= next) w b said :=
  first.bind rest

/-- What comes at the end and says nothing changes only the value. -/
theorem bind_quiet {act : Act α} {next : α → Act β} (first : Utters act w a said)
    (rest : ∀ v, w.Speaks said v → Utters (next a) v b .nothing) :
    Utters (act >>= next) w b said := by
  have both := first.bind rest
  rwa [Both.append_nothing] at both

end Utters

/-- What is said on one stream is said on that stream only. -/
theorem saidOn_said_eq (c : Channel) (bytes : Bytes) (d : Channel) :
    Deed.saidOn d [.said c bytes] = (Both.only c bytes).get d := by
  rw [Deed.saidOn_said]
  by_cases same : c = d
  · subst same
    simp
  · rw [if_neg same, Both.only_get_of_ne (Ne.symm same)]

variable (accepts : w.Accepts)
include accepts

/-- Only a full device could refuse what is done with the file of a stream. -/
theorem onFile_utters {file : OpenFile} {act : FileAct Unit} {deeds : List Deed}
    (stands : w.redirects.get c = some file) (takes : Takes OpenFile.Step act)
    (refuses : OpenFile.RefusedByFull act)
    (does : w.Does deeds (state (onFile c file act w))) (isSaid : ∀ deed ∈ deeds, deed.IsSaid)
    (tells : ∀ d, Deed.saidOn d deeds = said.get d) (quiet : ∀ d, d ≠ c → said.get d = []) :
    Utters (onFile c file act) w () said := by
  have steps := takes (file, w.files)
  obtain ⟨same, agrees⟩ := OpenFile.Step.agreesBut steps
  cases ran : act (file, w.files) with
  | error e after =>
    rw [ran] at steps
    have full := (OpenFile.isFull_iff_of_steps steps).1.1 (refuses _ e after ran)
    rcases accepts c file stands with regular | null
    · simp [FileSystem.contents?, show w.files.node? file.node = _ from full] at regular
    · rw [show w.files.node? file.node = _ from full] at null
      cases null
  | ok _ after =>
    rw [ran] at same agrees
    have done : onFile c file act w =
        .ok () { w with files := after.2, redirects := w.redirects.set c (some after.1) } := by
      simp only [onFile, ran]
    rw [done] at does
    exact ⟨_, done, .onFile stands does isSaid tells quiet same agrees⟩

theorem print_utters (c : Channel) (text : String) :
    Utters (print c text) w () (.only c (Utf8.encode text)) := by
  cases stands : w.redirects.get c with
  | none => exact ⟨_, print_apply stands text, .print stands _ fun t => Terminal.shown_print t _⟩
  | some file =>
    have does := World.Does.prints w c text
    rw [print_onFile stands] at does
    obtain ⟨v, ran, speaks⟩ := onFile_utters accepts stands (OpenFile.print_takes _)
      (OpenFile.print_refusedByFull _) does (by simp [Deed.IsSaid]) (saidOn_said_eq c _)
      fun d different => Both.only_get_of_ne different _
    exact ⟨v, (print_onFile stands text).trans ran, speaks⟩

theorem flush_utters (c : Channel) : Utters (flush c) w () .nothing := by
  cases stands : w.redirects.get c with
  | none =>
    have speaks : w.Speaks (.only c []) (w.onTerminal c (·.flush)) :=
      .print stands [] fun t => by simp
    have silent : Both.only c [] = .nothing := by cases c <;> rfl
    exact ⟨_, flush_apply stands, silent ▸ speaks⟩
  | some file =>
    have does := World.Does.flushes w c
    rw [flush_onFile stands] at does
    obtain ⟨v, ran, speaks⟩ := onFile_utters accepts stands OpenFile.flush_takes
      OpenFile.flush_refusedByFull does (by simp) (fun d => (Both.nothing_get d).symm)
      fun d _ => Both.nothing_get d
    exact ⟨v, (flush_onFile stands).trans ran, speaks⟩

theorem printLine_utters (c : Channel) (text : String) :
    Utters (printLine c text) w () (.only c (Utf8.encode (text ++ "\n"))) := by
  rw [Utf8.encode_append, ← Both.only_append]
  exact (print_utters accepts c text).bind fun v speaks =>
    print_utters (speaks.accepts accepts) c "\n"

theorem printBytes_utters (c : Channel) (bytes : Bytes) :
    Utters (printBytes c bytes) w () (.only c (w.passed c bytes)) := by
  cases stands : w.redirects.get c with
  | none =>
    have shows : ∀ t : Terminal,
        ((t.print (w.passed c bytes)).flush).shown = t.shown ++ w.passed c bytes := by simp
    refine ⟨_, ?_, .print stands (w.passed c bytes) shows⟩
    simp [printBytes, World.passed, stands]
  | some file =>
    have whole : w.passed c bytes = bytes := by simp [World.passed, stands]
    have does := World.Does.passes w c bytes
    have onFile_eq : printBytes c bytes w = onFile c file (OpenFile.printBytes bytes) w := by
      simp [printBytes, stands]
    rw [onFile_eq] at does
    obtain ⟨v, ran, speaks⟩ := onFile_utters accepts stands (OpenFile.printBytes_takes _)
      (OpenFile.printBytes_refusedByFull _) does (by simp [Deed.IsSaid])
      (saidOn_said_eq c bytes) fun d different => Both.only_get_of_ne different _
    rw [whole]
    exact ⟨v, onFile_eq.trans ran, speaks⟩

/-- A report is one line on the stream for the errors. -/
theorem report_utters (message : String) :
    Utters (report message) w () (.only .err (w.reportLine message)) := by
  apply Utters.get_bind
  exact (printLine_utters accepts .err _).bind_quiet fun v speaks =>
    flush_utters (speaks.accepts accepts) .err

end Act

end LineShell
