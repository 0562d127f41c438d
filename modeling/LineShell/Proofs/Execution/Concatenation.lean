import LineShell.Proofs.Redirection.Speech

/-!
# What `cat` writes

`cat` reads its files one after the other. What one of them comes to (`World.Reads`) is written
before the next one is read, its bytes to the standard output and the reason why there are none to
the standard error, so a file to which the errors go is read as it is by then
(`World.readInTurn`). Whatever it comes to, the next one is read (`showFiles_utters`), unless it
comes to nothing: no file can have the name, or its file has no end (`World.Defies`).

Main statement: `runCat_concatenates`.
-/

namespace LineShell

open Act

/-! ## Reading one file after the other -/

namespace World

variable {w v : World} {said : Both Bytes} {name : String} {fault : Fault}

/-- What reading the file of a name comes to, if there is an end to it: the bytes of a file that may
be read, or the reason why there are none. -/
inductive Reads (w : World) (name : String) : Except Errno Bytes → Prop
  | file {access : Access} {data : Array UInt8} {program : Option Program}
      (leads : w.files.lookup w.here (w.session.resolve name) = .ok (.file access data program))
      (allowed : access.read = true) : Reads w name (.ok data.toList)
  | locked {access : Access} {data : Array UInt8} {program : Option Program}
      (leads : w.files.lookup w.here (w.session.resolve name) = .ok (.file access data program))
      (denied : access.read = false) : Reads w name (.error .permissionDenied)
  | directory {access : Access} {parent : NodeId} {own : String}
      {entries : List (String × NodeId)}
      (leads : w.files.lookup w.here (w.session.resolve name) =
        .ok (.directory access parent own entries)) :
      Reads w name (.error (if access.read then .isDirectory else .permissionDenied))
  | empty (leads : w.files.lookup w.here (w.session.resolve name) = .ok (.device .null)) :
      Reads w name (.ok [])
  | unreachable {e : Errno}
      (nowhere : w.files.lookup w.here (w.session.resolve name) = .error e) :
      Reads w name (.error e)

/-- There is no end to the file of a name. -/
def IsEndless (w : World) (name : String) : Prop :=
  w.files.lookup w.here (w.session.resolve name) = .ok (.device .full)

instance (w : World) (name : String) : Decidable (w.IsEndless name) :=
  decidable_of_iff (w.files.read w.here (w.session.resolve name) = none) FileSystem.read_eq_none_iff

/-- Reading the file of a name comes to nothing that could be said, but to a fault. -/
inductive Defies (w : World) (name : String) : Fault → Prop
  | null (holds : holdsNull (w.session.resolve name)) : Defies w name .nullByte
  | endless (clean : ¬ holdsNull (w.session.resolve name)) (leads : w.IsEndless name) :
      Defies w name .endless

/-- Reading the file of a name comes to bytes, or to the reason why there are none. -/
def Yields (w : World) (name : String) : Prop :=
  ∀ fault, ¬ w.Defies name fault

/-- What reading the file of a name comes to, if it comes to anything. -/
def readOf (w : World) (name : String) : Option (Except Errno Bytes) :=
  if holdsNull (w.session.resolve name) then none
  else w.files.read w.here (w.session.resolve name)

/-- What reading the files of names comes to, each one after what is said about those before, up to
the first that comes to nothing. -/
def readInTurn (w : World) : List String → List (Except Errno Bytes)
  | [] => []
  | name :: names => (w.readOf name).elim [] fun outcome =>
    outcome :: ((Builtin.showFile name).run w).readInTurn names

theorem readInTurn_cons {outcome : Except Errno Bytes} (reads : w.readOf name = some outcome)
    (names : List String) : w.readInTurn (name :: names) =
      outcome :: ((Builtin.showFile name).run w).readInTurn names := by
  rw [readInTurn, reads, Option.elim_some]

/-- The file of a name is not the one that a stream is in. -/
def IsApart (w : World) (c : Channel) (name : String) : Prop :=
  ∀ id, w.files.find w.here (w.session.resolve name) = .ok id → w.isIn id c = false

instance (w : World) (c : Channel) (name : String) : Decidable (w.IsApart c name) :=
  decidable_of_iff (∀ id ∈ (w.files.find w.here (w.session.resolve name)).toOption,
      w.isIn id c = false) <| by
    unfold IsApart
    cases w.files.find w.here (w.session.resolve name) <;> simp [Except.toOption]

theorem readOf_eq_none_iff : w.readOf name = none ↔ ∃ fault, w.Defies name fault := by
  unfold readOf
  split
  case isTrue holds => exact iff_of_true rfl ⟨_, .null holds⟩
  case isFalse clean =>
    rw [FileSystem.read_eq_none_iff]
    constructor
    · exact fun leads => ⟨_, .endless clean leads⟩
    · rintro ⟨_, holds | ⟨_, leads⟩⟩
      · exact absurd holds clean
      · exact leads

theorem yields_iff_isSome : w.Yields name ↔ (w.readOf name).isSome := by
  rw [Yields, ← not_exists, ← readOf_eq_none_iff, Option.isSome_iff_ne_none]

instance (w : World) (name : String) : Decidable (w.Yields name) :=
  decidable_of_iff _ yields_iff_isSome.symm

/-- If reading does not come to something for each of the names, there is a first one for which it
does not. -/
theorem yields_or_defies (w : World) (names : List String) :
    (∀ name ∈ names, w.Yields name) ∨ ∃ before name after fault,
      names = before ++ name :: after ∧ (∀ other ∈ before, w.Yields other) ∧
        w.Defies name fault := by
  cases first : names.find? (¬ w.Yields ·) with
  | none => exact .inl (by simpa using first)
  | some name =>
    obtain ⟨defied, before, after, split, yields⟩ := List.find?_eq_some_iff_append.1 first
    have stops : ¬ w.Yields name := of_decide_eq_true defied
    obtain ⟨fault, defies⟩ := Classical.not_forall_not.1 stops
    exact .inr ⟨before, name, after, fault, split, by simpa using yields, defies⟩

theorem Reads.readOf_eq {outcome : Except Errno Bytes} (reads : w.Reads name outcome)
    (clean : ¬ holdsNull (w.session.resolve name)) : w.readOf name = some outcome := by
  rw [readOf, if_neg clean]
  cases reads with
  | file leads allowed => simp [FileSystem.read, leads, allowed]
  | locked leads denied => simp [FileSystem.read, leads, denied]
  | directory leads => simp [FileSystem.read, leads]
  | empty leads => simp [FileSystem.read, leads]
  | unreachable nowhere => simp [FileSystem.read, nowhere]

theorem Reads.yields {outcome : Except Errno Bytes} (reads : w.Reads name outcome)
    (clean : ¬ holdsNull (w.session.resolve name)) : w.Yields name := by
  rw [yields_iff_isSome, reads.readOf_eq clean, Option.isSome_some]

namespace Speaks

variable (speaks : w.Speaks said v)
include speaks

/-- What was said may have changed what a file holds, but not whether it can be read. -/
theorem exists_reads (finite : ∃ outcome, w.Reads name outcome) :
    ∃ outcome, v.Reads name outcome := by
  obtain ⟨outcome, reads⟩ := finite
  have asked : v.files.lookup v.here (v.session.resolve name) =
      v.files.lookup w.here (w.session.resolve name) := by
    rw [speaks.here, speaks.session]
  rcases speaks.tree.lookup_cases w.here (w.session.resolve name) with
    same | ⟨access, _, _, _, _, _, after⟩
  · rw [same] at asked
    cases reads with
    | file leads allowed => exact ⟨_, .file (asked.trans leads) allowed⟩
    | locked leads denied => exact ⟨_, .locked (asked.trans leads) denied⟩
    | directory leads => exact ⟨_, .directory (asked.trans leads)⟩
    | empty leads => exact ⟨_, .empty (asked.trans leads)⟩
    | unreachable nowhere => exact ⟨_, .unreachable (asked.trans nowhere)⟩
  · rw [after] at asked
    cases allowed : access.read with
    | true => exact ⟨_, .file asked allowed⟩
    | false => exact ⟨_, .locked asked allowed⟩

theorem isEndless_iff : v.IsEndless name ↔ w.IsEndless name := by
  unfold IsEndless
  rw [speaks.here, speaks.session]
  rcases speaks.tree.lookup_cases w.here (w.session.resolve name) with
    same | ⟨_, _, _, _, _, before, after⟩
  · rw [same]
  · simp [before, after]

/-- What was said does not change whether `cat` can go on at a name. -/
theorem defies_iff : v.Defies name fault ↔ w.Defies name fault := by
  constructor
  · rintro (holds | ⟨clean, leads⟩)
    · exact .null (speaks.session ▸ holds)
    · exact .endless (speaks.session ▸ clean) (speaks.isEndless_iff.1 leads)
  · rintro (holds | ⟨clean, leads⟩)
    · exact .null (speaks.session.symm ▸ holds)
    · exact .endless (speaks.session.symm ▸ clean) (speaks.isEndless_iff.2 leads)

theorem yields_iff : v.Yields name ↔ w.Yields name :=
  forall_congr' fun _ => not_congr speaks.defies_iff

theorem isApart {c : Channel} (apart : w.IsApart c name) : v.IsApart c name := by
  intro id found
  rw [speaks.here, speaks.session, speaks.tree.find_eq] at found
  rw [speaks.isIn_eq, apart id found]

/-- A file that no stream is in is read as before. -/
theorem readOf_eq (apart : ∀ c, w.IsApart c name) : v.readOf name = w.readOf name := by
  have leads : v.files.lookup w.here (w.session.resolve name) =
      w.files.lookup w.here (w.session.resolve name) := by
    refine speaks.tree.lookup_eq fun id found isIn => ?_
    obtain ⟨c, isIn⟩ := isIn
    rw [apart c id found] at isIn
    cases isIn
  rw [readOf, readOf, speaks.here, speaks.session, FileSystem.read, FileSystem.read, leads]

end Speaks

/-! ## What is said about outcomes -/

/-- The bytes that were read. -/
def contents (outcomes : List (Except Errno Bytes)) : Bytes :=
  outcomes.flatMap fun
    | .ok bytes => bytes
    | .error _ => []

/-- The bytes that were read, as they look on the standard output. -/
def shownContents (w : World) (outcomes : List (Except Errno Bytes)) : Bytes :=
  outcomes.flatMap fun
    | .ok bytes => w.passed .out bytes
    | .error _ => []

/-- One report for each file that could not be read. -/
def complaints (w : World) (names : List String) (outcomes : List (Except Errno Bytes)) : Bytes :=
  (names.zip outcomes).flatMap fun
    | (_, .ok _) => []
    | (name, .error e) => w.reportLine s!"cat: {name}: {e.text}"

theorem shownContents_append (w : World) (outcomes others : List (Except Errno Bytes)) :
    w.shownContents (outcomes ++ others) = w.shownContents outcomes ++ w.shownContents others :=
  List.flatMap_append

theorem complaints_append {names others : List String}
    {outcomes others' : List (Except Errno Bytes)}
    (length : names.length = outcomes.length) :
    w.complaints (names ++ others) (outcomes ++ others') =
      w.complaints names outcomes ++ w.complaints others others' := by
  rw [complaints, List.zip_append length, List.flatMap_append]
  rfl

/-- A stream that takes bytes is given them as they are. -/
theorem shownContents_eq (raw : w.console.textOnly = false ∨ (w.redirects.get .out).isSome)
    (outcomes : List (Except Errno Bytes)) : w.shownContents outcomes = contents outcomes := by
  have whole : w.passed .out = id := by
    funext bytes
    rcases raw with raw | stands
    · simp [passed, raw]
    · simp [passed, ← Option.not_isSome, stands]
  simp only [shownContents, contents, whole, id]

/-- What was said changes nothing about how outcomes are told. -/
theorem Speaks.shownContents_eq (speaks : w.Speaks said v) (outcomes : List (Except Errno Bytes)) :
    v.shownContents outcomes = w.shownContents outcomes := by
  simp only [shownContents, speaks.passed_eq]

theorem Speaks.complaints_eq (speaks : w.Speaks said v) (names : List String)
    (outcomes : List (Except Errno Bytes)) :
    v.complaints names outcomes = w.complaints names outcomes := by
  simp only [complaints, speaks.reportLine_eq]

/-- What is said about the outcome for one name, and then about those for others. -/
theorem Speaks.cons_outcome {outcome : Except Errno Bytes} {outcomes : List (Except Errno Bytes)}
    {names : List String} {u : World}
    (speaks : w.Speaks ⟨w.shownContents [outcome], w.complaints [name] [outcome]⟩ v)
    (others : v.Speaks ⟨v.shownContents outcomes, v.complaints names outcomes⟩ u) :
    w.Speaks ⟨w.shownContents (outcome :: outcomes),
      w.complaints (name :: names) (outcome :: outcomes)⟩ u := by
  have both := speaks.trans others
  rw [speaks.shownContents_eq, speaks.complaints_eq, Both.append_mk] at both
  simpa [shownContents, complaints] using both

end World

namespace Builtin

variable {w : World} {name : String} {names : List String} {outcome : Except Errno Bytes}

/-- What `cat` comes to: it fails if one of the files cannot be read. -/
def catStatus (outcomes : List (Except Errno Bytes)) : Int :=
  if outcomes.all (·.isOk) then 0 else 1

/-! ## What `cat` says -/

theorem showFile_utters (accepts : w.Accepts) (reads : w.readOf name = some outcome) :
    Utters (showFile name) w outcome.isOk
      ⟨w.shownContents [outcome], w.complaints [name] [outcome]⟩ := by
  obtain ⟨clean, reads⟩ : ¬ holdsNull (w.session.resolve name) ∧
      w.files.read w.here (w.session.resolve name) = some outcome := by
    simpa [World.readOf] using reads
  unfold showFile
  apply Utters.get_bind
  simp only [if_neg clean, reads]
  cases outcome with
  | ok bytes =>
    have said : (⟨w.shownContents [.ok bytes], w.complaints [name] [.ok bytes]⟩ : Both Bytes) =
        .only .out (w.passed .out bytes) := by
      simp [World.shownContents, World.complaints, Both.only, Both.nothing, Both.set]
    rw [said]
    exact (printBytes_utters accepts .out bytes).bind_quiet fun v _ => .pure true v
  | error e =>
    have said : (⟨w.shownContents [.error e], w.complaints [name] [.error e]⟩ : Both Bytes) =
        .only .err (w.reportLine s!"cat: {name}: {e.text}") := by
      simp [World.shownContents, World.complaints, Both.only, Both.nothing, Both.set]
    rw [said]
    exact (report_utters accepts _).bind_quiet fun v _ => .pure false v

/-- The first of the names is read, and what is said about it changes nothing about which of the
others can be. -/
theorem showFile_first (accepts : w.Accepts) (yields : ∀ other ∈ name :: names, w.Yields other) :
    ∃ outcome v, w.readOf name = some outcome ∧ showFile name w = .ok outcome.isOk v ∧
      w.Speaks ⟨w.shownContents [outcome], w.complaints [name] [outcome]⟩ v ∧ v.Accepts ∧
      (∀ other ∈ names, v.Yields other) ∧
      w.readInTurn (name :: names) = outcome :: v.readInTurn names := by
  rw [List.forall_mem_cons] at yields
  obtain ⟨outcome, reads⟩ := Option.isSome_iff_exists.1 (World.yields_iff_isSome.1 yields.1)
  obtain ⟨ran, speaks⟩ := (showFile_utters accepts reads).at_run
  exact ⟨outcome, _, reads, ran, speaks, speaks.accepts accepts,
    fun other listed => speaks.yields_iff.2 (yields.2 other listed),
    World.readInTurn_cons reads names⟩

/-- Whatever a file comes to, the next one is read. -/
theorem showFiles_utters (accepts : w.Accepts) (yields : ∀ name ∈ names, w.Yields name) :
    Utters (showFiles names) w ((w.readInTurn names).all (·.isOk))
      ⟨w.shownContents (w.readInTurn names), w.complaints names (w.readInTurn names)⟩ := by
  induction names generalizing w with
  | nil => exact .pure true w
  | cons name names ih =>
    obtain ⟨outcome, v, _, ran, speaks, accepts', yields', inTurn⟩ :=
      showFile_first accepts yields
    obtain ⟨u, ran', others⟩ := ih accepts' yields'
    rw [inTurn]
    refine ⟨u, ?_, speaks.cons_outcome others⟩
    rw [showFiles, bind_apply, ran]
    simp [ran']

theorem runCat_utters (accepts : w.Accepts) (yields : ∀ name ∈ names, w.Yields name) :
    Utters (runCat names) w (catStatus (w.readInTurn names))
      ⟨w.shownContents (w.readInTurn names), w.complaints names (w.readInTurn names)⟩ := by
  refine (showFiles_utters accepts yields).bind_quiet fun v speaks => ?_
  exact (flush_utters (speaks.accepts accepts) .out).quiet_bind fun u _ => .pure _ u

/-! ## Names before and after -/

theorem readInTurn_append (accepts : w.Accepts) {others : List String}
    (yields : ∀ name ∈ names, w.Yields name) :
    w.readInTurn (names ++ others) =
      w.readInTurn names ++ ((showFiles names).run w).readInTurn others := by
  induction names generalizing w with
  | nil => rfl
  | cons name names ih =>
    obtain ⟨outcome, v, reads, ran, _, accepts', yields', inTurn⟩ :=
      showFile_first accepts yields
    have left : (showFile name).run w = v := by simp [Act.run, ran]
    obtain ⟨ran', _⟩ := (showFiles_utters accepts' yields').at_run
    have onward : (showFiles (name :: names)).run w = (showFiles names).run v := by
      rw [Act.run, showFiles, bind_apply, ran]
      simp [ran']
    rw [inTurn, onward, List.cons_append, World.readInTurn_cons reads, left, ih accepts' yields',
      List.cons_append]

theorem length_readInTurn (accepts : w.Accepts) (yields : ∀ name ∈ names, w.Yields name) :
    (w.readInTurn names).length = names.length := by
  induction names generalizing w with
  | nil => rfl
  | cons name names ih =>
    obtain ⟨_, v, _, _, _, accepts', yields', inTurn⟩ := showFile_first accepts yields
    rw [inTurn, List.length_cons, List.length_cons, ih accepts' yields']

/-- Files that no stream is in are read as they are from the start. -/
theorem readInTurn_eq (accepts : w.Accepts) (yields : ∀ name ∈ names, w.Yields name)
    (apart : ∀ name ∈ names, ∀ c, w.IsApart c name) :
    (w.readInTurn names).map some = names.map w.readOf := by
  induction names generalizing w with
  | nil => rfl
  | cons name names ih =>
    rw [List.forall_mem_cons] at apart
    obtain ⟨outcome, v, reads, _, speaks, accepts', yields', inTurn⟩ :=
      showFile_first accepts yields
    have others := ih accepts' yields'
      fun name listed c => speaks.isApart (apart.2 name listed c)
    have same : names.map v.readOf = names.map w.readOf :=
      List.map_congr_left fun name listed => speaks.readOf_eq (apart.2 name listed)
    rw [inTurn, List.map_cons, List.map_cons, reads, others, same]

/-- At its turn a name comes to what reading its file comes to by then. -/
theorem readInTurn_reads (accepts : w.Accepts) {before : List String}
    (yields : ∀ name ∈ before, w.Yields name) (after : List String)
    (clean : ¬ holdsNull (w.session.resolve name)) (finite : ∃ outcome, w.Reads name outcome) :
    ∃ outcome, (w.readInTurn (before ++ name :: after))[before.length]? = some outcome ∧
      ((showFiles before).run w).Reads name outcome ∧
      ((∀ c, w.IsApart c name) → w.Reads name outcome) := by
  obtain ⟨_, speaks⟩ := (showFiles_utters accepts yields).at_run
  obtain ⟨outcome, reads⟩ := speaks.exists_reads finite
  have readOf := reads.readOf_eq (speaks.session.symm ▸ clean)
  refine ⟨outcome, ?_, reads, fun apart => ?_⟩
  · rw [readInTurn_append accepts yields, ← length_readInTurn accepts yields]
    simp [World.readInTurn_cons readOf]
  · obtain ⟨outcome', reads'⟩ := finite
    rw [speaks.readOf_eq apart, reads'.readOf_eq clean] at readOf
    cases readOf
    exact reads'

/-- The whole comes to the greater of what its parts come to. -/
theorem catStatus_append (outcomes others : List (Except Errno Bytes)) :
    catStatus (outcomes ++ others) = max (catStatus outcomes) (catStatus others) := by
  unfold catStatus
  rw [List.all_append]
  cases outcomes.all (·.isOk) <;> cases others.all (·.isOk) <;> rfl

theorem catStatus_eq_one_iff {outcomes : List (Except Errno Bytes)} :
    catStatus outcomes = 1 ↔ ∃ e, .error e ∈ outcomes := by
  have all : (outcomes.all (·.isOk) = true) ↔ ¬ ∃ e, .error e ∈ outcomes := by
    rw [List.all_eq_true, not_exists]
    constructor
    · intro fine e listed
      cases fine _ listed
    · intro fine outcome listed
      cases outcome with
      | ok bytes => rfl
      | error e => exact absurd listed (fine e)
  unfold catStatus
  split
  case isTrue fine => exact iff_of_false (by decide) (all.1 fine)
  case isFalse failed => exact iff_of_true rfl (Classical.not_not.1 (mt all.2 failed))

/-- Where the streams take bytes as they are and the standard output is in none of the files, `cat`
writes there what the files hold that can be read, in the order of the names and nothing else, and
one report for each of the others, in order, to the standard error. A file is read when its turn
comes; that is what it comes to from the start unless the reports go to that file. It fails if and
only if there is a report. So names in a row come to what the first ones come to and then the others,
which, where the reports go to none of them, is what these come to alone, and the status is the
larger one. -/
theorem runCat_concatenates (accepts : w.Accepts)
    (raw : w.console.textOnly = false ∨ (w.redirects.get .out).isSome)
    (clean : ∀ name ∈ names, ¬ holdsNull (w.session.resolve name))
    (finite : ∀ name ∈ names, ∃ outcome, w.Reads name outcome)
    (apart : ∀ name ∈ names, w.IsApart .out name) :
    (∃ (outcomes : List (Except Errno Bytes)) (status : Int), outcomes.length = names.length ∧
      (∀ before name after, names = before ++ name :: after → ∃ outcome,
        outcomes[before.length]? = some outcome ∧
        ((showFiles before).run w).Reads name outcome ∧
        (w.IsApart .err name → w.Reads name outcome)) ∧
      Utters (runCat names) w status ⟨World.contents outcomes, w.complaints names outcomes⟩ ∧
      (status = 0 ∨ status = 1) ∧ (status = 1 ↔ ∃ e, .error e ∈ outcomes)) ∧
    ∀ xs ys, names = xs ++ ys →
      ∃ (s t : Int) (said said' : Both Bytes),
        Utters (runCat xs) w s said ∧ Utters (runCat ys) ((showFiles xs).run w) t said' ∧
        Utters (runCat names) w (max s t) (said ++ said') ∧
        ((∀ name ∈ ys, w.IsApart .err name) → Utters (runCat ys) w t said') := by
  have bothApart : ∀ {name}, name ∈ names → w.IsApart .err name → ∀ c, w.IsApart c name := by
    intro name listed fromErrors c
    cases c with
    | out => exact apart name listed
    | err => exact fromErrors
  have yields : ∀ name ∈ names, w.Yields name := by
    intro name listed
    obtain ⟨outcome, reads⟩ := finite name listed
    exact reads.yields (clean name listed)
  constructor
  · refine ⟨w.readInTurn names, catStatus (w.readInTurn names), length_readInTurn accepts yields,
      ?_, ?_, ?_, catStatus_eq_one_iff⟩
    · rintro before name after rfl
      have listed : name ∈ before ++ name :: after := by simp
      obtain ⟨outcome, there, reads, same⟩ := readInTurn_reads accepts
        (fun other isBefore => yields other (List.mem_append_left _ isBefore)) after
        (clean name listed) (finite name listed)
      exact ⟨outcome, there, reads, fun fromErrors => same (bothApart listed fromErrors)⟩
    · rw [← w.shownContents_eq raw]
      exact runCat_utters accepts yields
    · unfold catStatus
      split
      · exact .inl rfl
      · exact .inr rfl
  · rintro xs ys rfl
    have first : ∀ name ∈ xs, w.Yields name :=
      fun name listed => yields name (List.mem_append_left ys listed)
    have second : ∀ name ∈ ys, w.Yields name :=
      fun name listed => yields name (List.mem_append_right xs listed)
    obtain ⟨_, speaks⟩ := (showFiles_utters accepts first).at_run
    have accepts' := speaks.accepts accepts
    have second' : ∀ name ∈ ys, ((showFiles xs).run w).Yields name :=
      fun name listed => speaks.yields_iff.2 (second name listed)
    have others := runCat_utters accepts' second'
    rw [speaks.shownContents_eq, speaks.complaints_eq] at others
    have all := runCat_utters accepts yields
    rw [readInTurn_append accepts first, catStatus_append, World.shownContents_append,
      World.complaints_append (length_readInTurn accepts first).symm, ← Both.append_mk] at all
    refine ⟨_, _, _, _, runCat_utters accepts first, others, all, fun fromErrors => ?_⟩
    -- what the first names come to does not change what the others come to
    have apart' : ∀ name ∈ ys, ∀ c, w.IsApart c name := fun name listed =>
      bothApart (List.mem_append_right xs listed) (fromErrors name listed)
    have same : ((showFiles xs).run w).readInTurn ys = w.readInTurn ys := by
      refine (List.map_inj_right fun _ _ => Option.some.inj).1 ?_
      rw [readInTurn_eq accepts second apart',
        readInTurn_eq accepts' second'
          fun name listed c => speaks.isApart (apart' name listed c)]
      exact List.map_congr_left fun name listed => speaks.readOf_eq (apart' name listed)
    rw [same]
    exact runCat_utters accepts second

/-- A shell in a directory with two files of which one stands in for the standard output. -/
def intoNew : World :=
  let open_ : Access := FileSystem.fullAccess
  { World.oneFile with
    files := ⟨#[.directory open_ FileSystem.root "" [("old", 1), ("new", 2)],
      .file open_ (Utf8.encode "kept").toArray none, .file FileSystem.fileAccess #[] none]⟩
    redirects := ⟨some { path := "/new", node := 2, append := false }, none⟩ }

/-- What `cat old nosuch . old > new` leaves in the file `new`, and what it says on the terminal. -/
theorem runCat_intoNew :
    let names := ["old", "nosuch", ".", "old"]
    intoNew.Accepts ∧ (intoNew.redirects.get .out).isSome ∧
    (∀ name ∈ names, ¬ holdsNull (intoNew.session.resolve name)) ∧
    (∀ name ∈ names, ∃ outcome, intoNew.Reads name outcome) ∧
    (∀ name ∈ names, intoNew.IsApart .out name) ∧
    ∃ outcomes v, runCat names intoNew = .ok 1 v ∧ (∃ e, .error e ∈ outcomes) ∧
      v.closeRedirects.files.contents? 2 = some (World.contents outcomes) ∧
      World.contents outcomes = Utf8.encode "keptkept" ∧
      v.terminals.err.shown = intoNew.complaints names outcomes ∧
      intoNew.complaints names outcomes =
        Utf8.encode "cat: nosuch: No such file or directory\ncat: .: Is a directory\n" := by
  intro names
  have accepts : intoNew.Accepts := by decide
  have stands : (intoNew.redirects.get .out).isSome := rfl
  have clean : ∀ name ∈ names, ¬ holdsNull (intoNew.session.resolve name) := by decide +kernel
  have apart : ∀ name ∈ names, intoNew.IsApart .out name := by decide +kernel
  have finite : ∀ name ∈ names, ∃ outcome, intoNew.Reads name outcome := by
    intro name listed
    simp only [names, List.mem_cons, List.not_mem_nil, or_false] at listed
    rcases listed with rfl | rfl | rfl | rfl
    · exact ⟨_, .file rfl rfl⟩
    · exact ⟨.error .noEntry, .unreachable rfl⟩
    · exact ⟨_, .directory rfl⟩
    · exact ⟨_, .file rfl rfl⟩
  obtain ⟨⟨outcomes, status, _, _, ⟨v, ran, speaks⟩, _, fails⟩, _⟩ :=
    runCat_concatenates accepts (.inr stands) clean finite apart
  have tried : runCat names intoNew = .ok 1 ((runCat names).run intoNew) ∧
      ((runCat names).run intoNew).closeRedirects.files.contents? 2 =
        some (Utf8.encode "keptkept") ∧
      ((runCat names).run intoNew).terminals.err.shown =
        Utf8.encode "cat: nosuch: No such file or directory\ncat: .: Is a directory\n" := by
    decide +kernel
  obtain ⟨rfl, rfl⟩ := EStateM.Result.ok.inj (tried.1.symm.trans ran)
  have fresh : intoNew.OpensFresh := by
    intro c file stands
    cases c with
    | out =>
      cases stands
      exact ⟨rfl, rfl, rfl, fun _ data holds => (Option.some.inj holds).symm⟩
    | err => cases stands
  have alone : ∀ d, d ≠ .out → intoNew.isIn 2 d = false := by
    intro d other
    cases d with
    | out => exact absurd rfl other
    | err => rfl
  have inFile := speaks.inFile fresh (rfl : intoNew.files.contents? 2 = some []) rfl alone
  obtain ⟨shown, _, grown, same⟩ := speaks.onTerminal (c := .err) rfl
  have said := grown.trans (same (.inr rfl))
  exact ⟨accepts, stands, clean, finite, apart, outcomes, _, ran, fails.1 rfl, inFile,
    Option.some.inj (inFile.symm.trans tried.2.1), said, said.symm.trans tried.2.2⟩

end Builtin

end LineShell
