import LineShell.Proofs.Output

/-!
# Records among the errors

Records that are shown go to the standard error of the shell, also while a file stands in for
the standard error of a command. What a run without that file shows is then a merge
(`Merges`) of what the command said and of the records since (`World.noted`); where records of
the lowest level are hidden (`World.HidesDebug`) it is what the command said
(`Merges.eq_said`, `World.noted_of_hidden`).
-/

namespace LineShell

/-- The bytes `said` and the bytes `noted` come one among the other, each in their order. -/
inductive Merges : Bytes → Bytes → Bytes → Prop
  | nil : Merges [] [] []
  | say {said noted all : Bytes} (merges : Merges said noted all) (bytes : Bytes) :
      Merges (said ++ bytes) noted (all ++ bytes)
  | note {said noted all : Bytes} (merges : Merges said noted all) (bytes : Bytes) :
      Merges said (noted ++ bytes) (all ++ bytes)

theorem Merges.eq_said {said noted all : Bytes} (merges : Merges said noted all)
    (nothing : noted = []) : all = said := by
  induction merges with
  | nil => rfl
  | say _ bytes ih => rw [ih nothing]
  | note _ bytes ih =>
    obtain ⟨before, rfl⟩ := List.append_eq_nil_iff.1 nothing
    rw [ih before, List.append_nil]

/-- What one of two streams says more comes at the end of what both have said. -/
theorem Merges.extend {parts : Both Bytes} {written : Bytes}
    (merges : Merges parts.out parts.err written) (c : Channel) (bytes : Bytes) :
    Merges (parts.set c (parts.get c ++ bytes)).out (parts.set c (parts.get c ++ bytes)).err
      (written ++ bytes) := by
  cases c with
  | out => exact merges.say bytes
  | err => exact merges.note bytes

/-- Two merges one behind the other are one. -/
theorem Merges.append {said noted all said' noted' all' : Bytes} (first : Merges said noted all)
    (second : Merges said' noted' all') : Merges (said ++ said') (noted ++ noted') (all ++ all') := by
  induction second with
  | nil => simpa using first
  | say _ bytes ih =>
    rw [← List.append_assoc, ← List.append_assoc]
    exact ih.say bytes
  | note _ bytes ih =>
    rw [← List.append_assoc, ← List.append_assoc]
    exact ih.note bytes

namespace World

variable {origin mid w v : World} {level : Log.Level} {source : Log.Source} {message : String}

/-- Records of the lowest level are not shown. -/
def HidesDebug (w : World) : Prop :=
  ∀ echo, w.echo = some echo → ¬ echo.least ≤ Log.Level.debug.number

/-- What a record looks like among the errors, if it is shown. -/
def recordLine (w : World) (record : Log.Record) : Bytes :=
  match w.echo with
  | some echo =>
    if echo.least ≤ record.level.number then Utf8.encode (record.line echo.stamp) else []
  | none => []

/-- The records that a world has more than an earlier one, last first. -/
def recordsSince (origin w : World) : List Log.Record :=
  w.records.take (w.records.length - origin.records.length)

/-- What the records since an earlier world have shown on a terminal. -/
def noted (origin w : World) : Channel → Bytes
  | .out => []
  | .err => (origin.recordsSince w).reverse.flatMap w.recordLine

/-- Since an earlier world there are but records of the lowest level. -/
def NotedSince (origin w : World) : Prop :=
  w.echo = origin.echo ∧ origin.records <:+ w.records ∧
    ∀ record ∈ origin.recordsSince w, record.level = .debug

@[simp] theorem recordsSince_self (w : World) : w.recordsSince w = [] := by
  simp [recordsSince]

@[simp] theorem onTerminal_noted (c d : Channel) (f : Terminal → Terminal) :
    origin.noted (w.onTerminal c f) d = origin.noted w d := rfl

@[simp] theorem noted_self (w : World) (c : Channel) : w.noted w c = [] := by
  cases c with
  | out => rfl
  | err => simp [noted]

theorem NotedSince.refl (w : World) : NotedSince w w :=
  ⟨rfl, List.suffix_rfl, by simp⟩

/-! ## One record more -/

theorem recordLine_eq (same : v.echo = w.echo) : v.recordLine = w.recordLine := by
  funext record
  rw [recordLine, recordLine, same]

theorem recordsSince_note (earlier : origin.records <:+ w.records) :
    origin.recordsSince (w.note level source message) =
      ⟨level, source, message⟩ :: origin.recordsSince w := by
  simp only [recordsSince, note_records, List.length_cons]
  rw [Nat.sub_add_comm earlier.length_le, List.take_succ_cons]

theorem NotedSince.note (logs : NotedSince origin w) (source : Log.Source) (message : String) :
    NotedSince origin (w.note .debug source message) := by
  obtain ⟨echo, earlier, lowest⟩ := logs
  refine ⟨by simpa using echo, ?_, ?_⟩
  · rw [note_records]
    exact earlier.trans (List.suffix_cons _ _)
  · intro record listed
    rw [recordsSince_note earlier] at listed
    cases listed with
    | head => rfl
    | tail _ listed => exact lowest record listed

theorem noted_note (earlier : origin.records <:+ w.records) :
    origin.noted (w.note level source message) .err =
      origin.noted w .err ++ w.recordLine ⟨level, source, message⟩ := by
  simp only [noted, recordsSince_note earlier, List.reverse_cons, List.flatMap_append,
    List.flatMap_singleton, recordLine_eq (note_echo w level source message)]

/-- What is noted from one world to a third is noted on the way to the second and from there. -/
theorem noted_trans (first : origin.records <:+ mid.records) (second : mid.records <:+ w.records)
    (echo : w.echo = mid.echo) (c : Channel) :
    origin.noted w c = origin.noted mid c ++ mid.noted w c := by
  cases c with
  | out => rfl
  | err =>
    obtain ⟨earlier, before⟩ := first
    obtain ⟨later, after⟩ := second
    have since : origin.recordsSince mid = earlier := by
      simp [recordsSince, ← before]
    have since' : mid.recordsSince w = later := by
      simp [recordsSince, ← after]
    have all : origin.recordsSince w = later ++ earlier := by
      have length : w.records.length - origin.records.length = (later ++ earlier).length := by
        simp [← after, ← before, ← Nat.add_assoc]
      rw [recordsSince, length, ← after, ← before, ← List.append_assoc, List.take_left]
    rw [noted, noted, noted, since, since', all, recordLine_eq echo, List.reverse_append,
      List.flatMap_append]

/-- Where records are not shown nothing of them is seen. -/
theorem noted_of_echo (same : w.echo = origin.echo) (none : origin.echo = none) (c : Channel) :
    origin.noted w c = [] := by
  cases c with
  | out => rfl
  | err =>
    refine List.flatMap_eq_nil_iff.2 fun record _ => ?_
    simp [recordLine, same, none]

/-- A record that is shown is the last thing on the standard error. -/
theorem shown_note (w : World) : ((w.note level source message).terminals.get .err).shown =
    (w.terminals.get .err).shown ++ w.recordLine ⟨level, source, message⟩ := by
  unfold recordLine
  cases shows : w.echo with
  | none => simp [World.note, shows]
  | some echo =>
    by_cases enough : echo.least ≤ level.number
    · simp [World.note, shows, enough]
    · simp [World.note, shows, enough]

/-- A record that is shown does not wait in a buffer. -/
theorem pending_note {c : Channel} (empty : (w.terminals.get c).pending = []) :
    ((w.note level source message).terminals.get c).pending = [] := by
  simp only [World.note]
  cases w.echo with
  | none => exact empty
  | some echo =>
    dsimp only
    split
    · cases c with
      | out => exact empty
      | err => rfl
    · exact empty

/-- A record does the same to two terminals that are the same. -/
theorem note_terminals_eq {c : Channel} (echo : v.echo = w.echo)
    (same : v.terminals.get c = w.terminals.get c) :
    (v.note level source message).terminals.get c =
      (w.note level source message).terminals.get c := by
  cases c with
  | out => simpa [Both.get] using same
  | err =>
    simp only [World.note, echo]
    cases w.echo with
    | none => exact same
    | some shows =>
      dsimp only
      split
      · simp [same]
      · exact same

/-- Hidden records show nothing. -/
theorem noted_of_hidden (logs : NotedSince origin w) (hides : origin.HidesDebug) (c : Channel) :
    origin.noted w c = [] := by
  obtain ⟨echo, _, lowest⟩ := logs
  cases c with
  | out => rfl
  | err =>
    refine List.flatMap_eq_nil_iff.2 fun record listed => ?_
    have level := lowest record (List.mem_reverse.1 listed)
    unfold recordLine
    rw [echo, level]
    cases shows : origin.echo with
    | none => rfl
    | some echo => exact if_neg (hides echo shows)

end World

end LineShell
