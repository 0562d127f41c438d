import LineShell.Proofs.ReadLoop.Process

/-!
# Wishes about colors

A process has three sources for the looks of its errors: two variables of the environment, of which
`NO_COLOR` wins, and the flag `--color`, which may be given more than once. The flag is looked at
last. So where `NO_COLOR` is set errors are plain as long as the flag is not given, and on a
terminal each of them is highlighted as soon as it is. Nothing else depends on it.

Main statement: `start_noColor`.
-/

namespace LineShell

/-! ## The bytes of the colors -/

namespace Said

variable {noted : Log.Record → Bytes} {said : List Said}

def report? : Said → Option String
  | report message => some message
  | _ => none

theorem isNoReport_iff {part : Said} : part.IsNoReport ↔ part.report? = none := by
  cases part <;> simp [IsNoReport, report?]

/-- Nine bytes are added to each error where errors are highlighted. -/
theorem length_flatMap_red (said : List Said) :
    (said.flatMap (bytes World.redError noted)).length =
      (said.flatMap (bytes World.plainError noted)).length +
        9 * (said.filterMap report?).length := by
  induction said with
  | nil => rfl
  | cons part said ih =>
    rw [List.flatMap_cons, List.flatMap_cons, List.length_append, List.length_append, ih]
    cases part with
    | report message =>
      have marks : (Utf8.encode "\x1b[91m").length + (Utf8.encode "\x1b[0m").length = 9 := by decide
      simp only [bytes, World.redError, World.plainError, Utf8.encode_append, List.length_append,
        List.filterMap_cons, report?, List.length_cons]
      omega
    | record kept =>
      simp only [bytes, List.filterMap_cons, report?]
      omega
    | child written =>
      simp only [bytes, List.filterMap_cons, report?]
      omega

/-- Colors are seen as soon as there is an error. -/
theorem flatMap_red_eq_iff : said.flatMap (bytes World.redError noted) =
    said.flatMap (bytes World.plainError noted) ↔ ∀ part ∈ said, part.IsNoReport := by
  constructor
  · intro same part listed
    have lengths := congrArg List.length same
    have none : said.filterMap report? = [] := by
      rw [length_flatMap_red] at lengths
      exact List.length_eq_zero_iff.1 (by omega)
    exact isNoReport_iff.2 (List.filterMap_eq_nil_iff.1 none part listed)
  · intro quiet
    rw [List.flatMap_def, List.flatMap_def]
    refine congrArg List.flatten (List.map_congr_left fun part listed => ?_)
    cases part with
    | report message => cases quiet _ listed
    | record kept => rfl
    | child written => rfl

end Said

/-! ## Flags -/

/-- The flag for colors given `n` times. -/
def colorFlags (n : Nat) : List String :=
  List.replicate n "--color"

theorem readArguments_colorFlags (color : Bool) (n : Nat) :
    CommandLine.readArguments color [] (colorFlags n) = .ok (.run (color || n ≠ 0)) := by
  induction n generalizing color with
  | zero => simp [colorFlags, CommandLine.readArguments]
  | succ n ih =>
    have flag : CommandLine.classify "--color" = .flag .color := by decide
    rw [colorFlags, List.replicate_succ, CommandLine.readArguments, flag]
    simpa [colorFlags] using ih true

/-- The flag asks for the same however often it is given. -/
theorem ofArguments_colorFlags (n : Nat) :
    Invocation.ofArguments (colorFlags n) = .ok (.run (n ≠ 0)) := by
  have options : CommandLine.splitOptions (colorFlags n) = (colorFlags n, []) := by
    simp [CommandLine.splitOptions, colorFlags]
  have clear : CommandLine.ambiguity? (colorFlags n) = none := by
    rw [CommandLine.ambiguity?, List.findSome?_eq_none_iff]
    intro argument listed
    rw [List.eq_of_mem_replicate listed]
    rfl
  rw [Invocation.ofArguments, options]
  simp only [clear, readArguments_colorFlags, Bool.false_or, reduceIte]

namespace World

variable {w : World}

theorem start_colorFlags (w : World) (stamp : String) (n : Nat) (input : String) :
    w.start stamp (colorFlags n) input = w.start stamp (colorArguments (n ≠ 0)) input := by
  simp only [start, ofArguments_colorFlags, ofArguments_colorArguments]

/-! ## Looks -/

/-- Where `NO_COLOR` is set the environment asks for no colors, whatever else it says. -/
theorem settings_colors (forced : (w.session.env.lookup "NO_COLOR").isSome) :
    w.settings.colors = false := by
  obtain ⟨value, present⟩ := Option.isSome_iff_exists.1 forced
  simp [settings, Settings.ofEnvironment, Settings.asksForColors, present]

theorem look_prepare (forced : (w.session.env.lookup "NO_COLOR").isSome) (stamp : String)
    (color : Bool) : (w.prepare stamp color).look =
      Said.bytes (if color && w.console.isTerminal then redError else plainError)
        (w.prepare stamp false).recordLine := by
  have plain := settings_colors forced
  have same : w.prepare stamp color = (w.prepare stamp false).colored color := by
    simp only [prepare, colored, show (Settings.ofEnvironment w.session.env).colors = false from plain,
      Bool.false_or]
  rw [same, look_colored]
  rfl

/-- Where `NO_COLOR` is set, the flag changes nothing but the looks of errors: the process ends with
the same code, in the same state and with the same output, and on the standard error the same is
said. Without the flag no error is highlighted, whatever else the environment asks for. With it each
error is highlighted that is shown on a terminal. -/
theorem start_noColor (forced : (w.session.env.lookup "NO_COLOR").isSome) (stamp : String) (n : Nat)
    (input : String) :
    let plain := w.start stamp [] input
    let flagged := w.start stamp (colorFlags n) input
    let error := if n ≠ 0 ∧ w.console.isTerminal then redError else plainError
    let noted := (w.prepare stamp false).recordLine
    flagged.1 = plain.1 ∧ flagged.2.SameButErrors plain.2 ∧
    ∃ said : List Said,
      plain.2.terminals.err.shown =
        w.terminals.err.shown ++ said.flatMap (Said.bytes plainError noted) ∧
      flagged.2.terminals.err.shown =
        w.terminals.err.shown ++ said.flatMap (Said.bytes error noted) ∧
      (flagged.2.terminals.err.shown = plain.2.terminals.err.shown ↔
        n = 0 ∨ w.console.isTerminal = false ∨ ∀ part ∈ said, part.IsNoReport) := by
  intro plain flagged error noted
  have begins : Tells (w.prepare stamp false) (w.prepare stamp (n ≠ 0)) [] (w.prepare stamp false)
      (w.prepare stamp (n ≠ 0)) := .refl _ _ ⟨⟨rfl, rfl, rfl, rfl⟩, rfl, rfl⟩
  have raw : (w.prepare stamp (n ≠ 0)).console.textOnly =
      (w.prepare stamp false).console.textOnly := rfl
  obtain ⟨said, _, tells⟩ := Telling.readAll ⟨w.settings.prompt, true⟩ raw
    ⟨[], fun _ _ => trivial, begins⟩ (script input)
  have atPlain : plain = _ := w.start_eq stamp false input
  have atFlagged : flagged = _ := (w.start_colorFlags stamp n input).trans (w.start_eq stamp _ input)
  have shown : plain.2.terminals.err.shown =
      w.terminals.err.shown ++ said.flatMap (Said.bytes plainError noted) := by
    rw [atPlain, tells.shown, look_prepare forced stamp false]
    rfl
  have shown' : flagged.2.terminals.err.shown =
      w.terminals.err.shown ++ said.flatMap (Said.bytes error noted) := by
    have looks : (if decide (n ≠ 0) && w.console.isTerminal then redError else plainError) = error := by
      simp [error]
    rw [atFlagged, tells.shown', look_prepare forced stamp (n ≠ 0), looks]
    rfl
  refine ⟨?_, ?_, said, shown, shown', ?_⟩
  · rw [atPlain, atFlagged]
    exact congrArg (·.exit.getD 0) tells.session
  · rw [atPlain, atFlagged]
    exact tells.toSameButErrors
  · rw [shown, shown', List.append_cancel_left_eq]
    by_cases highlighted : n ≠ 0 ∧ w.console.isTerminal
    · have red : error = redError := if_pos highlighted
      rw [red, Said.flatMap_red_eq_iff]
      simp [highlighted]
    · have same : error = plainError := if_neg highlighted
      have looks : n = 0 ∨ w.console.isTerminal = false := by
        simpa [or_iff_not_imp_left] using highlighted
      rw [same]
      exact ⟨fun _ => looks.imp_right .inl, fun _ => rfl⟩

/-- A shell on a terminal, with `NO_COLOR` set. -/
def colorless : World :=
  { bare with
    session := { bare.session with env := [("MINISHELL_COLORS", "1"), ("NO_COLOR", "")] }
    console := { isTerminal := true } }

theorem start_noColor_twice : (colorless.session.env.lookup "NO_COLOR").isSome ∧
    (colorless.start "" [] "nope\n").2.terminals.err.shown =
      Utf8.encode "nope: command not found\n" ∧
    (colorless.start "" (colorFlags 2) "nope\n").1 = 127 ∧
    (colorless.start "" (colorFlags 2) "nope\n").2.SameButErrors
      (colorless.start "" [] "nope\n").2 := by
  have forced : (colorless.session.env.lookup "NO_COLOR").isSome := by decide
  obtain ⟨code, same, _⟩ := start_noColor forced "" 2 "nope\n"
  have plain : (colorless.start "" [] "nope\n").1 = 127 := by decide +kernel
  exact ⟨forced, by decide +kernel, code.trans plain, same⟩

/-- `NO_COLOR` does not force colors off: the flag brings them back. -/
theorem start_noColor_red : (colorless.session.env.lookup "NO_COLOR").isSome ∧
    (colorless.start "" ["--color"] "nope\n").2.terminals.err.shown =
      Utf8.encode "\x1b[91mnope: command not found\x1b[0m\n" ∧
    (colorless.start "" ["--color"] "nope\n").2.terminals.err.shown ≠
      (colorless.start "" [] "nope\n").2.terminals.err.shown := by
  decide +kernel

end World

end LineShell
