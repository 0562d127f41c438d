import LineShell.Command
import LineShell.Proofs.Text.Quoted

/-!
# Reading written commands back

The written form of a command is made of quoted texts, lists of them and fixed words. Each part
shows where it ends, and a missing name or redirection is written as a word with which no name
and no redirection begins. So the parts can be told apart one after the other, whatever
commas, brackets and quotes stand in the texts.

Main statement: `describe_inj`, two commands have the same written form only if they are equal.
-/

namespace LineShell.Command

open Text (SelfDelimiting append_ne_append append_ne_quote)

/-! ## Redirections -/

theorem truth_selfDelimiting : SelfDelimiting fun b : Bool => if b then "True" else "False" := by
  rintro (_ | _) (_ | _) s t same
  · exact ⟨rfl, (String.append_right_inj _).1 same⟩
  · exact absurd same (append_ne_append rfl rfl (by decide) s t)
  · exact absurd same (append_ne_append rfl rfl (by decide) s t)
  · exact ⟨rfl, (String.append_right_inj _).1 same⟩

theorem describeRedirect_some (r : Redirect) :
    describeRedirect (some r) = "Redirect(path=" ++ (Text.quote r.path ++ (", append=" ++
      ((if r.append then "True" else "False") ++ ")"))) := by
  unfold describeRedirect
  simp only [String.append_assoc]
  rfl

theorem describeRedirect_some_selfDelimiting :
    SelfDelimiting fun r => describeRedirect (some r) := by
  rintro ⟨path, append⟩ ⟨path', append'⟩ s t same
  simp only [describeRedirect_some, String.append_assoc, String.append_right_inj] at same
  obtain ⟨rfl, afterPath⟩ := Text.quote_selfDelimiting same
  rw [String.append_right_inj] at afterPath
  obtain ⟨rfl, rest⟩ := truth_selfDelimiting afterPath
  exact ⟨rfl, (String.append_right_inj _).1 rest⟩

theorem describeRedirect_selfDelimiting : SelfDelimiting describeRedirect := by
  have written : describeRedirect =
      fun r => r.elim "None" fun r => describeRedirect (some r) := by
    funext r
    cases r <;> rfl
  have apart : ∀ r s t, "None" ++ s ≠ describeRedirect (some r) ++ t := by
    intro r s t
    rw [describeRedirect_some, String.append_assoc]
    exact append_ne_append rfl rfl (by decide) _ _
  rw [written]
  exact describeRedirect_some_selfDelimiting.option apart

/-! ## Commands -/

theorem name_selfDelimiting :
    SelfDelimiting fun name : Option String => name.elim "None" Text.quote :=
  Text.quote_selfDelimiting.option (append_ne_quote rfl (by decide))

theorem describe_eq (c : Command) :
    c.describe = "ParsedCommand(" ++ (c.name.elim "None" Text.quote ++ (", " ++
      (Text.quoteList c.arguments ++ (", stdout=" ++ (describeRedirect c.stdout ++
        (", stderr=" ++ (describeRedirect c.stderr ++ ")"))))))) := by
  obtain ⟨name, arguments, stdout, stderr⟩ := c
  unfold describe
  simp only [String.append_assoc]
  cases name <;> rfl

/-- The parts are read off one after the other. -/
theorem describe_selfDelimiting : SelfDelimiting describe := by
  rintro ⟨name, arguments, stdout, stderr⟩ ⟨name', arguments', stdout', stderr'⟩ s t same
  simp only [describe_eq, String.append_assoc, String.append_right_inj] at same
  obtain ⟨rfl, afterName⟩ := name_selfDelimiting same
  rw [String.append_right_inj] at afterName
  obtain ⟨rfl, afterArguments⟩ := Text.quoteList_selfDelimiting afterName
  rw [String.append_right_inj] at afterArguments
  obtain ⟨rfl, afterOutput⟩ := describeRedirect_selfDelimiting afterArguments
  rw [String.append_right_inj] at afterOutput
  obtain ⟨rfl, rest⟩ := describeRedirect_selfDelimiting afterOutput
  exact ⟨rfl, (String.append_right_inj _).1 rest⟩

/-- Commands are written in the same way if and only if they are equal: in the name, or in not
having one, in all the arguments and in both redirections. -/
theorem describe_inj (c d : Command) : c.describe = d.describe ↔ c = d := by
  constructor
  · intro same
    exact describe_selfDelimiting.injective same
  · rintro rfl
    rfl

/-- A name is not taken for a missing one, whatever it is. -/
example : describe { name := some "None" } ≠ describe { name := none } := by decide +kernel

end LineShell.Command
