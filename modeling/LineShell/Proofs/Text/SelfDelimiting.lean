import Mathlib.Logic.Function.Defs

/-!
# Self-delimiting forms

A way to write values is self-delimiting if every form shows by itself where it ends: whatever
comes after it, the value and the end can be told from the text (`SelfDelimiting`). So the forms can
stand next to each other, and no two values have the same one (`injective`).

Where a form can be one of several kinds, or where any number of forms stand in a row, a mark tells
how to go on. It is enough that no form begins with the mark. Main statements: `option`, `join`
and, for forms with a separator between them, `intercalate`.
-/

namespace LineShell.Text

/-- The form of a value can be told from a text that begins with it, and so can what comes after
it. -/
def SelfDelimiting {α : Type} (write : α → String) : Prop :=
  ∀ ⦃a b : α⦄ ⦃s t : String⦄, write a ++ s = write b ++ t → a = b ∧ s = t

/-- Texts with different characters in front cannot begin the same text. -/
theorem append_ne_append {u v : String} {c d : Char} (first : u.toList.head? = some c)
    (first' : v.toList.head? = some d) (different : c ≠ d) (s t : String) : u ++ s ≠ v ++ t := by
  intro same
  have heads := congrArg (·.toList.head?) same
  simp only [String.toList_append, List.head?_append, first, first', Option.some_or,
    Option.some.injEq] at heads
  exact different heads

/-- Forms with a separator between them are one form, and then separators with a form each. -/
theorem intercalate_cons (sep first : String) (others : List String) :
    sep.intercalate (first :: others) = first ++ String.join (others.map (sep ++ ·)) := by
  induction others generalizing first with
  | nil => simp
  | cons second others ih =>
    rw [String.intercalate_cons_cons, ih, List.map_cons, String.join_cons, String.append_assoc,
      String.append_assoc]

namespace SelfDelimiting

variable {α : Type} {write : α → String} (delimited : SelfDelimiting write)
include delimited

theorem injective : Function.Injective write := by
  intro a b same
  exact (delimited (congrArg (· ++ "") same)).1

/-- The same word before each form changes nothing. -/
theorem after (word : String) : SelfDelimiting fun a => word ++ write a := by
  intro a b s t same
  rw [String.append_assoc, String.append_assoc, String.append_right_inj] at same
  exact delimited same

section
variable {mark : String} (apart : ∀ a s t, mark ++ s ≠ write a ++ t)
include apart

/-- A form, or the mark in its place where there is no value. -/
theorem option : SelfDelimiting fun o : Option α => o.elim mark write := by
  rintro (_ | a) (_ | b) s t same
  · exact ⟨rfl, (String.append_right_inj mark).1 same⟩
  · exact absurd same (apart b s t)
  · exact absurd same.symm (apart a t s)
  · obtain ⟨rfl, rfl⟩ := delimited same
    exact ⟨rfl, rfl⟩

/-- Forms in a row, and the mark after the last one. -/
theorem join : SelfDelimiting fun as : List α => String.join (as.map write) ++ mark := by
  intro as
  induction as with
  | nil =>
    intro bs s t same
    cases bs with
    | nil => exact ⟨rfl, (String.append_right_inj _).1 same⟩
    | cons b bs =>
      simp only [List.map_nil, String.join_nil, String.empty_append, List.map_cons,
        String.join_cons, String.append_assoc] at same
      exact absurd same (apart b _ _)
  | cons a as ih =>
    intro bs s t same
    cases bs with
    | nil =>
      simp only [List.map_nil, String.join_nil, String.empty_append, List.map_cons,
        String.join_cons, String.append_assoc] at same
      exact absurd same.symm (apart a _ _)
    | cons b bs =>
      simp only [List.map_cons, String.join_cons, String.append_assoc] at same
      obtain ⟨rfl, rest⟩ := delimited same
      obtain ⟨rfl, rfl⟩ := ih (by simpa only [String.append_assoc] using rest)
      exact ⟨rfl, rfl⟩

/-- Forms with a separator between neighbours, and the mark after the last one. After a form either
the separator or the mark comes, so these two may not be mistaken for each other either. -/
theorem intercalate {sep : String} (apart' : ∀ s t, mark ++ s ≠ sep ++ t) :
    SelfDelimiting fun as : List α => sep.intercalate (as.map write) ++ mark := by
  have others : SelfDelimiting fun as : List α =>
      String.join (as.map fun a => sep ++ write a) ++ mark := by
    refine (delimited.after sep).join fun a s t => ?_
    rw [String.append_assoc]
    exact apart' s _
  rintro (_ | ⟨a, as⟩) (_ | ⟨b, bs⟩) s t same
  · exact ⟨rfl, (String.append_right_inj _).1 same⟩
  · simp only [List.map_nil, String.intercalate_nil, String.empty_append, List.map_cons,
      intercalate_cons, String.append_assoc] at same
    exact absurd same (apart b _ _)
  · simp only [List.map_nil, String.intercalate_nil, String.empty_append, List.map_cons,
      intercalate_cons, String.append_assoc] at same
    exact absurd same.symm (apart a _ _)
  · simp only [List.map_cons, intercalate_cons, String.append_assoc, List.map_map,
      Function.comp_def] at same
    obtain ⟨rfl, rest⟩ := delimited same
    obtain ⟨rfl, rfl⟩ := others (by simpa only [String.append_assoc] using rest)
    exact ⟨rfl, rfl⟩

end

end SelfDelimiting

end LineShell.Text
