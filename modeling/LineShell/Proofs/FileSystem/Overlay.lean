import LineShell.FileSystem.Edit

/-!
# Bytes over other bytes

What a file holds after bytes were written to it at some place. Two writes of which one goes on
where the other one has ended come to a single one.

Main statements: `overlaid_overlaid` and `overlaid_length`.
-/

namespace LineShell.FileSystem

/-- `data` with `bytes` in place of what stands from `start` on. Writing nothing changes nothing,
not even where `start` is behind the end. -/
def overlaid (data : Bytes) (start : Nat) (bytes : Bytes) : Bytes :=
  if bytes = [] then data else (overlay data.toArray start bytes).toList

@[simp] theorem overlaid_nil (data : Bytes) (start : Nat) : overlaid data start [] = data :=
  if_pos rfl

/-- What stands before the place of a write, with zeros in a gap. -/
def before (data : Bytes) (start : Nat) : Bytes :=
  data.take start ++ List.replicate (start - data.length) 0

theorem length_before (data : Bytes) (start : Nat) : (before data start).length = start := by
  simp only [before, List.length_append, List.length_take, List.length_replicate]
  omega

theorem overlaid_eq {bytes : Bytes} (some : bytes ≠ []) (data : Bytes) (start : Nat) :
    overlaid data start bytes = before data start ++ bytes ++ data.drop (start + bytes.length) := by
  have rest : List.take (data.length - (start + bytes.length))
      (data.drop (start + bytes.length)) = data.drop (start + bytes.length) := by
    rw [← List.length_drop, List.take_length]
  simp [overlaid, overlay, before, some, rest]

/-- At the end nothing is replaced. -/
theorem overlaid_length (data bytes : Bytes) : overlaid data data.length bytes = data ++ bytes := by
  by_cases none : bytes = []
  · simp [none]
  · have ending := overlay_size data.toArray bytes
    rw [List.size_toArray] at ending
    simp [overlaid, none, ending]

theorem overlaid_overlaid (data : Bytes) (start : Nat) (bytes more : Bytes) :
    overlaid (overlaid data start bytes) (start + bytes.length) more =
      overlaid data start (bytes ++ more) := by
  by_cases none : bytes = []
  · simp [none]
  by_cases noMore : more = []
  · simp [noMore]
  have both : bytes ++ more ≠ [] := by simp [none]
  -- all up to the end of the first write is as that one has left it
  have front : (before data start ++ bytes).length = start + bytes.length := by
    rw [List.length_append, length_before]
  have kept : before (overlaid data start bytes) (start + bytes.length) =
      before data start ++ bytes := by
    have gap : start + bytes.length - (overlaid data start bytes).length = 0 := by
      rw [overlaid_eq none, List.length_append, front]
      omega
    rw [before, gap, overlaid_eq none, List.take_left' front]
    simp
  have rest : (overlaid data start bytes).drop (start + bytes.length + more.length) =
      data.drop (start + (bytes ++ more).length) := by
    have passed : (before data start ++ bytes).length ≤ start + bytes.length + more.length := by
      rw [front]
      omega
    rw [overlaid_eq none, List.drop_append, List.drop_eq_nil_of_le passed, front,
      Nat.add_sub_cancel_left, List.drop_drop, List.length_append, List.nil_append, Nat.add_assoc]
  rw [overlaid_eq noMore, overlaid_eq both, kept, rest]
  simp

end LineShell.FileSystem
