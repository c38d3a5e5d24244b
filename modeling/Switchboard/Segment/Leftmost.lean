import Switchboard.Bytes
set_option autoImplicit false

/-! # The leftmost split

What splitting means: `splitLeftmost delimiter input` cuts a whole input at every occurrence of the
delimiter, looking for the next one right after the one before, from left to right. Streaming
splitters are measured against it. -/

namespace Switchboard

/-- What precedes and what follows the first occurrence of a delimiter. -/
def cutFirst? (delimiter : Bytes) : Bytes → Option (Bytes × Bytes)
  | [] => if delimiter.isEmpty then some ([], []) else none
  | byte :: rest =>
    if delimiter.isPrefixOf (byte :: rest) then some ([], (byte :: rest).drop delimiter.length)
    else (cutFirst? delimiter rest).map fun (before, after) => (byte :: before, after)

/-- What follows the first occurrence is shorter than the input, unless the delimiter is empty. -/
theorem length_of_cutFirst? {delimiter input before after : Bytes} (hd : delimiter ≠ [])
    (h : cutFirst? delimiter input = some (before, after)) : after.length < input.length := by
  induction input generalizing before with
  | nil => simp [cutFirst?, hd] at h
  | cons byte rest ih =>
    rw [cutFirst?] at h
    split at h
    · simp only [Option.some.injEq, Prod.mk.injEq] at h
      obtain ⟨-, rfl⟩ := h
      have : 0 < delimiter.length := List.length_pos_iff.mpr hd
      simp only [List.length_drop, List.length_cons]
      omega
    · simp only [Option.map_eq_some_iff, Prod.mk.injEq, Prod.exists] at h
      obtain ⟨b, a, hcut, -, rfl⟩ := h
      have := ih hcut
      simp only [List.length_cons]
      omega

/-- The segments of an input. There is one more of them than there are occurrences of the
delimiter; the last one may be empty. An empty delimiter occurs nowhere. -/
def splitLeftmost (delimiter : Bytes) (input : Bytes) : List Bytes :=
  if _hd : delimiter = [] then [input]
  else
    match _h : cutFirst? delimiter input with
    | some (before, after) => before :: splitLeftmost delimiter after
    | none => [input]
termination_by input.length
decreasing_by exact length_of_cutFirst? ‹_› ‹_›

end Switchboard
