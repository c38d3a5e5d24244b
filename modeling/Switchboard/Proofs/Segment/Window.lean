import Switchboard.Segment.Window
set_option autoImplicit false

/-! # The window as a bounded queue

Seen through `Window.toList`, pushing a byte appends it and, when the window is full, takes the
oldest byte off; what old bytes the unused cells hold does not matter. `Window.WellFormed` is the
invariant under which this is so: every rank is stored in a cell of its own. -/

namespace Switchboard

namespace Window

/-- The window has so many cells, `start` is one of them, and no more bytes are held than there are
cells. -/
structure WellFormed (n : Nat) (w : Window) : Prop where
  capacity_eq : w.capacity = n
  start_lt : w.start < n
  size_le : w.size ≤ n

theorem wellFormed_ofCapacity {n : Nat} (hn : 0 < n) : (ofCapacity n).WellFormed n :=
  ⟨by simp [ofCapacity, capacity], hn, Nat.zero_le n⟩

theorem toList_ofCapacity (n : Nat) : (ofCapacity n).toList = [] := rfl

theorem toList_clear (w : Window) : w.clear.toList = [] := rfl

theorem length_toList (w : Window) : w.toList.length = w.size := by simp [toList]

section

variable {n : Nat} {w : Window} (h : w.WellFormed n)

include h

theorem WellFormed.pos : 0 < n := Nat.lt_of_le_of_lt (Nat.zero_le _) h.start_lt

theorem WellFormed.clear : w.clear.WellFormed n := ⟨h.capacity_eq, h.pos, Nat.zero_le n⟩

/-! ## Cells -/

/-- Ranks run around the ring at most once. -/
theorem cellOf_eq {rank : Nat} (hrank : rank ≤ n) :
    w.cellOf rank = if w.start + rank < n then w.start + rank else w.start + rank - n := by
  have hstart := h.start_lt
  rw [cellOf, h.capacity_eq]
  split
  · exact Nat.mod_eq_of_lt ‹_›
  · rw [Nat.mod_eq_sub_mod (by omega)]
    exact Nat.mod_eq_of_lt (by omega)

theorem cellOf_lt (rank : Nat) : w.cellOf rank < w.cells.size := by
  have hcapacity : w.cells.size = n := h.capacity_eq
  rw [cellOf, h.capacity_eq, hcapacity]
  exact Nat.mod_lt _ h.pos

/-- Different ranks have different cells. -/
theorem cellOf_ne {first second : Nat} (hlt : first < second) (hsecond : second < n) :
    w.cellOf first ≠ w.cellOf second := by
  have hstart := h.start_lt
  rw [cellOf_eq h (by omega), cellOf_eq h (by omega)]
  split <;> split <;> omega

theorem cellOf_zero : w.cellOf 0 = w.start := by
  have hstart := h.start_lt
  rw [cellOf_eq h (Nat.zero_le n)]
  split <;> omega

/-! ## Pushing -/

/-- A window that is not full takes the byte into its next cell. -/
theorem push_of_lt (hsize : w.size < n) (byte : UInt8) :
    w.push byte =
      (⟨w.cells.setIfInBounds (w.cellOf w.size) byte, w.start, w.size + 1⟩, none) := by
  rw [push, if_neg (by rw [h.capacity_eq]; omega)]

/-- A full window puts the byte in the place of its oldest one. -/
theorem push_of_eq (hsize : w.size = n) (byte : UInt8) :
    w.push byte =
      (⟨w.cells.setIfInBounds w.start byte, (w.start + 1) % n, w.size⟩, some (w.byteAt 0)) := by
  rw [push, if_pos (by rw [h.capacity_eq, hsize]), h.capacity_eq, byteAt, cellOf_zero h]

theorem WellFormed.push (byte : UInt8) : (w.push byte).1.WellFormed n := by
  have hcapacity : w.cells.size = n := h.capacity_eq
  have hsize := h.size_le
  rcases Nat.lt_or_eq_of_le hsize with hlt | heq
  · rw [push_of_lt h hlt]
    exact ⟨by simpa [capacity] using hcapacity, h.start_lt, hlt⟩
  · rw [push_of_eq h heq]
    exact ⟨by simpa [capacity] using hcapacity, Nat.mod_lt _ h.pos, hsize⟩

end

/-- Writing into another cell leaves a byte as it is. -/
theorem byteAt_setIfInBounds_ne {cells : Array UInt8} {start size cell rank : Nat} {byte : UInt8}
    (hne : cell ≠ (start + rank) % cells.size) :
    byteAt ⟨cells.setIfInBounds cell byte, start, size⟩ rank =
      byteAt ⟨cells, start, size⟩ rank := by
  simp only [byteAt, cellOf, capacity, Array.size_setIfInBounds]
  rw [Array.getD_eq_getD_getElem?, Array.getElem?_setIfInBounds_ne hne,
    ← Array.getD_eq_getD_getElem?]

theorem byteAt_setIfInBounds_self {cells : Array UInt8} {start size rank : Nat} {byte : UInt8}
    (hlt : (start + rank) % cells.size < cells.size) :
    byteAt ⟨cells.setIfInBounds ((start + rank) % cells.size) byte, start, size⟩ rank = byte := by
  simp only [byteAt, cellOf, capacity, Array.size_setIfInBounds]
  rw [Array.getD_eq_getD_getElem?, Array.getElem?_setIfInBounds_self_of_lt hlt, Option.getD_some]

section

variable {n : Nat} {w : Window} (h : w.WellFormed n)

include h

/-- **A window that is not full appends the byte.** -/
theorem toList_push_of_lt (hsize : w.size < n) (byte : UInt8) :
    (w.push byte).1.toList = w.toList ++ [byte] := by
  rw [push_of_lt h hsize]
  simp only [toList, List.range_succ, List.map_append, List.map_cons, List.map_nil]
  congr 1
  · refine List.map_congr_left fun rank hrank => ?_
    exact byteAt_setIfInBounds_ne (cellOf_ne h (List.mem_range.mp hrank) hsize).symm
  · exact congrArg (fun byte => [byte]) (byteAt_setIfInBounds_self (cellOf_lt h w.size))

/-- Once `start` has moved on, every byte has the rank before its old one. -/
theorem cellOf_next (cells : Array UInt8) (hcells : cells.size = n) (rank : Nat) :
    cellOf ⟨cells, (w.start + 1) % n, w.size⟩ rank = w.cellOf (rank + 1) := by
  rw [cellOf, cellOf, h.capacity_eq, capacity, hcells, Nat.mod_add_mod]
  congr 1
  omega

/-- **A full window appends the byte and takes its oldest one off.** -/
theorem toList_push_of_eq (hsize : w.size = n) (byte : UInt8) :
    (w.push byte).1.toList = w.toList.tail ++ [byte] := by
  obtain ⟨m, rfl⟩ := Nat.exists_eq_succ_of_ne_zero (Nat.pos_iff_ne_zero.mp h.pos)
  have hcells : w.cells.size = m + 1 := h.capacity_eq
  have hcells' : (w.cells.setIfInBounds w.start byte).size = m + 1 := by simpa using hcells
  have hfirst : w.start = w.cellOf 0 := (cellOf_zero h).symm
  have hwrap : w.cellOf (m + 1) = w.start := by
    have hstart := h.start_lt
    rw [cellOf_eq h (Nat.le_refl _)]
    split <;> omega
  have htail : w.toList.tail = (List.range m).map fun rank => w.byteAt (rank + 1) := by
    rw [toList, hsize, Nat.succ_eq_add_one, List.range_succ_eq_map, List.map_cons, List.tail_cons,
      List.map_map]
    rfl
  rw [push_of_eq h hsize, htail, toList]
  simp only [hsize, Nat.succ_eq_add_one, List.range_succ, List.map_append, List.map_cons,
    List.map_nil]
  congr 1
  · refine List.map_congr_left fun rank hrank => ?_
    have hne := cellOf_ne h (Nat.succ_pos rank) (Nat.succ_lt_succ (List.mem_range.mp hrank))
    have hcell := cellOf_next h _ hcells' rank
    rw [hsize] at hcell
    rw [byteAt, hcell, byteAt, Array.getD_eq_getD_getElem?,
      Array.getElem?_setIfInBounds_ne (by rwa [hfirst]), ← Array.getD_eq_getD_getElem?]
  · have hcell := cellOf_next h _ hcells' m
    rw [hsize, hwrap] at hcell
    rw [byteAt, hcell, Array.getD_eq_getD_getElem?,
      Array.getElem?_setIfInBounds_self_of_lt (by rw [hcells]; exact h.start_lt), Option.getD_some]

/-- The byte that a full window gives up is the oldest one. -/
theorem push_displaces (hsize : w.size = n) (byte : UInt8) :
    ∃ oldest, (w.push byte).2 = some oldest ∧ w.toList = oldest :: w.toList.tail := by
  obtain ⟨m, rfl⟩ := Nat.exists_eq_succ_of_ne_zero (Nat.pos_iff_ne_zero.mp h.pos)
  refine ⟨w.byteAt 0, by rw [push_of_eq h hsize], ?_⟩
  simp only [toList, hsize, List.range_succ_eq_map, List.map_cons, List.tail_cons]

theorem push_keeps (hsize : w.size < n) (byte : UInt8) : (w.push byte).2 = none := by
  rw [push_of_lt h hsize]

/-- **The latest bytes stay the latest bytes** when one more comes. -/
theorem WellFormed.toList_push {bytes : Bytes} (hlatest : w.toList = bytes.drop (bytes.length - n))
    (byte : UInt8) :
    (w.push byte).1.toList = (bytes ++ [byte]).drop ((bytes ++ [byte]).length - n) := by
  have hpos := h.pos
  have hsize : w.size = bytes.length - (bytes.length - n) := by
    rw [← length_toList, hlatest, List.length_drop]
  rw [List.length_append, List.length_singleton]
  rcases Nat.lt_or_ge bytes.length n with hlt | hge
  · -- everything that has come fits into the window
    have hnothing : bytes.length - n = 0 := by omega
    have hnothing' : bytes.length + 1 - n = 0 := by omega
    rw [toList_push_of_lt h (by omega), hlatest, hnothing, hnothing', List.drop_zero,
      List.drop_zero]
  · have hnext : bytes.length + 1 - n = bytes.length - n + 1 := by omega
    rw [toList_push_of_eq h (by omega), hlatest, List.tail_drop, hnext,
      List.drop_append_of_le_length (by omega)]

/-! ## Matching -/

omit h in
theorem matchesFrom_iff (w : Window) (rank : Nat) (pattern : Bytes) :
    w.matchesFrom rank pattern = true ↔
      (List.range' rank pattern.length).map w.byteAt = pattern := by
  induction pattern generalizing rank with
  | nil => simp [matchesFrom]
  | cons byte pattern ih =>
    simp only [matchesFrom, Bool.and_eq_true, beq_iff_eq, ih, List.length_cons, List.range'_succ,
      List.map_cons, List.cons.injEq]

/-- **A window matches a pattern when it is full and holds exactly that.** -/
theorem matches?_iff (pattern : Bytes) :
    w.matches? pattern = true ↔ w.size = n ∧ w.toList = pattern := by
  simp only [matches?, Bool.and_eq_true, beq_iff_eq, h.capacity_eq, matchesFrom_iff, toList,
    List.range_eq_range']
  constructor
  · rintro ⟨⟨hsize, hlength⟩, hbytes⟩
    rw [hlength, ← hsize] at hbytes
    exact ⟨hsize, hbytes⟩
  · rintro ⟨hsize, hbytes⟩
    have hlength : pattern.length = n := by rw [← hbytes]; simpa using hsize
    rw [hlength, ← hsize]
    exact ⟨⟨rfl, rfl⟩, hbytes⟩

end

end Window

end Switchboard
