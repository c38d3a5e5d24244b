import Mathlib.Data.List.Induction
import Switchboard.Proofs.Segment.Latest
import Switchboard.Proofs.Segment.Streaming
set_option autoImplicit false

/-! # A splitter that starts over

Two splitters whose windows hold the same bytes do the same, whatever the cells of their windows
contain besides (`Splitter.SameView`). When the input of a splitter was ended, when a segment was
given up and when a chunk ends with a delimiter, the window holds nothing, so that the splitter is
as good as new (`Splitter.AsNew`), and at no other time it is. -/

namespace Switchboard

namespace Window

section

variable {n : Nat} {w w' : Window} (h : w.WellFormed n) (h' : w'.WellFormed n)
  (hsame : w.toList = w'.toList)

include h in
/-- What a window holds after a byte depends on what it held before. -/
theorem toList_push (byte : UInt8) :
    (w.push byte).1.toList = (w.toList ++ [byte]).drop ((w.toList ++ [byte]).length - n) := by
  have hsize := h.size_le
  refine h.toList_push ?_ byte
  rw [length_toList, Nat.sub_eq_zero_of_le hsize, List.drop_zero]

include h h' hsame

theorem toList_push_congr (byte : UInt8) :
    (w.push byte).1.toList = (w'.push byte).1.toList := by
  rw [toList_push h, toList_push h', hsame]

theorem displaced_congr (byte : UInt8) : (w.push byte).2 = (w'.push byte).2 := by
  refine Option.ext fun oldest => ?_
  rw [push_displaces_iff h, push_displaces_iff h', hsame]

theorem matches?_congr (pattern : Bytes) : w.matches? pattern = w'.matches? pattern := by
  rw [Bool.eq_iff_iff, matches?_iff h, matches?_iff h', ← length_toList, ← length_toList, hsame]

end

end Window

namespace Splitter

/-! ## The same view -/

/-- Two splitters differ at most in those cells of their windows that are not in use, and in where
their windows begin. -/
structure SameView (s t : Splitter) : Prop where
  delimiter_eq : s.delimiter = t.delimiter
  wellFormed_left : s.window.WellFormed s.delimiter.length
  wellFormed_right : t.window.WellFormed s.delimiter.length
  toList_eq : s.window.toList = t.window.toList
  buffer_eq : s.buffer = t.buffer

namespace SameView

variable {s t : Splitter}

theorem bufferAfter_eq (h : s.SameView t) (byte : UInt8) :
    s.bufferAfter byte = t.bufferAfter byte := by
  rw [bufferAfter, bufferAfter, h.buffer_eq,
    Window.displaced_congr h.wellFormed_left h.wellFormed_right h.toList_eq]

/-- A window that is cleared holds nothing, whatever it held. -/
theorem cleared (hdelimiter : s.delimiter = t.delimiter) {w w' : Window}
    (hw : w.WellFormed s.delimiter.length) (hw' : w'.WellFormed s.delimiter.length) :
    SameView ⟨s.delimiter, w.clear, #[]⟩ ⟨t.delimiter, w'.clear, #[]⟩ :=
  ⟨hdelimiter, hw.clear, hw'.clear, rfl, rfl⟩

theorem pushByte (h : s.SameView t) (byte : UInt8) :
    (s.pushByte byte).1.SameView (t.pushByte byte).1 ∧
      (s.pushByte byte).2 = (t.pushByte byte).2 := by
  have hleft := h.wellFormed_left.push byte
  have hright := h.wellFormed_right.push byte
  have hview := Window.toList_push_congr h.wellFormed_left h.wellFormed_right h.toList_eq byte
  have hmatches := Window.matches?_congr hleft hright hview s.delimiter
  rw [pushByte_eq, pushByte_eq, ← h.delimiter_eq, ← hmatches, ← h.bufferAfter_eq]
  split
  · exact ⟨cleared rfl hleft hright, rfl⟩
  · exact ⟨⟨rfl, hleft, hright, hview, rfl⟩, rfl⟩

theorem pushBytes (h : s.SameView t) (chunk : Bytes) :
    (s.pushBytes chunk).1.SameView (t.pushBytes chunk).1 ∧
      (s.pushBytes chunk).2 = (t.pushBytes chunk).2 := by
  induction chunk generalizing s t with
  | nil => exact ⟨h, rfl⟩
  | cons byte chunk ih =>
    obtain ⟨hview, hpiece⟩ := h.pushByte byte
    obtain ⟨hview', hpieces⟩ := ih hview
    rw [pushBytes_cons, pushBytes_cons, hpiece, hpieces]
    exact ⟨hview', rfl⟩

theorem flush (h : s.SameView t) : s.flush.1.SameView t.flush.1 ∧ s.flush.2 = t.flush.2 := by
  rw [Splitter.flush, Splitter.flush, ← h.buffer_eq]
  split
  · exact ⟨h, rfl⟩
  · exact ⟨⟨h.delimiter_eq, h.wellFormed_left, h.wellFormed_right, h.toList_eq, rfl⟩, rfl⟩

theorem push (h : s.SameView t) (chunk : Bytes) :
    (s.push chunk).1.SameView (t.push chunk).1 ∧ (s.push chunk).2 = (t.push chunk).2 := by
  obtain ⟨hview, hpieces⟩ := h.pushBytes chunk
  obtain ⟨hview', hmore⟩ := hview.flush
  refine ⟨hview', ?_⟩
  rw [Splitter.push, Splitter.push]
  simp only [hpieces, hmore]

/-- **The same is done** with the same input. -/
theorem take (h : s.SameView t) (input : SplitterInput) :
    (s.take input).1.SameView (t.take input).1 ∧ (s.take input).2 = (t.take input).2 := by
  cases input with
  | chunk bytes => exact h.push bytes
  | finish =>
    refine ⟨cleared h.delimiter_eq h.wellFormed_left h.wellFormed_right, ?_⟩
    rw [Splitter.take, Splitter.take, finish, finish, h.buffer_eq, h.toList_eq]
  | giveUp => exact ⟨cleared h.delimiter_eq h.wellFormed_left h.wellFormed_right, rfl⟩

theorem takeAll (h : s.SameView t) (inputs : List SplitterInput) :
    (s.takeAll inputs).2 = (t.takeAll inputs).2 := by
  induction inputs generalizing s t with
  | nil => rfl
  | cons input rest ih =>
    obtain ⟨hview, hpieces⟩ := h.take input
    rw [Splitter.takeAll, Splitter.takeAll]
    simp only [hpieces, ih hview]

end SameView

/-! ## What has arrived -/

/-- What has arrived since the input was last ended or a segment given up, after one more input. -/
def arrivedAfter (arrived : Bytes) : SplitterInput → Bytes
  | .chunk bytes => arrived ++ bytes
  | .finish => []
  | .giveUp => []

/-- What has arrived since the input was last ended or a segment given up. -/
def arrivedSince (history : List SplitterInput) : Bytes := history.foldl arrivedAfter []

theorem arrivedSince_concat (history : List SplitterInput) (input : SplitterInput) :
    arrivedSince (history ++ [input]) = arrivedAfter (arrivedSince history) input := by
  rw [arrivedSince, List.foldl_append]
  rfl

/-- The history of a splitter leaves it with nothing of a segment: it has just begun, its input was
ended, a segment was given up, or the last chunk ends with a delimiter, so that the last segment of
what has arrived is empty. -/
inductive StartsOver (delimiter : Bytes) : List SplitterInput → Prop where
  | begins : StartsOver delimiter []
  | finish (before : List SplitterInput) : StartsOver delimiter (before ++ [.finish])
  | giveUp (before : List SplitterInput) : StartsOver delimiter (before ++ [.giveUp])
  | chunk (before : List SplitterInput) {bytes : Bytes} {completed : List Bytes}
      (hsplit : LeftmostSplit delimiter (arrivedSince before ++ bytes) (completed ++ [[]])) :
      StartsOver delimiter (before ++ [.chunk bytes])

/-- **As good as new.** Nothing is held, whatever comes next has the pieces that it has with the new
splitter, and so it has whatever the cells of the window contain. -/
structure AsNew (fresh s : Splitter) : Prop where
  delimiter_eq : s.delimiter = fresh.delimiter
  toList_eq : s.window.toList = []
  buffer_eq : s.buffer = #[]
  takeAll_eq : ∀ later, (s.takeAll later).2 = (fresh.takeAll later).2
  takeAll_stale : ∀ cells : Array UInt8, cells.size = s.window.cells.size → ∀ later,
    (takeAll { s with window := { s.window with cells := cells } } later).2 =
      (fresh.takeAll later).2

section

variable {delimiter : Bytes} {fresh : Splitter}

/-- What a splitter holds after any history. -/
theorem holds_takeAll (hfresh : ofDelimiter? delimiter = .ok fresh) (history : List SplitterInput) :
    ∃ completed opened delivered, (fresh.takeAll history).1.Holds delimiter opened delivered ∧
      (fresh.takeAll history).1.buffer = #[] ∧
      ∀ rest, splitLeftmost delimiter (arrivedSince history ++ rest) =
        completed ++ splitLeftmost delimiter (opened ++ rest) := by
  -- From the end: the last input decides what was held before it.
  induction history using List.reverseRecOn with
  | nil =>
    exact ⟨[], [], [], holds_ofDelimiter? hfresh, (blank_ofDelimiter? hfresh).2, fun _ => rfl⟩
  | append_singleton history input ih =>
    obtain ⟨completed, opened, delivered, hholds, -, hsplit⟩ := ih
    rw [takeAll_append, arrivedSince_concat]
    cases input with
    | chunk bytes =>
      obtain ⟨opened', delivered', hholds', hbuffer, hadvances⟩ := hholds.push bytes
      refine ⟨completed ++ (joinPieces delivered ((fresh.takeAll history).1.push bytes).2).1,
        opened', delivered', hholds', hbuffer, fun rest => ?_⟩
      rw [arrivedAfter, List.append_assoc, hsplit, ← List.append_assoc opened, hadvances.split_eq,
        ← List.append_assoc]
    | finish => exact ⟨[], [], [], hholds.restart hholds.wellFormed, rfl, fun _ => rfl⟩
    | giveUp => exact ⟨[], [], [], hholds.restart hholds.wellFormed, rfl, fun _ => rfl⟩

/-- Nothing has arrived of the last segment. -/
theorem StartsOver.split (hd : delimiter ≠ []) {history : List SplitterInput}
    (h : StartsOver delimiter history) :
    ∃ completed, LeftmostSplit delimiter (arrivedSince history) (completed ++ [[]]) := by
  have hempty : LeftmostSplit delimiter [] ([] ++ [[]]) := .last fun h => hd (List.infix_nil.mp h)
  cases h with
  | begins => exact ⟨[], hempty⟩
  | finish before => exact ⟨[], by rwa [arrivedSince_concat]⟩
  | giveUp before => exact ⟨[], by rwa [arrivedSince_concat]⟩
  | chunk before hsplit => exact ⟨_, by rwa [arrivedSince_concat]⟩

/-- A splitter that holds nothing is as good as a new one. -/
theorem Holds.asNew {s : Splitter} {delivered : Bytes} (h : s.Holds delimiter [] delivered)
    (hbuffer : s.buffer = #[]) (hfresh : ofDelimiter? delimiter = .ok fresh) : AsNew fresh s := by
  have hnew := holds_ofDelimiter? hfresh
  obtain ⟨hfreshNothing, hfreshBuffer⟩ := blank_ofDelimiter? hfresh
  have hnothing := h.toList_eq_nil
  have hsize : s.window.size = 0 := by rw [← Window.length_toList, hnothing, List.length_nil]
  have hview : ∀ cells : Array UInt8, cells.size = s.window.cells.size →
      SameView { s with window := { s.window with cells := cells } } fresh := by
    intro cells hcells
    have hcapacity : s.window.cells.size = delimiter.length := h.wellFormed.capacity_eq
    refine ⟨h.delimiter_eq.trans hnew.delimiter_eq.symm, ?_, ?_, ?_, ?_⟩
    · rw [h.delimiter_eq]
      exact ⟨hcells.trans hcapacity, h.wellFormed.start_lt, h.wellFormed.size_le⟩
    · rw [h.delimiter_eq]
      exact hnew.wellFormed
    · rw [hfreshNothing, Window.toList, hsize]
      rfl
    · exact hbuffer.trans hfreshBuffer.symm
  refine ⟨h.delimiter_eq.trans hnew.delimiter_eq.symm, hnothing, hbuffer, ?_, ?_⟩
  · exact (hview s.window.cells rfl).takeAll
  · exact fun cells hcells => (hview cells hcells).takeAll

end

/-- **When a splitter is as good as new.** After a history that leaves nothing of a segment,
whatever comes next has the pieces that it has with a new splitter; and only then, as otherwise
ending the input shows what was left. -/
theorem takeAll_asNew {delimiter : Bytes} (hd : delimiter ≠ []) :
    ∃ fresh, ofDelimiter? delimiter = .ok fresh ∧ ∀ history : List SplitterInput,
      (StartsOver delimiter history → AsNew fresh (fresh.takeAll history).1) ∧
      ((∀ later, ((fresh.takeAll history).1.takeAll later).2 = (fresh.takeAll later).2) →
        StartsOver delimiter history) := by
  obtain ⟨fresh, hfresh⟩ : ∃ fresh, ofDelimiter? delimiter = .ok fresh := ⟨_, if_neg hd⟩
  refine ⟨fresh, hfresh, fun history => ?_⟩
  obtain ⟨completed, opened, delivered, hholds, hbuffer, hsplit⟩ := holds_takeAll hfresh history
  have hopened := leftmostSplit_of_opened hd hholds.free hsplit
  constructor
  · intro hover
    obtain ⟨segments, hsegments⟩ := hover.split hd
    have hlast := (hsegments.eq_splitLeftmost hd).trans (hopened.eq_splitLeftmost hd).symm
    obtain rfl : [] = opened := by simpa using (List.append_inj' hlast rfl).2
    exact hholds.asNew hbuffer hfresh
  · intro hsame
    -- Ending the input gives what the window holds, and a new one holds nothing.
    have hnothing : (fresh.takeAll history).1.window.toList = [] := by
      have hpieces := hsame [.finish]
      obtain ⟨hwindow, hempty⟩ := blank_ofDelimiter? hfresh
      simpa [takeAll, take, finish, hbuffer, hwindow, hempty] using hpieces
    rw [hholds.window_eq, List.drop_eq_nil_iff] at hnothing
    have hpos := hholds.wellFormed.pos
    obtain rfl : opened = [] := List.eq_nil_of_length_eq_zero (by omega)
    cases history using List.reverseRecOn with
    | nil => exact .begins
    | append_singleton before input =>
      cases input with
      | chunk bytes => exact .chunk before (by rwa [arrivedSince_concat] at hopened)
      | finish => exact .finish before
      | giveUp => exact .giveUp before

/-- A chunk ends with the delimiter after the ring has gone round; what is left in the cells could
complete a delimiter with the next byte. -/
theorem takeAll_asNew_delimiter :
    ([1, 2] : Bytes) ≠ [] ∧ ∃ fresh, ofDelimiter? [1, 2] = .ok fresh ∧
      StartsOver [1, 2] ([.chunk [1]] ++ [.chunk [1, 2]]) ∧
      AsNew fresh (fresh.takeAll ([.chunk [1]] ++ [.chunk [1, 2]])).1 ∧
      (fresh.takeAll ([.chunk [1]] ++ [.chunk [1, 2]])).1.window.cells = #[2, 1] ∧
      ((fresh.takeAll ([.chunk [1]] ++ [.chunk [1, 2]])).1.takeAll [.chunk [2], .finish]).2 =
        [[], [⟨[2], true⟩]] := by
  obtain ⟨fresh, hfresh, hnew⟩ := takeAll_asNew (show ([1, 2] : Bytes) ≠ [] by decide)
  have hover : StartsOver [1, 2] ([.chunk [1]] ++ [.chunk [1, 2]]) := by
    have hsplit : LeftmostSplit [1, 2] ([1] ++ [1, 2] ++ []) ([[1]] ++ [[]]) :=
      .cut (by unfold OccursAt; decide) (.last (by decide))
    exact .chunk _ hsplit
  refine ⟨by decide, fresh, hfresh, hover, (hnew _).1 hover, ?_⟩
  cases hfresh
  decide

end Splitter

end Switchboard
