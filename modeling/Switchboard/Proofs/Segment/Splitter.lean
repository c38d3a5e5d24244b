import Switchboard.Segment.Splitter
import Switchboard.Proofs.Segment.Leftmost
import Switchboard.Proofs.Segment.Window
set_option autoImplicit false

/-! # The splitter splits leftmost

A splitter sees one byte at a time and remembers only as many bytes as the delimiter has.
`Splitter.Holds` ties its state to the bytes that have arrived since the last delimiter: the window
holds the latest of them, the others have been delivered or are in the buffer, and the delimiter
does not occur among them. One lemma for each operation says how that changes; `Advances` says what
the pieces of the operation add to the segments, for every continuation of the input.

The main result is `run_isLeftmostSplit`: cut into chunks anywhere, even within a delimiter, an
input is delivered as its leftmost split. -/

namespace Switchboard

/-! ## Segments from pieces -/

theorem joinPieces_append (opened : Bytes) (first next : List Piece) :
    joinPieces opened (first ++ next) =
      ((joinPieces opened first).1 ++ (joinPieces (joinPieces opened first).2 next).1,
        (joinPieces (joinPieces opened first).2 next).2) := by
  induction first generalizing opened with
  | nil => rfl
  | cons piece first ih =>
    simp only [List.cons_append, joinPieces]
    split
    · simp only [ih, List.cons_append]
    · exact ih _

/-- What pieces make of a segment of which `opened` has arrived and `delivered` was delivered, when
`input` arrives: they end the segments that `input` completes, `opened'` has arrived of the segment
after those and `delivered'` was delivered of it. -/
structure Advances (delimiter opened delivered input : Bytes) (pieces : List Piece)
    (opened' delivered' : Bytes) : Prop where
  delivered_eq : (joinPieces delivered pieces).2 = delivered'
  split_eq : ∀ rest, splitLeftmost delimiter (opened ++ input ++ rest) =
    (joinPieces delivered pieces).1 ++ splitLeftmost delimiter (opened' ++ rest)

namespace Advances

variable {delimiter opened delivered opened₁ delivered₁ opened₂ delivered₂ input next : Bytes}
variable {pieces more : List Piece}

theorem refl : Advances delimiter opened delivered [] [] opened delivered :=
  ⟨rfl, fun rest => by simp [joinPieces]⟩

theorem trans (h₁ : Advances delimiter opened delivered input pieces opened₁ delivered₁)
    (h₂ : Advances delimiter opened₁ delivered₁ next more opened₂ delivered₂) :
    Advances delimiter opened delivered (input ++ next) (pieces ++ more) opened₂ delivered₂ := by
  refine ⟨?_, fun rest => ?_⟩
  · rw [joinPieces_append, h₁.delivered_eq, h₂.delivered_eq]
  · have hfirst := h₁.split_eq (next ++ rest)
    have hnext := h₂.split_eq rest
    simp only [List.append_assoc] at hfirst hnext ⊢
    rw [joinPieces_append, h₁.delivered_eq, hfirst, hnext, List.append_assoc]

end Advances

namespace Splitter

/-! ## The invariant -/

/-- The splitter splits at this delimiter; `opened` has arrived since the last one, of which
`delivered` was delivered. What is in the window may still belong to a delimiter, everything
before it was delivered or is in the buffer. -/
structure Holds (delimiter opened delivered : Bytes) (s : Splitter) : Prop where
  delimiter_eq : s.delimiter = delimiter
  wellFormed : s.window.WellFormed delimiter.length
  window_eq : s.window.toList = opened.drop (opened.length - delimiter.length)
  buffer_eq : delivered ++ s.buffer.toList = opened.take (opened.length - delimiter.length)
  free : ¬ delimiter <:+: opened

theorem holds_ofDelimiter? {delimiter : Bytes} {s : Splitter}
    (h : ofDelimiter? delimiter = .ok s) : s.Holds delimiter [] [] := by
  rw [ofDelimiter?] at h
  split at h
  · cases h
  · next hd =>
    cases h
    have hpos : 0 < delimiter.length := List.length_pos_iff.mpr hd
    exact ⟨rfl, Window.wellFormed_ofCapacity hpos, by simp [Window.toList_ofCapacity], by simp,
      fun h => hd (List.infix_nil.mp h)⟩

variable {delimiter opened delivered : Bytes} {s : Splitter}

theorem Holds.delimiter_ne_nil (h : s.Holds delimiter opened delivered) : delimiter ≠ [] :=
  List.length_pos_iff.mp h.wellFormed.pos

/-- A splitter that has just ended a segment, with a window and a buffer that are empty. -/
theorem Holds.restart (h : s.Holds delimiter opened delivered) {window : Window}
    (hwindow : window.WellFormed delimiter.length) :
    Holds delimiter [] [] ⟨s.delimiter, window.clear, #[]⟩ :=
  ⟨h.delimiter_eq, hwindow.clear, by simp [Window.toList_clear], by simp,
    fun hempty => h.delimiter_ne_nil (List.infix_nil.mp hempty)⟩

theorem Holds.size_eq (h : s.Holds delimiter opened delivered) :
    s.window.size = min opened.length delimiter.length := by
  rw [← Window.length_toList, h.window_eq, List.length_drop]
  omega

/-! ## One byte -/

/-- The buffer after the window took a byte. -/
def bufferAfter (s : Splitter) (byte : UInt8) : Array UInt8 :=
  match (s.window.push byte).2 with
  | some oldest => s.buffer.push oldest
  | none => s.buffer

theorem pushByte_eq (s : Splitter) (byte : UInt8) :
    s.pushByte byte =
      if (s.window.push byte).1.matches? s.delimiter then
        (⟨s.delimiter, (s.window.push byte).1.clear, #[]⟩, some ⟨(s.bufferAfter byte).toList, true⟩)
      else (⟨s.delimiter, (s.window.push byte).1, s.bufferAfter byte⟩, none) := rfl

/-- The window takes the byte in, and what it gives up moves into the buffer. -/
theorem Holds.push_window (h : s.Holds delimiter opened delivered) (byte : UInt8) :
    (s.window.push byte).1.toList =
        (opened ++ [byte]).drop ((opened ++ [byte]).length - delimiter.length) ∧
      delivered ++ (s.bufferAfter byte).toList =
        (opened ++ [byte]).take ((opened ++ [byte]).length - delimiter.length) := by
  refine ⟨h.wellFormed.toList_push h.window_eq byte, ?_⟩
  have hsize := h.size_eq
  have hbuffer := h.buffer_eq
  have hlength : (opened ++ [byte]).length = opened.length + 1 := by simp
  rcases Nat.lt_or_ge opened.length delimiter.length with hlt | hge
  · -- everything that has arrived fits into the window
    have hnone := Window.push_keeps h.wellFormed (by omega) byte
    have hnothing : opened.length - delimiter.length = 0 := by omega
    have hnothing' : (opened ++ [byte]).length - delimiter.length = 0 := by omega
    rw [hnothing, List.take_zero] at hbuffer
    rw [bufferAfter, hnone, hbuffer, hnothing', List.take_zero]
  · obtain ⟨oldest, holdest, hcons⟩ := Window.push_displaces h.wellFormed (by omega) byte
    have hnext : (opened ++ [byte]).length - delimiter.length =
        opened.length - delimiter.length + 1 := by omega
    have hpos := h.wellFormed.pos
    have htake : opened.take (opened.length - delimiter.length + 1) =
        delivered ++ s.buffer.toList ++ [oldest] := by
      rw [List.take_add, hbuffer, ← h.window_eq, hcons]
      rfl
    rw [bufferAfter, holdest, hnext, List.take_append_of_le_length (by omega), htake,
      Array.toList_push, List.append_assoc]

/-- The window matches exactly when a delimiter ends with the byte. -/
theorem Holds.matches_iff (h : s.Holds delimiter opened delivered) (byte : UInt8) :
    (s.window.push byte).1.matches? s.delimiter = true ↔ delimiter <:+ opened ++ [byte] := by
  have hsize := Window.length_toList (s.window.push byte).1
  rw [h.delimiter_eq, Window.matches?_iff (h.wellFormed.push byte), ← hsize, (h.push_window byte).1,
    List.suffix_iff_eq_drop]
  constructor
  · exact fun hmatch => hmatch.2.symm
  · exact fun hsuffix => ⟨congrArg List.length hsuffix.symm, hsuffix.symm⟩

/-- What a byte does when no delimiter ends with it: it is one more of the open segment. -/
theorem Holds.pushByte_of_not_suffix (h : s.Holds delimiter opened delivered) {byte : UInt8}
    (hsuffix : ¬ delimiter <:+ opened ++ [byte]) :
    (s.pushByte byte).2 = none ∧
      (s.pushByte byte).1.Holds delimiter (opened ++ [byte]) delivered := by
  rw [pushByte_eq, if_neg (by rwa [h.matches_iff byte])]
  obtain ⟨hwindow, hbuffer⟩ := h.push_window byte
  exact ⟨rfl, h.delimiter_eq, h.wellFormed.push byte, hwindow, hbuffer,
    not_infix_append_singleton h.free hsuffix⟩

/-- What a byte does when a delimiter ends with it: the rest of the segment before the delimiter is
delivered, and the next segment begins. -/
theorem Holds.pushByte_of_suffix (h : s.Holds delimiter opened delivered) {content : Bytes}
    {byte : UInt8} (hcontent : content ++ delimiter = opened ++ [byte]) :
    (∃ bytes, (s.pushByte byte).2 = some ⟨bytes, true⟩ ∧ delivered ++ bytes = content) ∧
      (s.pushByte byte).1.Holds delimiter [] [] := by
  have hsuffix : delimiter <:+ opened ++ [byte] := ⟨content, hcontent⟩
  rw [pushByte_eq, if_pos ((h.matches_iff byte).mpr hsuffix)]
  refine ⟨⟨_, rfl, ?_⟩, h.restart (h.wellFormed.push byte)⟩
  rw [(h.push_window byte).2, ← hcontent, List.length_append, Nat.add_sub_cancel, List.take_left]

/-- **One byte.** The invariant is kept, and the piece, if there is one, ends the segment that the
byte completes. -/
theorem Holds.pushByte (h : s.Holds delimiter opened delivered) (byte : UInt8) :
    ∃ opened' delivered', (s.pushByte byte).1.Holds delimiter opened' delivered' ∧
      Advances delimiter opened delivered [byte] (s.pushByte byte).2.toList opened' delivered' := by
  by_cases hsuffix : delimiter <:+ opened ++ [byte]
  · obtain ⟨content, hcontent⟩ := hsuffix
    obtain ⟨⟨bytes, hpiece, hbytes⟩, hholds⟩ := h.pushByte_of_suffix hcontent
    refine ⟨[], [], hholds, ?_⟩
    rw [hpiece, Option.toList_some]
    refine ⟨by simp [joinPieces], fun rest => ?_⟩
    have hsplit := splitLeftmost_append_of_suffix h.delimiter_ne_nil h.free hcontent rest
    simpa [joinPieces, hbytes] using hsplit
  · obtain ⟨hpiece, hholds⟩ := h.pushByte_of_not_suffix hsuffix
    refine ⟨opened ++ [byte], delivered, hholds, ?_⟩
    rw [hpiece, Option.toList_none]
    exact ⟨rfl, fun rest => by simp [joinPieces]⟩

/-! ## Chunks -/

/-- One step of the loop over a chunk. -/
def pushStep (state : Splitter × Array Piece) (byte : UInt8) : Splitter × Array Piece :=
  match state.1.pushByte byte with
  | (s, some piece) => (s, state.2.push piece)
  | (s, none) => (s, state.2)

theorem pushStep_eq (s : Splitter) (pieces : Array Piece) (byte : UInt8) :
    pushStep (s, pieces) byte =
      ((s.pushByte byte).1, pieces ++ (s.pushByte byte).2.toList.toArray) := by
  rw [pushStep]
  split <;> next h => simp [h]

theorem pushBytes_eq_foldl (s : Splitter) (chunk : Bytes) :
    s.pushBytes chunk = chunk.foldl pushStep (s, #[]) := rfl

theorem foldl_pushStep (s : Splitter) (pieces : Array Piece) (chunk : Bytes) :
    chunk.foldl pushStep (s, pieces) =
      ((s.pushBytes chunk).1, pieces ++ (s.pushBytes chunk).2) := by
  rw [pushBytes_eq_foldl]
  induction chunk generalizing s pieces with
  | nil => simp
  | cons byte chunk ih =>
    rw [List.foldl_cons, List.foldl_cons, pushStep_eq, pushStep_eq, ih _ (pieces ++ _),
      ih _ (#[] ++ _), Array.empty_append, Array.append_assoc]

theorem pushBytes_cons (s : Splitter) (byte : UInt8) (chunk : Bytes) :
    s.pushBytes (byte :: chunk) =
      (((s.pushByte byte).1.pushBytes chunk).1,
        (s.pushByte byte).2.toList.toArray ++ ((s.pushByte byte).1.pushBytes chunk).2) := by
  rw [pushBytes_eq_foldl, List.foldl_cons, pushStep_eq, foldl_pushStep, Array.empty_append]

theorem Holds.pushBytes (h : s.Holds delimiter opened delivered) (chunk : Bytes) :
    ∃ opened' delivered', (s.pushBytes chunk).1.Holds delimiter opened' delivered' ∧
      Advances delimiter opened delivered chunk (s.pushBytes chunk).2.toList opened'
        delivered' := by
  induction chunk generalizing s opened delivered with
  | nil => exact ⟨opened, delivered, h, .refl⟩
  | cons byte chunk ih =>
    obtain ⟨opened₁, delivered₁, hholds, hadvances⟩ := h.pushByte byte
    obtain ⟨opened₂, delivered₂, hholds', hadvances'⟩ := ih hholds
    rw [pushBytes_cons]
    refine ⟨opened₂, delivered₂, hholds', ?_⟩
    simpa using hadvances.trans hadvances'

/-- Flushing delivers everything that is not in the window. -/
theorem Holds.flush (h : s.Holds delimiter opened delivered) :
    ∃ delivered', s.flush.1.Holds delimiter opened delivered' ∧
      s.flush.1.buffer = #[] ∧
      Advances delimiter opened delivered [] s.flush.2 opened delivered' := by
  rw [Splitter.flush]
  split
  · next hempty =>
    have hbuffer : s.buffer = #[] := by simpa using hempty
    exact ⟨delivered, h, hbuffer, .refl⟩
  · refine ⟨delivered ++ s.buffer.toList, ⟨h.delimiter_eq, h.wellFormed, h.window_eq, ?_, h.free⟩,
      rfl, ?_⟩
    · simpa using h.buffer_eq
    · exact ⟨by simp [joinPieces], fun rest => by simp [joinPieces]⟩

/-- **One chunk.** -/
theorem Holds.push (h : s.Holds delimiter opened delivered) (chunk : Bytes) :
    ∃ opened' delivered', (s.push chunk).1.Holds delimiter opened' delivered' ∧
      (s.push chunk).1.buffer = #[] ∧
      Advances delimiter opened delivered chunk (s.push chunk).2 opened' delivered' := by
  obtain ⟨opened', delivered₁, hholds, hadvances⟩ := h.pushBytes chunk
  obtain ⟨delivered', hholds', hbuffer, hflush⟩ := hholds.flush
  refine ⟨opened', delivered', hholds', hbuffer, ?_⟩
  have hboth := hadvances.trans hflush
  rwa [List.append_nil] at hboth

/-! ## The end of the input -/

/-- The last piece completes the open segment with what was withheld. -/
theorem Holds.joinPieces_finish (h : s.Holds delimiter opened delivered) :
    joinPieces delivered s.finish.2 = (splitLeftmost delimiter opened, []) := by
  have hcontent : delivered ++ (s.buffer.toList ++ s.window.toList) = opened := by
    rw [← List.append_assoc, h.buffer_eq, h.window_eq, List.take_append_drop]
  simp [finish, joinPieces, hcontent, splitLeftmost_of_free h.free]

theorem Holds.joinPieces_run (h : s.Holds delimiter opened delivered) (chunks : List Bytes) :
    joinPieces delivered (s.run chunks) =
      (splitLeftmost delimiter (opened ++ chunks.flatten), []) := by
  induction chunks generalizing s opened delivered with
  | nil =>
    rw [List.flatten_nil, List.append_nil]
    exact h.joinPieces_finish
  | cons chunk chunks ih =>
    obtain ⟨opened', delivered', hholds, -, hadvances⟩ := h.push chunk
    have hsplit := hadvances.split_eq chunks.flatten
    rw [run, joinPieces_append, hadvances.delivered_eq, ih hholds, List.flatten_cons,
      ← List.append_assoc, hsplit]

/-- The pieces of a run end with one that ends a segment. -/
theorem getLast?_run (s : Splitter) (chunks : List Bytes) :
    (s.run chunks).getLast?.map Piece.last = some true := by
  induction chunks generalizing s with
  | nil => rfl
  | cons chunk chunks ih =>
    rw [run, List.getLast?_append]
    obtain ⟨piece, hlast, hpiece⟩ := Option.map_eq_some_iff.mp (ih (s.push chunk).1)
    rw [hlast, Option.some_or, Option.map_some, hpiece]

/-- **A splitter delivers the leftmost split.** For every delimiter that is not empty there is a
splitter, and it delivers every input, in whatever chunks it arrives, as the leftmost split of their
concatenation, ending the last segment with its last piece. So the segments joined with the
delimiter are the input, there is one more of them than there are leftmost non-overlapping
occurrences, and it does not matter where the chunks were cut. -/
theorem run_isLeftmostSplit {delimiter : Bytes} (hd : delimiter ≠ []) :
    ∃ s, ofDelimiter? delimiter = .ok s ∧ ∀ chunks : List Bytes,
      LeftmostSplit delimiter chunks.flatten (segmentsOf (s.run chunks)) ∧
      (s.run chunks).getLast?.map Piece.last = some true ∧
      delimiter.intercalate (segmentsOf (s.run chunks)) = chunks.flatten ∧
      (segmentsOf (s.run chunks)).length =
        (leftmostOccurrences delimiter chunks.flatten).length + 1 ∧
      ∀ others : List Bytes, others.flatten = chunks.flatten →
        segmentsOf (s.run others) = segmentsOf (s.run chunks) := by
  obtain ⟨s, hs⟩ : ∃ s, ofDelimiter? delimiter = .ok s := ⟨_, if_neg hd⟩
  have hsegments : ∀ chunks : List Bytes,
      segmentsOf (s.run chunks) = splitLeftmost delimiter chunks.flatten := by
    intro chunks
    rw [segmentsOf, (holds_ofDelimiter? hs).joinPieces_run, List.nil_append]
  refine ⟨s, hs, fun chunks => ?_⟩
  have hsplit : LeftmostSplit delimiter chunks.flatten (segmentsOf (s.run chunks)) := by
    rw [hsegments]
    exact leftmostSplit_splitLeftmost hd _
  refine ⟨hsplit, getLast?_run s chunks, hsplit.intercalate_eq, hsplit.length_eq hd, ?_⟩
  intro others hothers
  rw [hsegments, hsegments, hothers]

/-- The delimiter overlaps itself, and the chunks cut its occurrences. -/
theorem run_isLeftmostSplit_overlapping :
    ([97, 97] : Bytes) ≠ [] ∧ ∃ s, ofDelimiter? [97, 97] = .ok s ∧
      LeftmostSplit [97, 97] [98, 97, 97, 97, 99]
        (segmentsOf (s.run [[98, 97], [], [97, 97, 99]])) ∧
      segmentsOf (s.run [[98, 97], [], [97, 97, 99]]) = [[98], [97, 99]] := by
  obtain ⟨s, hs, hrun⟩ := run_isLeftmostSplit (show ([97, 97] : Bytes) ≠ [] by decide)
  refine ⟨by decide, s, hs, (hrun [[98, 97], [], [97, 97, 99]]).1, ?_⟩
  cases hs
  decide

end Splitter

end Switchboard
