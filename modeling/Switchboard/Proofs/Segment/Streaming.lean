import Mathlib.Data.List.Infix
import Switchboard.Proofs.Segment.Splitter
set_option autoImplicit false

/-! # What is delivered while an input arrives

Between two chunks a splitter has delivered all of the input but its delimiters and the latest bytes
of the open segment, as many as a delimiter has (`Streams`). Whatever comes next, these bytes stay
content of their segments, and no delimiter is ever found where they stand. The pieces of one chunk
are the ends of the segments that it completes and, when there is something to deliver of the next
one, a last piece (`InOrder`). -/

namespace Switchboard

/-! ## Where segments stand -/

/-- Where the segment with this index begins, in an input with these segments and a delimiter
between them. -/
def startOf (delimiter : Bytes) (segments : List Bytes) (index : Nat) : Nat :=
  ((segments.take index).flatMap fun segment => segment ++ delimiter).length

section

variable {delimiter : Bytes} {segments : List Bytes} {segment : Bytes} {index : Nat}

theorem startOf_cons_succ (delimiter segment : Bytes) (segments : List Bytes) (index : Nat) :
    startOf delimiter (segment :: segments) (index + 1) =
      segment.length + delimiter.length + startOf delimiter segments index := by
  simp only [startOf, List.take_succ_cons, List.flatMap_cons, List.length_append]

/-- A segment is followed by a delimiter and the next segment. -/
theorem startOf_succ (hs : segments[index]? = some segment) :
    startOf delimiter segments (index + 1) =
      startOf delimiter segments index + (segment.length + delimiter.length) := by
  simp only [startOf, List.take_add_one, hs, Option.toList_some, List.flatMap_append,
    List.flatMap_singleton, List.length_append]

theorem startOf_mono {first second : Nat} (h : first ≤ second) :
    startOf delimiter segments first ≤ startOf delimiter segments second := by
  have hbefore : segments.take first <+: segments.take second := List.take_prefix_take_left h
  exact (hbefore.flatMap _).length_le

/-- The segments stand where they begin. -/
theorem LeftmostSplit.prefix_drop {input : Bytes} (h : LeftmostSplit delimiter input segments)
    (hs : segments[index]? = some segment) :
    segment <+: input.drop (startOf delimiter segments index) := by
  induction h generalizing index with
  | @last rest hfree =>
    cases index with
    | zero =>
      obtain rfl : rest = segment := by simpa using hs
      exact List.prefix_rfl
    | succ index => simp at hs
  | @cut before after segments hfirst hafter ih =>
    cases index with
    | zero =>
      obtain rfl : before = segment := by simpa using hs
      rw [List.append_assoc]
      exact List.prefix_append _ _
    | succ index =>
      have hlater := ih (by simpa using hs)
      rw [startOf_cons_succ, ← List.length_append, List.drop_append, List.drop_of_length_le]
      · simpa using hlater
      · omega

/-- The delimiters that are found stand between the segments. -/
theorem LeftmostSplit.exists_of_mem_occurrencesFrom {input : Bytes} (hd : delimiter ≠ [])
    (h : LeftmostSplit delimiter input segments) {start position : Nat}
    (hposition : position ∈ occurrencesFrom delimiter start 0 input) :
    ∃ index segment, segments[index]? = some segment ∧
      position = start + (startOf delimiter segments index + segment.length) := by
  induction h generalizing start with
  | last hfree =>
    rw [occurrencesFrom_of_free hfree] at hposition
    cases hposition
  | @cut before after segments hfirst hafter ih =>
    rw [occurrencesFrom_of_first hd hfirst, List.mem_cons] at hposition
    rcases hposition with rfl | hlater
    · exact ⟨0, before, rfl, by simp [startOf]⟩
    · obtain ⟨index, segment, hs, rfl⟩ := ih hlater
      refine ⟨index + 1, segment, by simpa using hs, ?_⟩
      rw [startOf_cons_succ]
      omega

/-- No delimiter is found where a segment stands. -/
theorem LeftmostSplit.apart {input : Bytes} (hd : delimiter ≠ [])
    (h : LeftmostSplit delimiter input segments) (hs : segments[index]? = some segment)
    {position : Nat} (hposition : position ∈ leftmostOccurrences delimiter input) :
    position + delimiter.length ≤ startOf delimiter segments index ∨
      startOf delimiter segments index + segment.length ≤ position := by
  obtain ⟨other, otherSegment, hother, rfl⟩ := h.exists_of_mem_occurrencesFrom hd hposition
  have hend : startOf delimiter segments (other + 1) = _ := startOf_succ hother
  rcases Nat.lt_trichotomy other index with hlt | rfl | hgt
  · have hmono : startOf delimiter segments (other + 1) ≤ startOf delimiter segments index :=
      startOf_mono hlt
    omega
  · obtain rfl : otherSegment = segment := by simpa [hs] using hother.symm
    omega
  · have hnext : startOf delimiter segments (index + 1) = _ := startOf_succ hs
    have hmono : startOf delimiter segments (index + 1) ≤ startOf delimiter segments other :=
      startOf_mono hgt
    omega

/-- What follows an input leaves the delimiters that were found in it, and is searched together
with the open segment. -/
theorem LeftmostSplit.occurrencesFrom_append {input opened : Bytes} {completed : List Bytes}
    (hd : delimiter ≠ []) (h : LeftmostSplit delimiter input (completed ++ [opened]))
    (rest : Bytes) (start : Nat) :
    ∃ position, occurrencesFrom delimiter start 0 (input ++ rest) =
      occurrencesFrom delimiter start 0 input ++
        occurrencesFrom delimiter position 0 (opened ++ rest) := by
  generalize hsegments : completed ++ [opened] = segments at h
  induction h generalizing completed start with
  | @last input hfree =>
    obtain ⟨rfl, rfl⟩ : completed = [] ∧ opened = input := by
      simpa [List.append_eq_singleton_iff] using hsegments
    rw [occurrencesFrom_of_free hfree]
    exact ⟨start, rfl⟩
  | @cut before after segments hfirst hafter ih =>
    cases completed with
    | nil => cases hafter <;> simp at hsegments
    | cons segment completed =>
      obtain ⟨rfl, hrest⟩ := List.cons.inj hsegments
      -- The first occurrence stays the first one: an earlier one would end before what follows.
      have hfirst' : ∀ position < segment.length,
          ¬ OccursAt delimiter (segment ++ delimiter ++ (after ++ rest)) position := by
        intro position hp hoccurs
        rw [← List.append_assoc] at hoccurs
        refine hfirst position hp (hoccurs.of_append ?_)
        simp only [List.length_append]
        omega
      obtain ⟨position, hposition⟩ := ih (start + segment.length + delimiter.length) hrest
      refine ⟨position, ?_⟩
      rw [List.append_assoc (segment ++ delimiter), occurrencesFrom_of_first hd hfirst',
        occurrencesFrom_of_first hd hfirst, hposition, List.cons_append]

end

/-! ## What pieces deliver -/

/-- What pieces deliver of each segment, the open one last. -/
def deliveredIn (pieces : List Piece) : List Bytes :=
  (joinPieces [] pieces).1 ++ [(joinPieces [] pieces).2]

/-- What pieces deliver begins these segments: those that were ended are the first of them, and what
came after those begins the next one. -/
def Begins (pieces : List Piece) (segments : List Bytes) : Prop :=
  ∃ segment later, segments = (joinPieces [] pieces).1 ++ segment :: later ∧
    (joinPieces [] pieces).2 <+: segment

/-- **What the pieces of an input deliver.** All of the open segment is delivered but its last
bytes, as many as the delimiter has. Whatever comes next, what was delivered begins the segments,
and no delimiter is found where it stands. -/
structure Streams (delimiter input : Bytes) (pieces : List Piece) : Prop where
  withheld : ∃ opened withheld,
    LeftmostSplit delimiter input ((joinPieces [] pieces).1 ++ [opened]) ∧
      opened = (joinPieces [] pieces).2 ++ withheld ∧
      withheld.length = min delimiter.length opened.length
  begins : ∀ rest segments, LeftmostSplit delimiter (input ++ rest) segments →
    Begins pieces segments
  stands : ∀ (index : Nat) content, (deliveredIn pieces)[index]? = some content →
    content <+: input.drop (startOf delimiter (deliveredIn pieces) index)
  apart : ∀ (index : Nat) content, (deliveredIn pieces)[index]? = some content →
    ∀ rest, ∀ position ∈ leftmostOccurrences delimiter (input ++ rest),
      position + delimiter.length ≤ startOf delimiter (deliveredIn pieces) index ∨
        startOf delimiter (deliveredIn pieces) index + content.length ≤ position

/-- **The pieces of one chunk** that follows an input: one for each delimiter that it completes,
which ends a segment, and then at most one that ends none, and that one is not empty. -/
def InOrder (delimiter input chunk : Bytes) (pieces : List Piece) : Prop :=
  ∃ (ends opening : List Piece) (found : List Nat), pieces = ends ++ opening ∧
    (∀ piece ∈ ends, piece.last = true) ∧
    leftmostOccurrences delimiter (input ++ chunk) = leftmostOccurrences delimiter input ++ found ∧
    ends.length = found.length ∧
    (opening = [] ∨ ∃ bytes, bytes ≠ [] ∧ opening = [⟨bytes, false⟩])

section

variable {delimiter : Bytes} {pieces : List Piece} {segments : List Bytes}

theorem Begins.exists_segment (delimiter : Bytes) (h : Begins pieces segments) {index : Nat}
    {content : Bytes} (hcontent : (deliveredIn pieces)[index]? = some content) :
    ∃ segment, segments[index]? = some segment ∧ content <+: segment ∧
      startOf delimiter (deliveredIn pieces) index = startOf delimiter segments index := by
  obtain ⟨segment, later, rfl, hbegins⟩ := h
  rw [deliveredIn] at hcontent ⊢
  have hlt := (List.getElem?_eq_some_iff.mp hcontent).1
  rw [List.length_append, List.length_singleton] at hlt
  have hstart : startOf delimiter ((joinPieces [] pieces).1 ++ [(joinPieces [] pieces).2]) index =
      startOf delimiter ((joinPieces [] pieces).1 ++ segment :: later) index := by
    rw [startOf, startOf, List.take_append_of_le_length (by omega),
      List.take_append_of_le_length (by omega)]
  rcases Nat.lt_or_ge index (joinPieces [] pieces).1.length with hended | hopen
  · rw [List.getElem?_append_left hended] at hcontent
    exact ⟨content, by rw [List.getElem?_append_left hended, hcontent], List.prefix_rfl, hstart⟩
  · obtain rfl : index = (joinPieces [] pieces).1.length := by omega
    obtain rfl : (joinPieces [] pieces).2 = content := by simpa using hcontent
    exact ⟨segment, by simp, hbegins, hstart⟩

/-- Each ending piece ends a segment. -/
theorem length_joinPieces (opened : Bytes) (pieces : List Piece) :
    (joinPieces opened pieces).1.length = pieces.countP Piece.last := by
  induction pieces generalizing opened with
  | nil => rfl
  | cons piece pieces ih =>
    cases hlast : piece.last with
    | true => simp [joinPieces, hlast, ih]
    | false => simp [joinPieces, hlast, ih]

/-- The segments of what has arrived so far, from how it goes on whatever follows. -/
theorem leftmostSplit_of_opened (hd : delimiter ≠ []) {input opened : Bytes}
    {completed : List Bytes} (hfree : ¬ delimiter <:+: opened)
    (hsplit : ∀ rest, splitLeftmost delimiter (input ++ rest) =
      completed ++ splitLeftmost delimiter (opened ++ rest)) :
    LeftmostSplit delimiter input (completed ++ [opened]) := by
  have hnow := hsplit []
  rw [List.append_nil, List.append_nil, splitLeftmost_of_free hfree] at hnow
  rw [← hnow]
  exact leftmostSplit_splitLeftmost hd input

/-- What has to be known of an input and of the pieces that came of it. -/
theorem Advances.streams {input opened delivered : Bytes} (hd : delimiter ≠ [])
    (h : Advances delimiter [] [] input pieces opened delivered) (hfree : ¬ delimiter <:+: opened)
    (hdelivered : delivered = opened.take (opened.length - delimiter.length)) :
    Streams delimiter input pieces := by
  have hsplit : ∀ rest, splitLeftmost delimiter (input ++ rest) =
      (joinPieces [] pieces).1 ++ splitLeftmost delimiter (opened ++ rest) := by
    intro rest
    simpa using h.split_eq rest
  have hbegins : ∀ rest segments, LeftmostSplit delimiter (input ++ rest) segments →
      Begins pieces segments := by
    intro rest segments hsegments
    obtain ⟨segment, later, hnext, hprefix⟩ := splitLeftmost_eq_cons hd hfree rest
    refine ⟨segment, later, ?_, ?_⟩
    · rw [hsegments.eq_splitLeftmost hd, hsplit, hnext]
    · rwa [h.delivered_eq, hdelivered]
  have hinput := leftmostSplit_of_opened hd hfree hsplit
  refine ⟨⟨opened, opened.drop (opened.length - delimiter.length), hinput, ?_, ?_⟩, hbegins, ?_, ?_⟩
  · rw [h.delivered_eq, hdelivered, List.take_append_drop]
  · rw [List.length_drop]
    omega
  · intro index content hcontent
    have hbegin : Begins pieces ((joinPieces [] pieces).1 ++ [opened]) :=
      hbegins [] _ (by rwa [List.append_nil])
    obtain ⟨segment, hs, hprefix, hstart⟩ := hbegin.exists_segment delimiter hcontent
    rw [hstart]
    exact hprefix.trans (hinput.prefix_drop hs)
  · intro index content hcontent rest position hposition
    have hwhole := leftmostSplit_splitLeftmost hd (input ++ rest)
    obtain ⟨segment, hs, hprefix, hstart⟩ :=
      (hbegins rest _ hwhole).exists_segment delimiter hcontent
    have hlength := hprefix.length_le
    rw [hstart]
    rcases hwhole.apart hd hs hposition with hbefore | hafter
    · exact .inl hbefore
    · exact .inr (by omega)

end

namespace Splitter

/-! ## One chunk after the other -/

theorem takeAll_append (s : Splitter) (first next : List SplitterInput) :
    s.takeAll (first ++ next) =
      (((s.takeAll first).1.takeAll next).1,
        (s.takeAll first).2 ++ ((s.takeAll first).1.takeAll next).2) := by
  induction first generalizing s with
  | nil => rfl
  | cons input first ih => simp [takeAll, ih]

section

variable {delimiter opened delivered : Bytes} {s : Splitter}

/-- **Any number of chunks.** -/
theorem Holds.takeAll_chunks (h : s.Holds delimiter opened delivered) (hbuffer : s.buffer = #[])
    (chunks : List Bytes) :
    ∃ opened' delivered', (s.takeAll (chunks.map .chunk)).1.Holds delimiter opened' delivered' ∧
      (s.takeAll (chunks.map .chunk)).1.buffer = #[] ∧
      Advances delimiter opened delivered chunks.flatten
        (s.takeAll (chunks.map .chunk)).2.flatten opened' delivered' := by
  induction chunks generalizing s opened delivered with
  | nil => exact ⟨opened, delivered, h, hbuffer, .refl⟩
  | cons chunk chunks ih =>
    obtain ⟨opened₁, delivered₁, hholds, hempty, hadvances⟩ := h.push chunk
    obtain ⟨opened₂, delivered₂, hholds', hempty', hadvances'⟩ := ih hholds hempty
    exact ⟨opened₂, delivered₂, hholds', hempty', hadvances.trans hadvances'⟩

/-- Nothing has arrived of a segment, so that the window is empty. -/
theorem Holds.toList_eq_nil (h : s.Holds delimiter [] delivered) : s.window.toList = [] := by
  rw [h.window_eq, List.drop_nil]

/-- A new splitter holds nothing. -/
theorem blank_ofDelimiter? (h : ofDelimiter? delimiter = .ok s) :
    s.window.toList = [] ∧ s.buffer = #[] := by
  have hholds := holds_ofDelimiter? h
  exact ⟨hholds.toList_eq_nil, by simpa using hholds.buffer_eq⟩

/-- With an empty buffer, everything but the window was delivered. -/
theorem Holds.delivered_eq (h : s.Holds delimiter opened delivered) (hbuffer : s.buffer = #[]) :
    delivered = opened.take (opened.length - delimiter.length) := by
  simpa [hbuffer] using h.buffer_eq

/-- Every piece before the flush ends a segment. -/
theorem last_of_mem_pushBytes {chunk : Bytes} {piece : Piece}
    (h : piece ∈ (s.pushBytes chunk).2.toList) : piece.last = true := by
  induction chunk generalizing s with
  | nil => simp [pushBytes] at h
  | cons byte chunk ih =>
    rw [pushBytes_cons, Array.toList_append, List.mem_append] at h
    rcases h with hnow | hlater
    · rw [pushByte_eq] at hnow
      split at hnow
      · obtain rfl := List.mem_singleton.mp hnow
        rfl
      · cases hnow
    · exact ih hlater

theorem flush_cases (s : Splitter) :
    s.flush.2 = [] ∨ ∃ bytes, bytes ≠ [] ∧ s.flush.2 = [⟨bytes, false⟩] := by
  rw [flush]
  split
  · exact .inl rfl
  · next hne => exact .inr ⟨s.buffer.toList, by simpa using hne, rfl⟩

/-- **The pieces of a chunk come in order.** -/
theorem Holds.inOrder (h : s.Holds delimiter opened delivered) {input : Bytes}
    {completed : List Bytes}
    (hinput : ∀ rest, splitLeftmost delimiter (input ++ rest) =
      completed ++ splitLeftmost delimiter (opened ++ rest)) (chunk : Bytes) :
    InOrder delimiter input chunk (s.push chunk).2 := by
  have hd := h.delimiter_ne_nil
  obtain ⟨opened', delivered', hholds, -, hadvances⟩ := h.push chunk
  have hsplit := leftmostSplit_of_opened hd h.free hinput
  obtain ⟨position, hfound⟩ := hsplit.occurrencesFrom_append hd chunk 0
  refine ⟨(s.pushBytes chunk).2.toList, (s.pushBytes chunk).1.flush.2, _, rfl,
    fun piece hpiece => last_of_mem_pushBytes hpiece, hfound, ?_, flush_cases _⟩
  -- Both are as many as the segments that there are more of with the chunk.
  have hended : (joinPieces delivered (s.push chunk).2).1.length =
      (s.pushBytes chunk).2.toList.length := by
    have hends : (s.pushBytes chunk).2.toList.countP Piece.last =
        (s.pushBytes chunk).2.toList.length :=
      List.countP_eq_length.mpr fun piece hpiece => last_of_mem_pushBytes hpiece
    have hopening : (s.pushBytes chunk).1.flush.2.countP Piece.last = 0 := by
      rcases flush_cases (s.pushBytes chunk).1 with hnone | ⟨bytes, -, hone⟩
      · rw [hnone, List.countP_nil]
      · rw [hone]
        rfl
    rw [length_joinPieces, Splitter.push, List.countP_append, hends, hopening, Nat.add_zero]
  have hnext : LeftmostSplit delimiter (input ++ chunk)
      (completed ++ (joinPieces delivered (s.push chunk).2).1 ++ [opened']) := by
    refine leftmostSplit_of_opened hd hholds.free fun rest => ?_
    rw [List.append_assoc, hinput, ← List.append_assoc opened, hadvances.split_eq,
      ← List.append_assoc]
  have hbefore := hsplit.length_eq hd
  have hafter := hnext.length_eq hd
  rw [leftmostOccurrences, hfound] at hafter
  simp only [List.length_append, List.length_singleton, hended] at hbefore hafter
  rw [leftmostOccurrences] at hbefore
  omega

/-- **Everything but the latest bytes is delivered at once.** After any number of chunks, all of the
input but its delimiters and the last bytes of the open segment has been delivered, as many as the
delimiter has or all of them; what was delivered stays content of its segments whatever follows. The
pieces of the next chunk come in order. -/
theorem takeAll_streams (hd : delimiter ≠ []) :
    ∃ s, ofDelimiter? delimiter = .ok s ∧ ∀ chunks : List Bytes,
      Streams delimiter chunks.flatten (s.takeAll (chunks.map .chunk)).2.flatten ∧
      ∀ chunk, InOrder delimiter chunks.flatten chunk
        ((s.takeAll (chunks.map .chunk)).1.push chunk).2 := by
  obtain ⟨s, hs⟩ : ∃ s, ofDelimiter? delimiter = .ok s := ⟨_, if_neg hd⟩
  refine ⟨s, hs, fun chunks => ?_⟩
  obtain ⟨opened, delivered, hholds, hbuffer, hadvances⟩ :=
    (holds_ofDelimiter? hs).takeAll_chunks (blank_ofDelimiter? hs).2 chunks
  refine ⟨hadvances.streams hd hholds.free (hholds.delivered_eq hbuffer), fun chunk => ?_⟩
  exact hholds.inOrder (fun rest => by simpa using hadvances.split_eq rest) chunk

/-- A delimiter is cut by the chunks: its first byte is withheld with the byte before it, until the
second one ends the segment. -/
theorem takeAll_streams_cut :
    ([45, 45] : Bytes) ≠ [] ∧ ∃ s, ofDelimiter? [45, 45] = .ok s ∧
      Streams [45, 45] [1, 2, 3, 45] (s.takeAll ([[1, 2], [3, 45]].map .chunk)).2.flatten ∧
      (s.takeAll ([[1, 2], [3, 45]].map .chunk)).2.flatten = [⟨[1, 2], false⟩] ∧
      InOrder [45, 45] [1, 2, 3, 45] [45, 4, 5, 6]
        ((s.takeAll ([[1, 2], [3, 45]].map .chunk)).1.push [45, 4, 5, 6]).2 ∧
      ((s.takeAll ([[1, 2], [3, 45]].map .chunk)).1.push [45, 4, 5, 6]).2 =
        [⟨[3], true⟩, ⟨[4], false⟩] := by
  obtain ⟨s, hs, hstreams⟩ := takeAll_streams (show ([45, 45] : Bytes) ≠ [] by decide)
  obtain ⟨hpieces, hnext⟩ := hstreams [[1, 2], [3, 45]]
  refine ⟨by decide, s, hs, hpieces, ?_, hnext [45, 4, 5, 6], ?_⟩ <;> cases hs <;> decide

end

end Splitter

end Switchboard
