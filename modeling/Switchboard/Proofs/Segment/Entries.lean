import Switchboard.Segment.Dispenser
import Switchboard.Proofs.Segment.Splitter
set_option autoImplicit false

/-! # Segments in a queue

A dispenser queues the pieces of its splitter as entries: chunks, none of them empty, and the ends
of segments. `joinEntries` reads segments off entries as `joinPieces` does off pieces, and
`contentAt` is the content of one of them. Taking more entries in never changes a segment that has
ended, and only adds to the one that has not (`contentAt_append`). -/

namespace Switchboard

/-- The segments that entries make up, and the bytes after the last ended one. -/
def joinEntries : Bytes → List Entry → List Bytes × Bytes
  | opened, [] => ([], opened)
  | opened, .chunk bytes :: rest => joinEntries (opened ++ bytes) rest
  | opened, .close :: rest => (opened :: (joinEntries [] rest).1, (joinEntries [] rest).2)

/-- How many segments end in entries. -/
def endsIn (entries : List Entry) : Nat := entries.count .close

/-- The content of the segment with this index as far as it is in entries. -/
def contentAt (entries : List Entry) (index : Nat) : Bytes :=
  ((joinEntries [] entries).1 ++ [(joinEntries [] entries).2]).getD index []

@[simp] theorem endsIn_nil : endsIn [] = 0 := rfl

@[simp] theorem endsIn_append (first next : List Entry) :
    endsIn (first ++ next) = endsIn first + endsIn next := List.count_append

@[simp] theorem endsIn_chunk_cons (bytes : Bytes) (rest : List Entry) :
    endsIn (.chunk bytes :: rest) = endsIn rest := List.count_cons_of_ne (by simp)

@[simp] theorem endsIn_close_cons (rest : List Entry) :
    endsIn (.close :: rest) = endsIn rest + 1 := List.count_cons_self

theorem joinEntries_append (opened : Bytes) (first next : List Entry) :
    joinEntries opened (first ++ next) =
      ((joinEntries opened first).1 ++ (joinEntries (joinEntries opened first).2 next).1,
        (joinEntries (joinEntries opened first).2 next).2) := by
  induction first generalizing opened with
  | nil => rfl
  | cons entry first ih =>
    cases entry with
    | chunk bytes => simp only [List.cons_append, joinEntries, ih]
    | close => simp only [List.cons_append, joinEntries, ih]

theorem length_joinEntries (opened : Bytes) (entries : List Entry) :
    (joinEntries opened entries).1.length = endsIn entries := by
  induction entries generalizing opened with
  | nil => rfl
  | cons entry entries ih =>
    cases entry with
    | chunk bytes => simp only [joinEntries, ih, endsIn_chunk_cons]
    | close => simp only [joinEntries, List.length_cons, ih, endsIn_close_cons]

/-- Queueing pieces makes up the same segments. -/
theorem joinEntries_entriesOf (opened : Bytes) (pieces : List Piece) :
    joinEntries opened (entriesOf pieces) = joinPieces opened pieces := by
  induction pieces generalizing opened with
  | nil => rfl
  | cons piece pieces ih =>
    obtain ⟨bytes, last⟩ := piece
    have htail : entriesOf (⟨bytes, last⟩ :: pieces) =
        ((if bytes.isEmpty then [] else [.chunk bytes]) ++ if last then [.close] else []) ++
          entriesOf pieces := rfl
    have hbytes : ∀ more,
        joinEntries opened ((if bytes.isEmpty then [] else [.chunk bytes]) ++ more) =
        joinEntries (opened ++ bytes) more := by
      intro more
      cases bytes <;> simp [joinEntries]
    rw [htail, List.append_assoc, hbytes]
    cases last <;> simp [joinEntries, joinPieces, ih]

theorem chunk_ne_nil_of_mem_entriesOf {pieces : List Piece} {bytes : Bytes}
    (h : Entry.chunk bytes ∈ entriesOf pieces) : bytes ≠ [] := by
  obtain ⟨piece, -, hpiece⟩ := List.mem_flatMap.mp h
  rintro rfl
  rcases List.mem_append.mp hpiece with hchunk | hclose
  · split at hchunk
    · cases hchunk
    · next hempty =>
      rw [List.mem_singleton, Entry.chunk.injEq] at hchunk
      rw [← hchunk] at hempty
      exact hempty rfl
  · split at hclose <;> simp at hclose

/-! ## The content of one segment -/

theorem joinEntries_chunk {entries : List Entry} (bytes : Bytes) :
    joinEntries [] (entries ++ [.chunk bytes]) =
      ((joinEntries [] entries).1, (joinEntries [] entries).2 ++ bytes) := by
  rw [joinEntries_append]
  simp [joinEntries]

theorem joinEntries_close {entries : List Entry} :
    joinEntries [] (entries ++ [.close]) =
      ((joinEntries [] entries).1 ++ [(joinEntries [] entries).2], []) := by
  rw [joinEntries_append]
  rfl

/-- The content of an ended segment. -/
theorem contentAt_of_lt {entries : List Entry} {index : Nat} (h : index < endsIn entries) :
    some (contentAt entries index) = (joinEntries [] entries).1[index]? := by
  rw [← length_joinEntries []] at h
  rw [contentAt, List.getD_eq_getElem?_getD, List.getElem?_append_left h,
    List.getElem?_eq_getElem h, Option.getD_some]

/-- The content of the open segment. -/
theorem contentAt_endsIn (entries : List Entry) :
    contentAt entries (endsIn entries) = (joinEntries [] entries).2 := by
  rw [contentAt, ← length_joinEntries [], List.getD_eq_getElem?_getD, List.getElem?_concat_length,
    Option.getD_some]

theorem contentAt_of_gt {entries : List Entry} {index : Nat} (h : endsIn entries < index) :
    contentAt entries index = [] := by
  rw [contentAt, List.getD_eq_getElem?_getD, List.getElem?_eq_none, Option.getD_none]
  rw [List.length_append, length_joinEntries, List.length_singleton]
  exact h

/-- A chunk belongs to the open segment. -/
theorem contentAt_chunk_open (entries : List Entry) (bytes : Bytes) :
    contentAt (entries ++ [.chunk bytes]) (endsIn entries) =
      contentAt entries (endsIn entries) ++ bytes := by
  have hends : endsIn (entries ++ [.chunk bytes]) = endsIn entries := by simp
  rw [contentAt_endsIn, ← hends, contentAt_endsIn, joinEntries_chunk]

theorem contentAt_chunk_ne {entries : List Entry} {bytes : Bytes} {index : Nat}
    (h : index ≠ endsIn entries) :
    contentAt (entries ++ [.chunk bytes]) index = contentAt entries index := by
  rcases Nat.lt_or_gt_of_ne h with hlt | hgt
  · have hlt' : index < endsIn (entries ++ [.chunk bytes]) := by simpa using hlt
    have heq := contentAt_of_lt hlt'
    rw [joinEntries_chunk, ← contentAt_of_lt hlt, Option.some.injEq] at heq
    exact heq
  · rw [contentAt_of_gt hgt, contentAt_of_gt (by simpa using hgt)]

/-- The end of a segment adds nothing to any of them. -/
theorem contentAt_close (entries : List Entry) (index : Nat) :
    contentAt (entries ++ [.close]) index = contentAt entries index := by
  rw [contentAt, joinEntries_close, contentAt, List.getD_eq_getElem?_getD,
    List.getD_eq_getElem?_getD]
  rcases Nat.lt_or_ge index ((joinEntries [] entries).1 ++ [(joinEntries [] entries).2]).length
    with hlt | hge
  · rw [List.getElem?_append_left hlt]
  · rw [List.getElem?_append_right hge, List.getElem?_eq_none hge]
    cases index - ((joinEntries [] entries).1 ++ [(joinEntries [] entries).2]).length <;> rfl

/-- Further entries leave a segment that has ended as it is. -/
theorem contentAt_append_of_lt {entries : List Entry} {index : Nat} (h : index < endsIn entries)
    (more : List Entry) : contentAt (entries ++ more) index = contentAt entries index := by
  have hlt : index < endsIn (entries ++ more) := by
    rw [endsIn_append]
    omega
  have heq := contentAt_of_lt hlt
  rw [joinEntries_append, List.getElem?_append_left (by rwa [length_joinEntries]),
    ← contentAt_of_lt h, Option.some.injEq] at heq
  exact heq

/-- **Further entries only add to a segment.** -/
theorem contentAt_append (entries more : List Entry) (index : Nat) :
    contentAt entries index <+: contentAt (entries ++ more) index := by
  induction more generalizing entries with
  | nil => simp
  | cons entry more ih =>
    have hstep : contentAt entries index <+: contentAt (entries ++ [entry]) index := by
      cases entry with
      | close => simp [contentAt_close]
      | chunk bytes =>
        by_cases hindex : index = endsIn entries
        · subst hindex
          rw [contentAt_chunk_open]
          exact List.prefix_append _ _
        · simp [contentAt_chunk_ne hindex]
    rw [List.append_cons]
    exact hstep.trans (ih _)

/-! ## Entries and the split -/

/-- Entries are the beginning of these segments: those that end in the entries are the first ones,
and what follows is the beginning of the next one, or nothing if there is none. -/
def BeginsSegments (entries : List Entry) (segments : List Bytes) : Prop :=
  (joinEntries [] entries).1 <+: segments ∧
    (joinEntries [] entries).2 <+: segments.getD (endsIn entries) []

/-- As long as the input is arriving, its last segment is open, and all of that but what may belong
to a delimiter is in the entries. -/
theorem beginsSegments_of_arriving {delimiter opened : Bytes} {entries : List Entry}
    (hd : delimiter ≠ []) (hfree : ¬ delimiter <:+: opened)
    (hopened : (joinEntries [] entries).2 = opened.take (opened.length - delimiter.length))
    (rest : Bytes) :
    BeginsSegments entries
        ((joinEntries [] entries).1 ++ splitLeftmost delimiter (opened ++ rest)) ∧
      endsIn entries <
        ((joinEntries [] entries).1 ++ splitLeftmost delimiter (opened ++ rest)).length := by
  obtain ⟨segment, segments, hsplit, hsegment⟩ := splitLeftmost_eq_cons hd hfree rest
  have hnext : ((joinEntries [] entries).1 ++ segment :: segments).getD (endsIn entries) [] =
      segment := by
    rw [← length_joinEntries [], List.getD_eq_getElem?_getD,
      List.getElem?_append_right (Nat.le_refl _), Nat.sub_self]
    rfl
  rw [hsplit]
  refine ⟨⟨List.prefix_append _ _, ?_⟩, ?_⟩
  · rwa [hnext, hopened]
  · rw [List.length_append, length_joinEntries, List.length_cons]
    omega

theorem beginsSegments_of_complete {entries : List Entry}
    (hopened : (joinEntries [] entries).2 = []) :
    BeginsSegments entries (joinEntries [] entries).1 :=
  ⟨List.prefix_rfl, by rw [hopened]; exact List.nil_prefix⟩

section

variable {entries more : List Entry} {segments : List Bytes}
  (h : BeginsSegments (entries ++ more) segments)

include h

theorem BeginsSegments.contentAt_of_lt {index : Nat} (hlt : index < endsIn entries) :
    segments[index]? = some (contentAt entries index) := by
  have hlt' : index < endsIn (entries ++ more) := by
    rw [endsIn_append]
    omega
  rw [← contentAt_append_of_lt hlt more, Switchboard.contentAt_of_lt hlt',
    List.prefix_iff_getElem?.mp h.1 index (by rwa [length_joinEntries]), List.getElem?_eq_getElem]

theorem BeginsSegments.contentAt_begins {index : Nat} {segment : Bytes}
    (hsegment : segments[index]? = some segment) : contentAt entries index <+: segment := by
  refine (contentAt_append entries more index).trans ?_
  rcases Nat.lt_trichotomy index (endsIn (entries ++ more)) with hlt | rfl | hgt
  · have hall : BeginsSegments (entries ++ more ++ []) segments := by rwa [List.append_nil]
    rw [hall.contentAt_of_lt hlt, Option.some.injEq] at hsegment
    simp [hsegment]
  · rw [contentAt_endsIn]
    have hopened := h.2
    rwa [List.getD_eq_getElem?_getD, hsegment, Option.getD_some] at hopened
  · rw [contentAt_of_gt hgt]
    exact List.nil_prefix

end

end Switchboard
