import Switchboard.Segment.Leftmost
set_option autoImplicit false

/-! # What the leftmost split is

`splitLeftmost` is a function; `LeftmostSplit` says the same as a relation, in the words in which
one would explain splitting: every segment but the last is what precedes the first occurrence of the
delimiter in what is left of the input, and the last one is what is left when there is no further
occurrence. `leftmostSplit_splitLeftmost` shows that the function computes it, and
`LeftmostSplit.eq_splitLeftmost` that nothing else does.

An input that is still arriving is cut at its latest byte. `splitLeftmost_append_of_suffix` and
`not_infix_append_singleton` say when that byte completes a delimiter and when it does not, and
`splitLeftmost_eq_cons` what is settled of the open segment whatever follows. These are the facts
that streaming splitters need. -/

namespace Switchboard

/-! ## The first occurrence -/

/-- The delimiter stands at this position of the input. -/
def OccursAt (delimiter input : Bytes) (position : Nat) : Prop :=
  delimiter <+: input.drop position

theorem OccursAt.isInfix {delimiter input : Bytes} {position : Nat}
    (h : OccursAt delimiter input position) : delimiter <:+: input := by
  obtain ⟨after, hafter⟩ := h
  refine ⟨input.take position, after, ?_⟩
  rw [List.append_assoc, hafter, List.take_append_drop]

/-- An occurrence that ends within the first part of an input is one of that part. -/
theorem OccursAt.of_append {delimiter first next : Bytes} {position : Nat}
    (h : OccursAt delimiter (first ++ next) position)
    (hend : position + delimiter.length ≤ first.length) : OccursAt delimiter first position := by
  unfold OccursAt at h ⊢
  rw [List.drop_append_of_le_length (by omega)] at h
  exact List.prefix_of_prefix_length_le h (List.prefix_append _ _)
    (by rw [List.length_drop]; omega)

theorem occursAt_succ {delimiter rest : Bytes} {byte : UInt8} {position : Nat} :
    OccursAt delimiter (byte :: rest) (position + 1) ↔ OccursAt delimiter rest position := by
  simp only [OccursAt, List.drop_succ_cons]

/-- `cutFirst?` finds what precedes the first occurrence and what follows it. -/
theorem cutFirst?_eq_some {delimiter input before after : Bytes} (hd : delimiter ≠ [])
    (hinput : input = before ++ delimiter ++ after)
    (hfirst : ∀ position < before.length, ¬ OccursAt delimiter input position) :
    cutFirst? delimiter input = some (before, after) := by
  induction before generalizing input with
  | nil =>
    obtain ⟨byte, rest, rfl⟩ := List.exists_cons_of_ne_nil hd
    simp [cutFirst?, hinput]
  | cons byte before ih =>
    subst hinput
    have hhead : ¬ delimiter <+: byte :: (before ++ delimiter ++ after) :=
      fun h => hfirst 0 (Nat.zero_lt_succ _) h
    have hrest := ih rfl fun position hp h =>
      hfirst (position + 1) (Nat.succ_lt_succ hp) (occursAt_succ.mpr h)
    simp only [List.cons_append, cutFirst?, List.isPrefixOf_iff_prefix, hhead, if_false, hrest,
      Option.map_some]

theorem cutFirst?_eq_none {delimiter input : Bytes} (hfree : ¬ delimiter <:+: input) :
    cutFirst? delimiter input = none := by
  induction input with
  | nil =>
    have hd : delimiter ≠ [] := by rintro rfl; exact hfree (List.nil_infix)
    simp [cutFirst?, hd]
  | cons byte rest ih =>
    have hhead : ¬ delimiter <+: byte :: rest := fun h => hfree h.isInfix
    have hrest := ih fun h => hfree (h.trans (List.suffix_cons byte rest).isInfix)
    simp only [cutFirst?, List.isPrefixOf_iff_prefix, hhead, if_false, hrest, Option.map_none]

/-- An input has no occurrence, or it is cut at its first one. -/
theorem first_occurrence (delimiter input : Bytes) :
    ¬ delimiter <:+: input ∨ ∃ before after, input = before ++ delimiter ++ after ∧
      ∀ position < before.length, ¬ OccursAt delimiter input position := by
  induction input with
  | nil =>
    by_cases hd : delimiter = []
    · subst hd
      exact .inr ⟨[], [], rfl, by simp⟩
    · exact .inl fun h => hd (List.infix_nil.mp h)
  | cons byte rest ih =>
    by_cases hhead : delimiter <+: byte :: rest
    · obtain ⟨after, hafter⟩ := hhead
      exact .inr ⟨[], after, hafter.symm, by simp⟩
    · rcases ih with hfree | ⟨before, after, hrest, hfirst⟩
      · refine .inl fun h => ?_
        rcases List.infix_cons_iff.mp h with h | h
        · exact hhead h
        · exact hfree h
      · refine .inr ⟨byte :: before, after, by rw [hrest]; rfl, fun position hp => ?_⟩
        cases position with
        | zero => exact hhead
        | succ position =>
          rw [occursAt_succ]
          exact hfirst position (Nat.lt_of_succ_lt_succ hp)

/-! ## Splitting -/

theorem splitLeftmost_of_free {delimiter input : Bytes} (hfree : ¬ delimiter <:+: input) :
    splitLeftmost delimiter input = [input] := by
  have hd : delimiter ≠ [] := by rintro rfl; exact hfree (List.nil_infix)
  rw [splitLeftmost, dif_neg hd]
  split
  · next h => rw [cutFirst?_eq_none hfree] at h; cases h
  · rfl

theorem splitLeftmost_of_first {delimiter before after : Bytes} (hd : delimiter ≠ [])
    (hfirst : ∀ position < before.length,
      ¬ OccursAt delimiter (before ++ delimiter ++ after) position) :
    splitLeftmost delimiter (before ++ delimiter ++ after) =
      before :: splitLeftmost delimiter after := by
  rw [splitLeftmost, dif_neg hd]
  have hcut := cutFirst?_eq_some hd rfl hfirst
  split
  · next h =>
    rw [hcut, Option.some.injEq, Prod.mk.injEq] at h
    rw [h.1, h.2]
  · next h => rw [hcut] at h; cases h

/-- The leftmost non-overlapping split of an input, in words: while the delimiter occurs in what is
left of the input, the next segment is what precedes its first occurrence, and scanning resumes
right after that occurrence; what is left in the end is the last segment. -/
inductive LeftmostSplit (delimiter : Bytes) : Bytes → List Bytes → Prop where
  | last {rest : Bytes} (hfree : ¬ delimiter <:+: rest) : LeftmostSplit delimiter rest [rest]
  | cut {before after : Bytes} {segments : List Bytes}
      (hfirst : ∀ position < before.length,
        ¬ OccursAt delimiter (before ++ delimiter ++ after) position)
      (hafter : LeftmostSplit delimiter after segments) :
      LeftmostSplit delimiter (before ++ delimiter ++ after) (before :: segments)

/-- **The function computes the relation.** -/
theorem leftmostSplit_splitLeftmost {delimiter : Bytes} (hd : delimiter ≠ []) (input : Bytes) :
    LeftmostSplit delimiter input (splitLeftmost delimiter input) := by
  induction hn : input.length using Nat.strongRecOn generalizing input with
  | ind n ih =>
    rcases first_occurrence delimiter input with hfree | ⟨before, after, rfl, hfirst⟩
    · rw [splitLeftmost_of_free hfree]
      exact .last hfree
    · rw [splitLeftmost_of_first hd hfirst]
      refine .cut hfirst (ih _ ?_ after rfl)
      have : 0 < delimiter.length := List.length_pos_iff.mpr hd
      simp only [List.length_append] at hn
      omega

theorem LeftmostSplit.eq_splitLeftmost {delimiter input : Bytes} {segments : List Bytes}
    (hd : delimiter ≠ []) (h : LeftmostSplit delimiter input segments) :
    segments = splitLeftmost delimiter input := by
  induction h with
  | last hfree => exact (splitLeftmost_of_free hfree).symm
  | cut hfirst _ ih => rw [splitLeftmost_of_first hd hfirst, ← ih]

/-- Joining the segments with the delimiter gives the input back. -/
theorem LeftmostSplit.intercalate_eq {delimiter input : Bytes} {segments : List Bytes}
    (h : LeftmostSplit delimiter input segments) : delimiter.intercalate segments = input := by
  induction h with
  | last _ => simp
  | @cut before after segments _ hafter ih =>
    have hne : segments ≠ [] := by cases hafter <;> simp
    rw [List.intercalate_cons_of_ne_nil hne, ih]

/-! ## Counting occurrences -/

/-- Where the delimiter stands in an input that begins at this position, looking from left to right
and, after an occurrence, only at what follows it; `skip` bytes belong to the occurrence found
last. -/
def occurrencesFrom (delimiter : Bytes) : (position skip : Nat) → Bytes → List Nat
  | _, _, [] => []
  | position, skip + 1, _ :: rest => occurrencesFrom delimiter (position + 1) skip rest
  | position, 0, byte :: rest =>
    if delimiter.isPrefixOf (byte :: rest) then
      position :: occurrencesFrom delimiter (position + 1) (delimiter.length - 1) rest
    else occurrencesFrom delimiter (position + 1) 0 rest

/-- The positions of the leftmost non-overlapping occurrences of a delimiter. -/
def leftmostOccurrences (delimiter input : Bytes) : List Nat := occurrencesFrom delimiter 0 0 input

theorem occurrencesFrom_skip (delimiter : Bytes) (position : Nat) (skipped rest : Bytes) :
    occurrencesFrom delimiter position skipped.length (skipped ++ rest) =
      occurrencesFrom delimiter (position + skipped.length) 0 rest := by
  induction skipped generalizing position with
  | nil => rfl
  | cons byte skipped ih =>
    rw [List.length_cons, List.cons_append, occurrencesFrom, ih]
    congr 1
    omega

theorem occurrencesFrom_of_free {delimiter input : Bytes} (hfree : ¬ delimiter <:+: input)
    (position : Nat) : occurrencesFrom delimiter position 0 input = [] := by
  induction input generalizing position with
  | nil => rfl
  | cons byte rest ih =>
    have hhead : ¬ delimiter <+: byte :: rest := fun h => hfree h.isInfix
    have hrest := ih fun h => hfree (h.trans (List.suffix_cons byte rest).isInfix)
    simp only [occurrencesFrom, List.isPrefixOf_iff_prefix, hhead, if_false, hrest]

theorem occurrencesFrom_of_first {delimiter before after : Bytes} (hd : delimiter ≠ [])
    (hfirst : ∀ position < before.length,
      ¬ OccursAt delimiter (before ++ delimiter ++ after) position) (position : Nat) :
    occurrencesFrom delimiter position 0 (before ++ delimiter ++ after) =
      (position + before.length) ::
        occurrencesFrom delimiter (position + before.length + delimiter.length) 0 after := by
  induction before generalizing position with
  | nil =>
    obtain ⟨byte, tail, rfl⟩ := List.exists_cons_of_ne_nil hd
    have hhead : byte :: tail <+: byte :: (tail ++ after) := List.prefix_append _ after
    have hskip := occurrencesFrom_skip (byte :: tail) (position + 1) tail after
    have hend : position + 1 + tail.length = position + (byte :: tail).length := by
      rw [List.length_cons]
      omega
    rw [hend] at hskip
    simp only [List.nil_append, List.cons_append, occurrencesFrom, List.isPrefixOf_iff_prefix,
      hhead, if_true, List.length_nil, Nat.add_zero]
    rw [← hskip]
    rfl
  | cons byte before ih =>
    have hhead : ¬ delimiter <+: byte :: (before ++ delimiter ++ after) :=
      fun h => hfirst 0 (Nat.zero_lt_succ _) h
    have hrest := ih (fun position hp h =>
      hfirst (position + 1) (Nat.succ_lt_succ hp) (occursAt_succ.mpr h)) (position + 1)
    have hstart : position + 1 + before.length = position + (byte :: before).length := by
      rw [List.length_cons]
      omega
    rw [hstart] at hrest
    simp only [List.cons_append, occurrencesFrom, List.isPrefixOf_iff_prefix, hhead, if_false,
      hrest]

/-- There is one more segment than there are occurrences. -/
theorem LeftmostSplit.length_eq {delimiter input : Bytes} {segments : List Bytes}
    (hd : delimiter ≠ []) (h : LeftmostSplit delimiter input segments) :
    segments.length = (leftmostOccurrences delimiter input).length + 1 := by
  have hlength : ∀ position,
      segments.length = (occurrencesFrom delimiter position 0 input).length + 1 := by
    induction h with
    | last hfree => simp [occurrencesFrom_of_free hfree]
    | cut hfirst _ ih =>
      intro position
      rw [occurrencesFrom_of_first hd hfirst, List.length_cons, List.length_cons, ih]
  exact hlength 0

/-! ## An input that is still arriving

The open segment of an input that is still arriving is free of the delimiter: an occurrence would
have ended it. -/

section Arriving

variable {delimiter opened rest : Bytes} {byte : UInt8}

/-- The latest byte ends the open segment when a delimiter ends with it: there is no earlier
occurrence, because that would end within the bytes before. -/
theorem splitLeftmost_append_of_suffix (hd : delimiter ≠ []) (hfree : ¬ delimiter <:+: opened)
    {content : Bytes} (hcontent : content ++ delimiter = opened ++ [byte]) (rest : Bytes) :
    splitLeftmost delimiter (opened ++ byte :: rest) = content :: splitLeftmost delimiter rest := by
  have hinput : opened ++ byte :: rest = content ++ delimiter ++ rest := by
    rw [hcontent, List.append_assoc, List.singleton_append]
  have hlength : content.length + delimiter.length = opened.length + 1 := by
    simpa using congrArg List.length hcontent
  rw [hinput]
  refine splitLeftmost_of_first hd fun position hp h => hfree ?_
  rw [← hinput] at h
  exact (h.of_append (by omega)).isInfix

/-- Otherwise the open segment stays free of the delimiter with it. -/
theorem not_infix_append_singleton (hfree : ¬ delimiter <:+: opened)
    (hsuffix : ¬ delimiter <:+ opened ++ [byte]) : ¬ delimiter <:+: opened ++ [byte] := by
  intro h
  obtain ⟨before, after, hinput⟩ := h
  rcases List.eq_nil_or_concat after with rfl | ⟨after, last, rfl⟩
  · exact hsuffix ⟨before, by simpa using hinput⟩
  · rw [List.concat_eq_append, ← List.append_assoc] at hinput
    exact hfree ⟨before, after, (List.append_inj' hinput rfl).1⟩

/-- **What is settled of the open segment.** Whatever follows, the open segment begins with all of
its bytes so far but the last ones, as many as the delimiter has: a delimiter that is completed
later cannot begin before those. -/
theorem splitLeftmost_eq_cons (hd : delimiter ≠ []) (hfree : ¬ delimiter <:+: opened)
    (rest : Bytes) :
    ∃ segment segments, splitLeftmost delimiter (opened ++ rest) = segment :: segments ∧
      opened.take (opened.length - delimiter.length) <+: segment := by
  rcases first_occurrence delimiter (opened ++ rest) with hfree' | ⟨before, after, hinput, hfirst⟩
  · exact ⟨_, [], splitLeftmost_of_free hfree',
      (List.take_prefix _ _).trans (List.prefix_append _ _)⟩
  · rw [hinput] at hfirst ⊢
    refine ⟨before, _, splitLeftmost_of_first hd hfirst, ?_⟩
    -- the first occurrence ends after the open bytes, else it would be one of them
    have hend : opened.length < before.length + delimiter.length := by
      refine Nat.lt_of_not_le fun hle => hfree ?_
      have hoccurs : OccursAt delimiter (opened ++ rest) before.length := by
        refine ⟨after, ?_⟩
        rw [hinput, List.append_assoc, List.drop_left]
      exact (hoccurs.of_append hle).isInfix
    have hopened : opened.take (opened.length - delimiter.length) <+:
        before ++ (delimiter ++ after) := by
      rw [← List.append_assoc, ← hinput]
      exact (List.take_prefix _ _).trans (List.prefix_append _ _)
    exact List.prefix_of_prefix_length_le hopened (List.prefix_append _ _)
      (by rw [List.length_take]; omega)

end Arriving

end Switchboard
