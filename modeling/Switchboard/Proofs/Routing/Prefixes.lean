import Mathlib.Data.List.DropRight
import Switchboard.Routing.Filter
set_option autoImplicit false

/-! # Path prefixes, segment by segment

The filter for a path and everything below it compares texts character by character. What it
decides is a matter of segments, which are what stands between the slashes of a path: those of the
base, without the slashes at its end (`Filter.Trims`), are the first ones of the path, or else the
base is the root and the path begins with a slash (`Filter.isUnder_iff`). The main statement is
`Filter.under_matches_segments`. -/

namespace Switchboard

namespace Filter

/-! ## Segments -/

/-- What stands between the slashes of a path. -/
def segments (path : List Char) : List (List Char) := path.splitOn '/'

section

variable {base path rest start text : List Char}

theorem intercalate_append (separator : List Char) {words : List (List Char)} (hwords : words ≠ [])
    (word : List Char) (more : List (List Char)) :
    separator.intercalate (words ++ word :: more) =
      separator.intercalate words ++ separator ++ separator.intercalate (word :: more) := by
  induction words with
  | nil => exact absurd rfl hwords
  | cons first others ih =>
    cases others with
    | nil => simp
    | cons second others =>
      have hrest := ih (by simp)
      simp only [List.cons_append, List.intercalate_cons_cons] at hrest ⊢
      simp only [hrest, List.append_assoc]

/-- **A path begins with the segments of a base** if it is the base, or continues it with a
slash. -/
theorem segments_isPrefix_iff :
    segments base <+: segments path ↔ path = base ∨ ∃ rest, path = base ++ '/' :: rest := by
  constructor
  · rintro ⟨more, hmore⟩
    have hpath : path = ['/'].intercalate (segments base ++ more) := by
      rw [hmore, segments, List.intercalate_splitOn]
    cases more with
    | nil =>
      left
      rw [hpath, List.append_nil, segments, List.intercalate_splitOn]
    | cons word more =>
      right
      refine ⟨['/'].intercalate (word :: more), ?_⟩
      rw [hpath, segments, intercalate_append _ (List.splitOn_ne_nil '/' base),
        List.intercalate_splitOn]
      simp
  · rintro (rfl | ⟨rest, rfl⟩)
    · exact List.prefix_refl _
    · rw [segments, segments, List.splitOn_append_cons_self]
      exact List.prefix_append _ _

/-! ## Comparing texts -/

theorem stripStart?_eq_some_iff : stripStart? start text = some rest ↔ text = start ++ rest := by
  induction start generalizing text with
  | nil => simp [stripStart?]
  | cons c start ih =>
    cases text with
    | nil => simp [stripStart?]
    | cons d text =>
      by_cases hcd : c = d
      · simp [stripStart?, hcd, ih]
      · have hdc : d ≠ c := fun h => hcd h.symm
        simp [stripStart?, hcd, hdc]

/-- **What the comparison decides**, in terms of segments. -/
theorem isUnder_iff :
    isUnder base path = true ↔
      base = ['/'] ∧ path.head? = some '/' ∨ segments base <+: segments path := by
  rw [segments_isPrefix_iff]
  by_cases hroot : base = ['/']
  · -- a path that continues the root with a slash begins with one
    subst hroot
    simp only [isUnder, if_true, beq_iff_eq, true_and]
    constructor
    · exact .inl
    · rintro (h | rfl | ⟨rest, rfl⟩)
      · exact h
      · rfl
      · rfl
  · simp only [isUnder, hroot, if_false, false_and, false_or]
    cases hstrip : stripStart? base path with
    | none =>
      have hnone (rest : List Char) : path ≠ base ++ rest := by
        intro hpath
        rw [stripStart?_eq_some_iff.mpr hpath] at hstrip
        cases hstrip
      have hbase : path ≠ base := by simpa using hnone []
      simp [hnone, hbase]
    | some rest =>
      obtain rfl := stripStart?_eq_some_iff.mp hstrip
      cases rest with
      | nil => simp
      | cons c rest => simp

end

/-! ## Slashes at the end -/

/-- A base without the slashes at its end; its first character stays even if it is one. -/
structure Trims (base trimmed : List Char) : Prop where
  slashes : ∃ count, base = trimmed ++ List.replicate count '/'
  first : trimmed = [] → base = []
  last : ∀ rest, trimmed = rest ++ ['/'] → rest = []

section

variable {base trimmed other : List Char}

/-- A second trimming takes no slash away that the first one has left. -/
theorem Trims.count_eq_zero {count : Nat} (h : Trims base (trimmed ++ List.replicate count '/'))
    (hother : Trims base trimmed) : count = 0 := by
  cases count with
  | zero => rfl
  | succ count =>
    rw [List.replicate_succ', ← List.append_assoc] at h
    have hnil := h.last _ rfl
    have htrimmed : trimmed = [] := (List.append_eq_nil_iff.mp hnil).1
    obtain ⟨more, hmore⟩ := h.slashes
    rw [hother.first htrimmed] at hmore
    simp at hmore

/-- There is only one way to trim a base. -/
theorem Trims.unique (h : Trims base trimmed) (hother : Trims base other) : trimmed = other := by
  obtain ⟨count, hcount⟩ := h.slashes
  obtain ⟨more, hmore⟩ := hother.slashes
  have hsame : trimmed ++ List.replicate count '/' = other ++ List.replicate more '/' :=
    hcount.symm.trans hmore
  rcases Nat.le_total count more with hle | hle
  · obtain ⟨left, rfl⟩ := Nat.exists_eq_add_of_le' hle
    rw [List.replicate_add, ← List.append_assoc] at hsame
    obtain rfl := List.append_cancel_right hsame
    simp [h.count_eq_zero hother]
  · obtain ⟨left, rfl⟩ := Nat.exists_eq_add_of_le' hle
    rw [List.replicate_add, ← List.append_assoc] at hsame
    obtain rfl := List.append_cancel_right hsame
    simp [hother.count_eq_zero h]

theorem trims_trimSlashes (base : List Char) : Trims base (trimSlashes base) := by
  cases base with
  | nil => exact ⟨⟨0, rfl⟩, fun _ => rfl, fun rest h => by simp [trimSlashes] at h⟩
  | cons c rest =>
    have htrim : trimSlashes (c :: rest) = c :: rest.rdropWhile (· == '/') := rfl
    rw [htrim]
    refine ⟨⟨(rest.rtakeWhile (· == '/')).length, ?_⟩, by simp, fun front hfront => ?_⟩
    · have hslashes : rest.rtakeWhile (· == '/') =
          List.replicate (rest.rtakeWhile (· == '/')).length '/' :=
        List.eq_replicate_of_mem fun d hd => by simpa using List.mem_rtakeWhile_imp hd
      rw [← hslashes, List.cons_append, List.rdropWhile_append_rtakeWhile]
    · cases front with
      | nil => rfl
      | cons d front =>
        rw [List.cons_append, List.cons.injEq] at hfront
        have hlast := List.rdropWhile_last_not (p := (· == '/')) (l := rest) (by simp [hfront.2])
        simp [hfront.2] at hlast

/-- Further slashes at the end of a base make no difference. -/
theorem trimSlashes_append (hbase : base ≠ []) (count : Nat) :
    trimSlashes (base ++ List.replicate count '/') = trimSlashes base := by
  have htrims := trims_trimSlashes base
  refine (trims_trimSlashes _).unique ⟨?_, fun h => absurd (htrims.first h) hbase, htrims.last⟩
  obtain ⟨more, hmore⟩ := htrims.slashes
  refine ⟨more + count, ?_⟩
  rw [List.replicate_add, ← List.append_assoc, ← hmore]

end

/-! ## The filter -/

section

variable {base : String} {head : RequestHead} {outer inner path : List Char}

theorem accepts_under : (under base).accepts head =
    isUnder (trimSlashes base.toList) head.path.toList := by
  simp [under, accepts, decideBasic]

/-- A path that goes on with the last segment of the base, instead of a new one, is not under
it. -/
theorem isUnder_continued {c : Char} {rest : List Char} (hbase : outer ≠ ['/']) (hc : c ≠ '/') :
    isUnder outer (outer ++ c :: rest) = false := by
  rw [Bool.eq_false_iff, Ne, isUnder_iff, segments_isPrefix_iff]
  simp [hbase, hc]

/-- **Being under is transitive.** -/
theorem isUnder_trans (houter : isUnder outer inner = true) (hinner : isUnder inner path = true) :
    isUnder outer path = true := by
  rw [isUnder_iff] at houter hinner ⊢
  obtain ⟨hroot, hslash⟩ | houter := houter
  · left
    refine ⟨hroot, ?_⟩
    obtain ⟨-, hpath⟩ | hinner := hinner
    · exact hpath
    · obtain rfl | ⟨rest, rfl⟩ := segments_isPrefix_iff.mp hinner
      · exact hslash
      · rw [List.head?_append, hslash, Option.some_or]
  · obtain ⟨rfl, hpath⟩ | hinner := hinner
    · -- only the root itself and the empty base are above the root
      obtain ⟨rest, rfl⟩ : ∃ rest, path = '/' :: rest := by
        cases path with
        | nil => cases hpath
        | cons c rest =>
          cases hpath
          exact ⟨rest, rfl⟩
      obtain hroot | ⟨more, hmore⟩ := segments_isPrefix_iff.mp houter
      · exact .inl ⟨hroot.symm, rfl⟩
      · right
        cases outer with
        | nil => exact segments_isPrefix_iff.mpr (.inr ⟨rest, rfl⟩)
        | cons c outer => simp at hmore
    · exact .inr (houter.trans hinner)

end

/-- **Prefixes match by segments.** The filter for a base accepts a path if and only if the segments
of the trimmed base are the first ones of the path, or the trimmed base is the root and the path
begins with a slash. So no base but the root takes a path that only continues its last segment,
further slashes at the end of a base that is not empty change nothing, and what is under a trimmed
base is under whatever that base is under. -/
theorem under_matches_segments :
    (∀ (base : String) (head : RequestHead),
      Trims base.toList (trimSlashes base.toList) ∧
      ((under base).accepts head = true ↔
        trimSlashes base.toList = ['/'] ∧ head.path.toList.head? = some '/' ∨
          segments (trimSlashes base.toList) <+: segments head.path.toList)) ∧
    (∀ (base : String) (head : RequestHead) (c : Char) (rest : List Char),
      trimSlashes base.toList ≠ ['/'] → c ≠ '/' →
      head.path.toList = trimSlashes base.toList ++ c :: rest →
      (under base).accepts head = false) ∧
    (∀ (base : String) (count : Nat) (head : RequestHead), base ≠ "" →
      (under (base ++ String.ofList (List.replicate count '/'))).accepts head =
        (under base).accepts head) ∧
    ∀ (outer inner : String) (between head : RequestHead),
      trimSlashes inner.toList = inner.toList → between.path = inner →
      (under outer).accepts between = true → (under inner).accepts head = true →
      (under outer).accepts head = true := by
  refine ⟨?_, ?_, ?_, ?_⟩
  · intro base head
    refine ⟨trims_trimSlashes _, ?_⟩
    rw [accepts_under, isUnder_iff]
  · intro base head c rest hbase hc hpath
    rw [accepts_under, hpath]
    exact isUnder_continued hbase hc
  · intro base count head hbase
    have hlist : base.toList ≠ [] := by simpa using hbase
    simp only [accepts_under, String.toList_append, String.toList_ofList,
      trimSlashes_append hlist]
  · intro outer inner between head htrimmed hbetween houter hinner
    rw [accepts_under, hbetween] at houter
    rw [accepts_under, htrimmed] at hinner
    rw [accepts_under]
    exact isUnder_trans houter hinner

/-- `/api/` takes `/api/v1`, and so does the base with another slash, but not `/apix`; since `/api`
takes `/api/v1`, it takes the paths below that. -/
theorem under_matches_segments_api :
    let head (path : String) := RequestHead.ofLine ⟨.get, ⟨none, none, path, none⟩, .http11⟩
    (under "/api/").accepts (head "/api/v1") = true ∧
    (under "/api/").accepts (head "/apix") = false ∧
    (under ("/api" ++ String.ofList (List.replicate 2 '/'))).accepts (head "/api/v1") = true ∧
    (under "/api").accepts (head "/api/v1/items") = true := by
  intro head
  obtain ⟨hsegments, hcontinued, hslashes, htrans⟩ := under_matches_segments
  have hbelow : (under "/api").accepts (head "/api/v1") = true :=
    (hsegments "/api" (head "/api/v1")).2.mpr (.inr (by decide))
  refine ⟨?_, ?_, ?_, ?_⟩
  · exact (hsegments "/api/" (head "/api/v1")).2.mpr (.inr (by decide))
  · exact hcontinued "/api/" (head "/apix") 'x' [] (by decide) (by decide) (by decide)
  · rw [hslashes "/api" 2 (head "/api/v1") (by decide)]
    exact hbelow
  · exact htrans "/api" "/api/v1" (head "/api/v1") (head "/api/v1/items") (by decide) rfl hbelow
      ((hsegments "/api/v1" (head "/api/v1/items")).2.mpr (.inr (by decide)))

end Filter

end Switchboard
