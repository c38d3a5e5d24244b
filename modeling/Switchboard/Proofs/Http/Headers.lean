import Mathlib.Data.List.Basic
import Mathlib.Data.List.Induction
import Switchboard.Http.Headers
import Switchboard.Proofs.Http.Target
set_option autoImplicit false

/-! # Headers as a multimap

A header name is a token of bounded length whose letter case does not count (`IsHeaderName`,
`IsHeaderName.congr`). Headers keep every pair that was added: under a name there are the values of
all pairs with that name, in their order, and the names are listed where they first occurred
(`Headers.firstOccurrences_names`). -/

namespace Switchboard

/-! ## Names and values -/

/-- The text can be a header name. -/
def IsHeaderName (text : String) : Prop :=
  isToken text = true ∧ text.utf8ByteSize ≤ HeaderName.maxBytes

instance (text : String) : Decidable (IsHeaderName text) := inferInstanceAs (Decidable (_ ∧ _))

/-- The text can be a header value. -/
def IsHeaderValue (text : String) : Prop := ∀ c ∈ text.toList, HeaderValue.isValueChar c = true

instance (text : String) : Decidable (IsHeaderValue text) := List.decidableBAll _ text.toList

section

variable {c : Char} {text other : String} {name : HeaderName} {value : HeaderValue}

theorem HeaderName.ofString?_of_isHeaderName (h : IsHeaderName text) :
    ofString? text = .ok ⟨lowerCase text⟩ := by
  simp [ofString?, h.1, h.2]

theorem HeaderName.ofString?_of_not (h : ¬ IsHeaderName text) :
    ofString? text = .error "invalid HTTP header name" := by
  have hboth : ¬ (isToken text && decide (text.utf8ByteSize ≤ maxBytes)) = true := by
    simpa [IsHeaderName] using h
  rw [ofString?, if_neg hboth]

theorem HeaderValue.ofString?_of_isHeaderValue (h : IsHeaderValue text) :
    ofString? text = .ok ⟨text⟩ := by
  rw [ofString?, if_pos (List.all_eq_true.mpr h)]

theorem HeaderValue.ofString?_of_not (h : ¬ IsHeaderValue text) :
    ofString? text = .error "failed to parse header value" := by
  rw [ofString?, if_neg (mt List.all_eq_true.mp h)]

/-- A letter may stand in a token in either case. -/
theorem isTokenChar_lowerChar : isTokenChar (lowerChar c) = isTokenChar c := by
  by_cases hupper : ('A' ≤ c && c ≤ 'Z') = true
  · have htoken : isTokenChar c = true := by
      rw [isTokenChar, isAlphanumeric, hupper]
      simp
    have hlower : ('a' ≤ lowerChar c && lowerChar c ≤ 'z') = true := by
      have hcode := toNat_lowerChar hupper
      rw [Bool.and_eq_true, decide_eq_true_eq, decide_eq_true_eq] at hupper ⊢
      have hlow : 65 ≤ c.toNat := UInt32.le_iff_toNat_le.mp hupper.1
      have hhigh : c.toNat ≤ 90 := UInt32.le_iff_toNat_le.mp hupper.2
      have hfrom : 97 ≤ (lowerChar c).toNat := by omega
      have hto : (lowerChar c).toNat ≤ 122 := by omega
      exact ⟨UInt32.le_iff_toNat_le.mpr hfrom, UInt32.le_iff_toNat_le.mpr hto⟩
    rw [htoken, isTokenChar, isAlphanumeric, hlower]
    simp
  · rw [lowerChar, if_neg hupper]

theorem toList_lowerCase : (lowerCase text).toList = text.toList.map lowerChar := by
  rw [lowerCase, String.toList_ofList]

theorem isToken_iff :
    isToken text = true ↔ text.toList ≠ [] ∧ ∀ c ∈ text.toList, isTokenChar c = true := by
  simp [isToken]

theorem isToken_lowerCase : isToken (lowerCase text) = isToken text := by
  rw [Bool.eq_iff_iff, isToken_iff, isToken_iff, toList_lowerCase]
  simp [isTokenChar_lowerChar]

theorem utf8ByteSize_lowerCase : (lowerCase text).utf8ByteSize = text.utf8ByteSize := by
  rw [← byteCount_toList, toList_lowerCase, byteCount_lower, byteCount_toList]

/-- **The letter case of a header name does not count.** -/
theorem IsHeaderName.congr (hcase : lowerCase text = lowerCase other) (h : IsHeaderName text) :
    IsHeaderName other := by
  have htoken : isToken other = isToken text := by
    rw [← isToken_lowerCase, ← hcase, isToken_lowerCase]
  have hsize : other.utf8ByteSize = text.utf8ByteSize := by
    rw [← utf8ByteSize_lowerCase, ← hcase, utf8ByteSize_lowerCase]
  exact ⟨htoken.trans h.1, hsize ▸ h.2⟩

end

/-! ## First occurrences -/

/-- The entries of a list, each of them once and in the order in which they first occur. -/
structure FirstOccurrences {α : Type} [DecidableEq α] (listed all : List α) : Prop where
  mem : ∀ entry, entry ∈ listed ↔ entry ∈ all
  order : listed.Pairwise fun one other => all.idxOf one < all.idxOf other

section

variable {α : Type} [DecidableEq α] {listed all : List α} {entry : α}

theorem firstOccurrences_nil : FirstOccurrences ([] : List α) [] where
  mem _ := Iff.rfl
  order := List.Pairwise.nil

/-- What comes later does not change where the others first occurred. -/
theorem FirstOccurrences.pairwise_append (h : FirstOccurrences listed all) (more : List α) :
    listed.Pairwise fun one other => (all ++ more).idxOf one < (all ++ more).idxOf other := by
  refine h.order.imp_of_mem fun hone hother hless => ?_
  rwa [List.idxOf_append_of_mem ((h.mem _).mp hone), List.idxOf_append_of_mem ((h.mem _).mp hother)]

/-- An entry that has occurred is not listed again. -/
theorem FirstOccurrences.again (h : FirstOccurrences listed all) (hentry : entry ∈ listed) :
    FirstOccurrences listed (all ++ [entry]) where
  mem other := by
    rw [List.mem_append, List.mem_singleton, ← h.mem]
    exact ⟨.inl, fun hother => hother.elim id fun heq => heq ▸ hentry⟩
  order := h.pairwise_append [entry]

/-- A new entry is listed after the others. -/
theorem FirstOccurrences.new (h : FirstOccurrences listed all) (hentry : entry ∉ listed) :
    FirstOccurrences (listed ++ [entry]) (all ++ [entry]) where
  mem other := by rw [List.mem_append, List.mem_append, h.mem]
  order := by
    rw [List.pairwise_append]
    refine ⟨h.pairwise_append [entry], List.pairwise_singleton _ _, fun one hone other hother => ?_⟩
    obtain rfl := List.mem_singleton.mp hother
    have hone' : one ∈ all := (h.mem one).mp hone
    rw [List.idxOf_append_of_mem hone', List.idxOf_append_of_notMem (mt (h.mem other).mpr hentry)]
    have hless := List.idxOf_lt_length_of_mem hone'
    omega

end

/-! ## The multimap -/

namespace Headers

section

variable {h : Headers} {name : HeaderName} {value : HeaderValue}

theorem mem_values_iff : value ∈ h.values name ↔ (name, value) ∈ h.pairs := by
  simp [values]

theorem values_eq_nil_iff : h.values name = [] ↔ ∀ pair ∈ h.pairs, pair.1 ≠ name := by
  simp [values]

/-- **The first value** under a name is that of the first pair with the name. -/
theorem first?_eq_some_iff : h.first? name = some value ↔
    ∃ before after, h.pairs = before ++ (name, value) :: after ∧
      ∀ pair ∈ before, pair.1 ≠ name := by
  have hfind : h.first? name = (h.pairs.find? fun pair => pair.1 = name).map (·.2) := by
    rw [first?, values, List.head?_map, List.head?_filter]
  rw [hfind, Option.map_eq_some_iff]
  constructor
  · rintro ⟨⟨found, _⟩, hpair, rfl⟩
    obtain ⟨hname, before, after, hpairs, hbefore⟩ := List.find?_eq_some_iff_append.mp hpair
    obtain rfl : found = name := by simpa using hname
    exact ⟨before, after, hpairs, fun pair hmem => by simpa using hbefore pair hmem⟩
  · rintro ⟨before, after, hpairs, hbefore⟩
    refine ⟨(name, value), ?_, rfl⟩
    rw [List.find?_eq_some_iff_append]
    exact ⟨by simp, before, after, hpairs, fun pair hmem => by simpa using hbefore pair hmem⟩

theorem names_append (h : Headers) (name : HeaderName) (value : HeaderValue) :
    (h.append name value).names =
      if h.names.contains name then h.names else h.names ++ [name] := by
  simp [names, append]

/-- **Names are listed in the order in which they first occurred.** -/
theorem firstOccurrences_names (h : Headers) :
    FirstOccurrences h.names (h.pairs.map Prod.fst) := by
  obtain ⟨pairs⟩ := h
  induction pairs using List.reverseRecOn with
  | nil => exact firstOccurrences_nil
  | append_singleton pairs pair ih =>
    rw [List.map_append]
    show FirstOccurrences (Headers.append ⟨pairs⟩ pair.1 pair.2).names (_ ++ [pair.1])
    rw [names_append]
    split
    · next hlisted => exact ih.again (List.contains_iff_mem.mp hlisted)
    · next hnew => exact ih.new (mt List.contains_iff_mem.mpr hnew)

end

end Headers

end Switchboard
