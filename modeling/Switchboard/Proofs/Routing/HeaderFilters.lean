import Mathlib.Data.List.Perm.Basic
import Switchboard.Proofs.Http.RequestHead
import Switchboard.Routing.Filter
set_option autoImplicit false

/-! # Filters on headers

A filter on a header compares the value that it wants with the first value of the name. So it
overlooks a header that stands behind another one of the same name (`Headers.Hides`), and that is
the only case in which it refuses a request that carries the header: the main statement is
`Filter.header_accepts_first`. -/

namespace Switchboard

namespace Headers

/-- A header that is there stands behind another one of the same name, which has a different
value. -/
def Hides (h : Headers) (name : HeaderName) (value : HeaderValue) : Prop :=
  ∃ before other after, h.pairs = before ++ (name, other) :: after ∧ other ≠ value ∧
    (∀ pair ∈ before, pair.1 ≠ name) ∧ (name, value) ∈ after

section

variable {h other : Headers} {name : HeaderName} {value : HeaderValue}

/-- What is hidden is not the first value. -/
theorem Hides.first?_ne (hhides : h.Hides name value) : h.first? name ≠ some value := by
  obtain ⟨before, another, after, hpairs, hne, hbefore, -⟩ := hhides
  rw [first?_eq_some_iff.mpr ⟨before, after, hpairs, hbefore⟩]
  intro heq
  exact hne (Option.some.inj heq)

/-- **A header that is there** is the first one of its name, or it is hidden. -/
theorem mem_pairs_iff :
    (name, value) ∈ h.pairs ↔ h.first? name = some value ∨ h.Hides name value := by
  constructor
  · intro hmem
    cases hfirst : h.first? name with
    | none =>
      rw [first?, List.head?_eq_none_iff, values_eq_nil_iff] at hfirst
      exact absurd rfl (hfirst _ hmem)
    | some another =>
      by_cases heq : another = value
      · exact .inl (congrArg some heq)
      · obtain ⟨before, after, hpairs, hbefore⟩ := first?_eq_some_iff.mp hfirst
        right
        refine ⟨before, another, after, hpairs, heq, hbefore, ?_⟩
        -- it is neither before the first header of its name nor that header itself
        rw [hpairs, List.mem_append, List.mem_cons] at hmem
        obtain hmem | hmem | hmem := hmem
        · exact absurd rfl (hbefore _ hmem)
        · exact absurd (Prod.mk.inj hmem).2.symm heq
        · exact hmem
  · rintro (hfirst | ⟨before, another, after, hpairs, -, -, hmem⟩)
    · obtain ⟨before, after, hpairs, -⟩ := first?_eq_some_iff.mp hfirst
      simp [hpairs]
    · simp [hpairs, hmem]

/-- A name that is not repeated hides nothing. -/
theorem not_hides_of_length_le (hlength : (h.values name).length ≤ 1) : ¬ h.Hides name value := by
  rintro ⟨before, another, after, hpairs, -, -, hmem⟩
  have hvalue : value ∈ (⟨after⟩ : Headers).values name := mem_values_iff.mpr hmem
  have hpos := List.length_pos_of_mem hvalue
  simp only [values, hpairs, List.filter_append, List.filter_cons, List.map_append,
    List.length_append, decide_true, if_true, List.map_cons, List.length_cons] at hlength hpos
  omega

/-- Where a name is not repeated, its values do not depend on the order of the headers. -/
theorem values_eq_of_perm (hperm : other.pairs.Perm h.pairs)
    (hlength : (h.values name).length ≤ 1) : other.values name = h.values name := by
  have hvalues : (other.values name).Perm (h.values name) :=
    (hperm.filter _).map _
  cases hlist : h.values name with
  | nil =>
    rw [hlist] at hvalues
    exact hvalues.eq_nil
  | cons first rest =>
    rw [hlist, List.length_cons] at hlength
    obtain rfl : rest = [] := List.length_eq_zero_iff.mp (by omega)
    rw [hlist] at hvalues
    exact List.perm_singleton.mp hvalues

end

end Headers

namespace Filter

section

variable {name value : String} {filter : Filter}

theorem ofHeader_eq_ok_iff : ofHeader name value = .ok filter ↔
    (IsHeaderName name ∧ IsHeaderValue value) ∧ filter = .header ⟨lowerCase name⟩ ⟨value⟩ := by
  by_cases hname : IsHeaderName name
  · by_cases hvalue : IsHeaderValue value
    · simp [ofHeader, HeaderName.ofString?_of_isHeaderName hname,
        HeaderValue.ofString?_of_isHeaderValue hvalue, hname, hvalue, eq_comm]
    · simp [ofHeader, HeaderName.ofString?_of_isHeaderName hname,
        HeaderValue.ofString?_of_not hvalue, hvalue]
  · simp [ofHeader, HeaderName.ofString?_of_not hname, hname]

theorem accepts_header (head : RequestHead) (name : HeaderName) (value : HeaderValue) :
    (Filter.header name value).accepts head = true ↔ head.headers.first? name = some value := by
  simp [accepts, decideBasic]

/-- **A filter on a header accepts a request if and only if the first header of the name has the
value.** It decides whether the request carries the header unless the header is hidden behind
another one of its name; so it does where the name is not repeated. Its decision depends on the
values of the name and their order only, and where the name is not repeated, on no order at all. -/
theorem header_accepts_first (h : ofHeader name value = .ok filter) (head : RequestHead) :
    (filter.accepts head = true ↔
      ∃ before after, head.headers.pairs = before ++ (⟨lowerCase name⟩, ⟨value⟩) :: after ∧
        ∀ pair ∈ before, pair.1 ≠ ⟨lowerCase name⟩) ∧
    ((filter.accepts head = true ↔ (⟨lowerCase name⟩, ⟨value⟩) ∈ head.headers.pairs) ↔
      ¬ head.headers.Hides ⟨lowerCase name⟩ ⟨value⟩) ∧
    ((head.headers.values ⟨lowerCase name⟩).length ≤ 1 →
      ¬ head.headers.Hides ⟨lowerCase name⟩ ⟨value⟩) ∧
    ∀ other : RequestHead,
      (other.headers.values ⟨lowerCase name⟩ = head.headers.values ⟨lowerCase name⟩ →
        filter.accepts other = filter.accepts head) ∧
      (other.headers.pairs.Perm head.headers.pairs →
        (head.headers.values ⟨lowerCase name⟩).length ≤ 1 →
          filter.accepts other = filter.accepts head) := by
  obtain ⟨-, rfl⟩ := ofHeader_eq_ok_iff.mp h
  have hsame (other : RequestHead)
      (hvalues : other.headers.values ⟨lowerCase name⟩ = head.headers.values ⟨lowerCase name⟩) :
      (Filter.header ⟨lowerCase name⟩ ⟨value⟩).accepts other =
        (Filter.header ⟨lowerCase name⟩ ⟨value⟩).accepts head := by
    rw [Bool.eq_iff_iff, accepts_header, accepts_header, Headers.first?, Headers.first?, hvalues]
  refine ⟨?_, ?_, Headers.not_hides_of_length_le, fun other => ⟨hsame other, ?_⟩⟩
  · rw [accepts_header, Headers.first?_eq_some_iff]
  · rw [accepts_header, Headers.mem_pairs_iff]
    constructor
    · intro hdecides hhides
      exact hhides.first?_ne (hdecides.mpr (.inr hhides))
    · intro hfree
      exact ⟨.inl, fun hcarried => hcarried.resolve_right hfree⟩
  · intro hperm hlength
    exact hsame other (Headers.values_eq_of_perm hperm hlength)

end

/-- Of two values of one name the first one is accepted, whatever the letter case of the name. A
value that is the only one of its name is accepted before and after another header. -/
theorem header_accepts_first_accept :
    let head (pairs : List (HeaderName × HeaderValue)) : RequestHead :=
      ⟨⟨.get, ⟨none, none, "/", none⟩, .http11⟩, ⟨pairs⟩, []⟩
    ∃ filter, ofHeader "ACCEPT" "*/*" = .ok filter ∧
      filter.accepts (head [(⟨"accept"⟩, ⟨"*/*"⟩), (⟨"accept"⟩, ⟨"text/plain"⟩)]) = true ∧
      filter.accepts (head [(⟨"accept"⟩, ⟨"*/*"⟩), (⟨"host"⟩, ⟨"a"⟩)]) = true ∧
      filter.accepts (head [(⟨"host"⟩, ⟨"a"⟩), (⟨"accept"⟩, ⟨"*/*"⟩)]) = true := by
  intro head
  have hfilter : ofHeader "ACCEPT" "*/*" = .ok (.header ⟨lowerCase "ACCEPT"⟩ ⟨"*/*"⟩) :=
    ofHeader_eq_ok_iff.mpr ⟨by decide, rfl⟩
  obtain ⟨hrepeated, -, -, -⟩ := header_accepts_first hfilter
    (head [(⟨"accept"⟩, ⟨"*/*"⟩), (⟨"accept"⟩, ⟨"text/plain"⟩)])
  obtain ⟨-, hcarries, hfree, hothers⟩ := header_accepts_first hfilter
    (head [(⟨"accept"⟩, ⟨"*/*"⟩), (⟨"host"⟩, ⟨"a"⟩)])
  have haccepts := (hcarries.mpr (hfree (by decide))).mpr (by decide)
  refine ⟨_, hfilter, hrepeated.mpr ?_, haccepts, ?_⟩
  · exact ⟨[], [(⟨"accept"⟩, ⟨"text/plain"⟩)], by decide, List.forall_mem_nil _⟩
  · rw [(hothers _).2 (List.Perm.swap _ _ _) (by decide)]
    exact haccepts

/-- **A header is overlooked**: the request carries `Accept: text/plain`, but as its second value
of the name, and the filter refuses it. It accepts the request with the two headers the other way
round. -/
theorem header_overlooks_second :
    ∃ filter head swapped,
      ofHeader "accept" "text/plain" = .ok filter ∧
      RequestHead.parse "GET / HTTP/1.1" [("Accept", "*/*"), ("Accept", "text/plain")] = .ok head ∧
      RequestHead.parse "GET / HTTP/1.1" [("Accept", "text/plain"), ("Accept", "*/*")] =
        .ok swapped ∧
      (⟨"accept"⟩, ⟨"text/plain"⟩) ∈ head.headers.pairs ∧ filter.accepts head = false ∧
      swapped.headers.pairs.Perm head.headers.pairs ∧ filter.accepts swapped = true := by
  have hline : RequestLine.parse "GET / HTTP/1.1" =
      .ok ⟨.get, ⟨none, none, "/", none⟩, .http11⟩ := by rfl
  refine ⟨_, _, _, ofHeader_eq_ok_iff.mpr ⟨by decide, rfl⟩,
    RequestHead.parse_of_isHeader hline (by decide),
    RequestHead.parse_of_isHeader hline (by decide), by decide, ?_, by decide, ?_⟩
  · rw [Bool.eq_false_iff, Ne, accepts_header]
    decide
  · rw [accepts_header]
    decide

end Filter

end Switchboard
