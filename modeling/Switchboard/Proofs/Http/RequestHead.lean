import Switchboard.Http.Request
import Switchboard.Proofs.Http.Headers
set_option autoImplicit false

/-! # Heads that are read from texts

A head is read from its line and from pairs of texts. It is refused for the first part that is not
in order, which `RequestHead.FirstFault` names, and otherwise it keeps every pair
(`RequestHead.parse_eq_ok_iff`). The main statement is `RequestHead.parse_keeps_headers`. -/

namespace Switchboard

namespace RequestHead

/-! ## Faults -/

/-- The pair of texts is a header. -/
def IsHeader (pair : String × String) : Prop := IsHeaderName pair.1 ∧ IsHeaderValue pair.2

instance (pair : String × String) : Decidable (IsHeader pair) :=
  inferInstanceAs (Decidable (_ ∧ _))

/-- What is wrong with a pair of texts that is no header; the name comes before the value. -/
inductive HeaderFault : String × String → ParseError → Prop where
  | name {name value : String} (h : ¬ IsHeaderName name) :
    HeaderFault (name, value) (.header "invalid HTTP header name")
  | value {name value : String} (hname : IsHeaderName name) (h : ¬ IsHeaderValue value) :
    HeaderFault (name, value) (.header "failed to parse header value")

/-- **The first fault of a head**: that of its line, or else that of the first pair that is no
header. -/
inductive FirstFault (line : String) : List (String × String) → ParseError → Prop where
  | line {pairs : List (String × String)} {e : ParseError} (h : RequestLine.parse line = .error e) :
    FirstFault line pairs e
  | header {before after : List (String × String)} {pair : String × String} {e : ParseError}
    (hline : ∃ l, RequestLine.parse line = .ok l) (hbefore : ∀ other ∈ before, IsHeader other)
    (hpair : HeaderFault pair e) : FirstFault line (before ++ pair :: after) e

/-- The header that a pair of texts spells. -/
def spelled (pair : String × String) : HeaderName × HeaderValue := (⟨lowerCase pair.1⟩, ⟨pair.2⟩)

/-! ## Adding headers -/

section

variable {headers : Headers} {pair : String × String} {before : List (String × String)}
  {e : ParseError}

/-- Adds headers one after the other. -/
def appendAll (headers : Headers) (pairs : List (String × String)) : Except ParseError Headers :=
  pairs.foldlM (fun h (name, value) => appendHeader h name value) headers

theorem appendHeader_of_isHeader (h : IsHeader pair) :
    appendHeader headers pair.1 pair.2 = .ok ⟨headers.pairs ++ [spelled pair]⟩ := by
  simp only [appendHeader, HeaderName.ofString?_of_isHeaderName h.1,
    HeaderValue.ofString?_of_isHeaderValue h.2]
  rfl

theorem appendHeader_of_fault (h : HeaderFault pair e) :
    appendHeader headers pair.1 pair.2 = .error e := by
  cases h with
  | name hname => simp only [appendHeader, HeaderName.ofString?_of_not hname]
  | value hname hvalue =>
    simp only [appendHeader, HeaderName.ofString?_of_isHeaderName hname,
      HeaderValue.ofString?_of_not hvalue]

theorem exists_fault (h : ¬ IsHeader pair) : ∃ e, HeaderFault pair e := by
  by_cases hname : IsHeaderName pair.1
  · exact ⟨_, .value hname fun hvalue => h ⟨hname, hvalue⟩⟩
  · exact ⟨_, .name hname⟩

/-- **All pairs are kept** if all of them are headers. -/
theorem appendAll_append (headers : Headers) (after : List (String × String))
    (hbefore : ∀ other ∈ before, IsHeader other) :
    appendAll headers (before ++ after) =
      appendAll ⟨headers.pairs ++ before.map spelled⟩ after := by
  induction before generalizing headers with
  | nil => simp
  | cons pair rest ih =>
    obtain ⟨hpair, hrest⟩ := List.forall_mem_cons.mp hbefore
    have hnext := ih ⟨headers.pairs ++ [spelled pair]⟩ hrest
    simp only [List.append_assoc, List.singleton_append] at hnext
    rw [List.map_cons, ← hnext]
    show (appendHeader headers pair.1 pair.2).bind _ = _
    rw [appendHeader_of_isHeader hpair]
    rfl

/-- The first pair that is no header ends the adding. -/
theorem appendAll_of_fault (headers : Headers) (after : List (String × String))
    (hbefore : ∀ other ∈ before, IsHeader other) (hpair : HeaderFault pair e) :
    appendAll headers (before ++ pair :: after) = .error e := by
  rw [appendAll_append headers _ hbefore]
  show (appendHeader _ pair.1 pair.2).bind _ = _
  rw [appendHeader_of_fault hpair]
  rfl

/-- Either all pairs are headers, or there is a first one that is not. -/
theorem all_or_first (pairs : List (String × String)) :
    (∀ pair ∈ pairs, IsHeader pair) ∨
      ∃ before pair after, pairs = before ++ pair :: after ∧
        (∀ other ∈ before, IsHeader other) ∧ ¬ IsHeader pair := by
  induction pairs with
  | nil => exact .inl (List.forall_mem_nil _)
  | cons first rest ih =>
    by_cases hfirst : IsHeader first
    · obtain hrest | ⟨before, pair, after, rfl, hbefore, hpair⟩ := ih
      · exact .inl (List.forall_mem_cons.mpr ⟨hfirst, hrest⟩)
      · exact .inr ⟨first :: before, pair, after, rfl,
          List.forall_mem_cons.mpr ⟨hfirst, hbefore⟩, hpair⟩
    · exact .inr ⟨[], first, rest, rfl, List.forall_mem_nil _, hfirst⟩

end

/-! ## Reading a head -/

section

variable {line : String} {l : RequestLine} {pairs : List (String × String)} {e : ParseError}
  {head : RequestHead}

theorem parse_of_firstFault (h : FirstFault line pairs e) : parse line pairs = .error e := by
  cases h with
  | line hline => simp only [parse, hline]
  | @header before after pair _ hline hbefore hpair =>
    obtain ⟨l, hline⟩ := hline
    have hheaders := appendAll_of_fault Headers.empty after hbefore hpair
    rw [appendAll] at hheaders
    simp only [parse, hline, hheaders]

theorem parse_of_isHeader (hline : RequestLine.parse line = .ok l)
    (hpairs : ∀ pair ∈ pairs, IsHeader pair) :
    parse line pairs = .ok ⟨l, ⟨pairs.map spelled⟩, []⟩ := by
  have hheaders := appendAll_append Headers.empty [] hpairs
  rw [List.append_nil, appendAll] at hheaders
  simp only [parse, hline, hheaders]
  rfl

/-- A head has a first fault, or its line and all of its headers are in order. -/
theorem firstFault_or_sound (line : String) (pairs : List (String × String)) :
    (∃ e, FirstFault line pairs e) ∨
      (∃ l, RequestLine.parse line = .ok l) ∧ ∀ pair ∈ pairs, IsHeader pair := by
  cases hline : RequestLine.parse line with
  | error e => exact .inl ⟨e, .line hline⟩
  | ok l =>
    obtain hpairs | ⟨before, pair, after, rfl, hbefore, hpair⟩ := all_or_first pairs
    · exact .inr ⟨⟨l, rfl⟩, hpairs⟩
    · obtain ⟨e, hfault⟩ := exists_fault hpair
      exact .inl ⟨e, .header ⟨l, hline⟩ hbefore hfault⟩

/-- **A head is refused for its first fault.** -/
theorem parse_eq_error_iff : parse line pairs = .error e ↔ FirstFault line pairs e := by
  refine ⟨fun h => ?_, parse_of_firstFault⟩
  obtain ⟨other, hfault⟩ | ⟨⟨l, hline⟩, hpairs⟩ := firstFault_or_sound line pairs
  · rw [parse_of_firstFault hfault] at h
    cases h
    exact hfault
  · rw [parse_of_isHeader hline hpairs] at h
    cases h

/-- **A head that is read** has the line and every pair, in their order. -/
theorem parse_eq_ok_iff : parse line pairs = .ok head ↔
    (∀ pair ∈ pairs, IsHeader pair) ∧
      ∃ l, RequestLine.parse line = .ok l ∧ head = ⟨l, ⟨pairs.map spelled⟩, []⟩ := by
  constructor
  · intro h
    obtain ⟨e, hfault⟩ | ⟨⟨l, hline⟩, hpairs⟩ := firstFault_or_sound line pairs
    · rw [parse_of_firstFault hfault] at h
      cases h
    · rw [parse_of_isHeader hline hpairs] at h
      cases h
      exact ⟨hpairs, l, hline, rfl⟩
  · rintro ⟨hpairs, l, hline, rfl⟩
    exact parse_of_isHeader hline hpairs

/-- **Looking a name up** finds the values of all pairs with that name, in any letter case. A text
that is no header name finds nothing, and no pair has it for its name. -/
theorem lookup_of_spelled (hpairs : ∀ pair ∈ pairs, IsHeader pair)
    (hhead : head.headers = ⟨pairs.map spelled⟩) (name : String) :
    head.lookup name =
      (pairs.filter fun pair => lowerCase pair.1 = lowerCase name).map fun pair => ⟨pair.2⟩ := by
  by_cases hname : IsHeaderName name
  · simp only [lookup, HeaderName.ofString?_of_isHeaderName hname, hhead, Headers.values,
      List.filter_map, List.map_map]
    refine congrArg₂ List.map rfl (List.filter_congr fun pair _ => ?_)
    simp [spelled]
  · have hnone : (pairs.filter fun pair => lowerCase pair.1 = lowerCase name) = [] := by
      simp only [List.filter_eq_nil_iff, decide_eq_true_eq]
      intro pair hmem hcase
      exact hname ((hpairs pair hmem).1.congr hcase)
    rw [hnone, lookup, HeaderName.ofString?_of_not hname]
    rfl

end

/-- **Reading a head loses no header.** A head is refused exactly if its line or one of the pairs is
not in order, and for the first of these faults. If it is read, it has the line; under every name,
in any letter case, it has the values of all pairs with that name, in their order; and its names are
listed where they first occurred. A copy keeps the line and the headers, and so does attaching
anything to the head, be it a body or nothing, and taking it off again. -/
theorem parse_keeps_headers (line : String) (pairs : List (String × String)) :
    (∀ e, parse line pairs = .error e ↔ FirstFault line pairs e) ∧
    ((∃ head, parse line pairs = .ok head) ↔
      (∃ l, RequestLine.parse line = .ok l) ∧ ∀ pair ∈ pairs, IsHeader pair) ∧
    ∀ head, parse line pairs = .ok head →
      RequestLine.parse line = .ok head.line ∧
      (∀ name, head.lookup name =
        (pairs.filter fun pair => lowerCase pair.1 = lowerCase name).map fun pair => ⟨pair.2⟩) ∧
      FirstOccurrences head.headers.names (pairs.map fun pair => ⟨lowerCase pair.1⟩) ∧
      head.copy.line = head.line ∧ head.copy.headers = head.headers ∧
      ∀ (α : Type) (body : α), (head.attach body).head = head ∧ (head.attach body).body = body ∧
        (head.attach body).detach = head := by
  refine ⟨fun e => parse_eq_error_iff, ?_, fun head h => ?_⟩
  · constructor
    · rintro ⟨head, h⟩
      obtain ⟨hpairs, l, hline, -⟩ := parse_eq_ok_iff.mp h
      exact ⟨⟨l, hline⟩, hpairs⟩
    · rintro ⟨⟨l, hline⟩, hpairs⟩
      exact ⟨_, parse_of_isHeader hline hpairs⟩
  · obtain ⟨hpairs, l, hline, rfl⟩ := parse_eq_ok_iff.mp h
    refine ⟨hline, lookup_of_spelled hpairs rfl, ?_, rfl, rfl, fun α body => ⟨rfl, rfl, rfl⟩⟩
    have hnames := Headers.firstOccurrences_names ⟨pairs.map spelled⟩
    rwa [List.map_map] at hnames

/-- Three headers, two of one name that is spelled in two ways: both values are found under a third
spelling, and so they are in a copy. Of two faults the first one is reported. -/
theorem parse_keeps_headers_mixed :
    (∃ head, parse "GET /a HTTP/1.1"
        [("Accept", "*/*"), ("Host", "a"), ("ACCEPT", "text/plain")] = .ok head ∧
      head.lookup "accept" = [⟨"*/*"⟩, ⟨"text/plain"⟩] ∧
      FirstOccurrences head.headers.names [⟨"accept"⟩, ⟨"host"⟩, ⟨"accept"⟩] ∧
      head.copy.headers = head.headers) ∧
    parse "GET /a HTTP/1.1" [("Host", "a"), ("a", "\n"), ("b c", "")] =
      .error (.header "failed to parse header value") := by
  have hline : RequestLine.parse "GET /a HTTP/1.1" =
      .ok ⟨.get, ⟨none, none, "/a", none⟩, .http11⟩ := by rfl
  constructor
  · obtain ⟨-, hreads, hkept⟩ := parse_keeps_headers "GET /a HTTP/1.1"
      [("Accept", "*/*"), ("Host", "a"), ("ACCEPT", "text/plain")]
    obtain ⟨head, hhead⟩ := hreads.mpr ⟨⟨_, hline⟩, by decide⟩
    obtain ⟨-, hlookup, hnames, -, hcopy, -⟩ := hkept head hhead
    refine ⟨head, hhead, ?_, hnames, hcopy⟩
    rw [hlookup]
    decide
  · obtain ⟨hrefuses, -, -⟩ := parse_keeps_headers "GET /a HTTP/1.1"
      [("Host", "a"), ("a", "\n"), ("b c", "")]
    have hbefore : ∀ other ∈ [("Host", "a")], IsHeader other := by decide
    have hfault : HeaderFault ("a", "\n") (.header "failed to parse header value") :=
      .value (by decide) (by decide)
    exact (hrefuses _).mpr (.header ⟨_, hline⟩ hbefore hfault)

end RequestHead

end Switchboard
