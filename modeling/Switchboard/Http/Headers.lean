import Switchboard.Http.Token
set_option autoImplicit false

/-! # Headers

Headers are a list of name and value pairs in the order in which they were added. A name is looked
up without regard to letter case, because it is kept in lower case. `Headers.grouped` shows the
order in which headers are listed: each name where it first occurred, with all of its values. -/

namespace Switchboard

/-- A header name, in lower case. -/
structure HeaderName where
  text : String
  deriving Repr, DecidableEq

/-- A header value. -/
structure HeaderValue where
  text : String
  deriving Repr, DecidableEq

/-- The longest header name, in bytes. -/
def HeaderName.maxBytes : Nat := 65535

/-- The header name that a text spells. -/
def HeaderName.ofString? (text : String) : Except String HeaderName :=
  if isToken text && text.utf8ByteSize ≤ HeaderName.maxBytes then .ok ⟨lowerCase text⟩
  else .error "invalid HTTP header name"

/-- Whether a character may stand in a header value. -/
def HeaderValue.isValueChar (c : Char) : Bool :=
  c = '\t' || (0x20 ≤ c.toNat && c.toNat ≠ 0x7f)

/-- The header value that a text spells. -/
def HeaderValue.ofString? (text : String) : Except String HeaderValue :=
  if text.toList.all HeaderValue.isValueChar then .ok ⟨text⟩
  else .error "failed to parse header value"

/-- Headers in the order in which they were added. -/
structure Headers where
  pairs : List (HeaderName × HeaderValue)
  deriving Repr, DecidableEq

namespace Headers

/-- No headers. -/
def empty : Headers := ⟨[]⟩

/-- Adds a header, keeping those that are there. -/
def append (h : Headers) (name : HeaderName) (value : HeaderValue) : Headers :=
  ⟨h.pairs ++ [(name, value)]⟩

/-- All values under a name, in the order in which they were added. -/
def values (h : Headers) (name : HeaderName) : List HeaderValue :=
  (h.pairs.filter (·.1 = name)).map (·.2)

/-- The first value under a name. -/
def first? (h : Headers) (name : HeaderName) : Option HeaderValue := (h.values name).head?

/-- The names in the order in which they first occurred. -/
def names (h : Headers) : List HeaderName :=
  (h.pairs.map (·.1)).foldl
    (fun seen name => if seen.contains name then seen else seen ++ [name]) []

/-- All headers as they are listed: name by name, the values of a name together. -/
def grouped (h : Headers) : List (HeaderName × HeaderValue) :=
  h.names.flatMap fun name => (h.values name).map fun value => (name, value)

@[simp]
theorem values_append (h : Headers) (name other : HeaderName) (value : HeaderValue) :
    (h.append name value).values other =
      h.values other ++ if name = other then [value] else [] := by
  by_cases hn : name = other <;> simp [append, values, hn]

end Headers

end Switchboard
