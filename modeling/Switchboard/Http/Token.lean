set_option autoImplicit false

/-! # Tokens

Methods and header names are tokens: non-empty words over letters, digits and a few marks. -/

namespace Switchboard

/-- Whether a character is an ASCII letter or digit. -/
def isAlphanumeric (c : Char) : Bool :=
  ('a' ≤ c && c ≤ 'z') || ('A' ≤ c && c ≤ 'Z') || ('0' ≤ c && c ≤ '9')

/-- Whether a character may stand in a token. -/
def isTokenChar (c : Char) : Bool :=
  isAlphanumeric c ||
    ['!', '#', '$', '%', '&', '\'', '*', '+', '-', '.', '^', '_', '\x60', '|', '~'].contains c

/-- Whether a text is a token. -/
def isToken (text : String) : Bool :=
  !text.isEmpty && text.toList.all isTokenChar

/-- The lower-case form of an ASCII letter; any other character is left as it is. -/
def lowerChar (c : Char) : Char :=
  if 'A' ≤ c && c ≤ 'Z' then Char.ofNat (c.toNat + 32) else c

/-- A text with its ASCII letters in lower case. -/
def lowerCase (text : String) : String := String.ofList (text.toList.map lowerChar)

end Switchboard
