set_option autoImplicit false

/-! # Content as bytes

Bodies, delimiters and segments are lists of bytes; names, targets and header values are texts.
`utf8` is the one bridge between them. -/

namespace Switchboard

/-- A piece of content. -/
abbrev Bytes := List UInt8

/-- The bytes of a text. -/
def utf8 (text : String) : Bytes := text.toUTF8.data.toList

end Switchboard
