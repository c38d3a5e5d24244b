import Switchboard.Bytes
set_option autoImplicit false

/-! # Decoded text

Content is read as text character by character. Where bytes do not form a character, the longest run
of them that begins one is replaced by a single replacement character, so reading never fails. -/

namespace Switchboard

/-- A character whose first bytes have been read. -/
structure Unfinished where
  /-- The bits read so far. -/
  bits : Nat
  /-- How many bytes are missing. -/
  missing : Nat
  /-- The bounds of the next byte. -/
  low : UInt8
  high : UInt8
  deriving Repr, DecidableEq

/-- Stands where bytes form no character. -/
def replacement : Char := Char.ofNat 0xfffd

/-- What a byte means at the beginning of a character: the characters that it completes, or the one
that it begins. -/
def firstByte (byte : UInt8) : List Char × Option Unfinished :=
  let begins (bits missing : Nat) (low high : UInt8) : List Char × Option Unfinished :=
    ([], some ⟨bits, missing, low, high⟩)
  if byte < 0x80 then ([Char.ofNat byte.toNat], none)
  else if byte < 0xc2 then ([replacement], none)
  else if byte < 0xe0 then begins (byte.toNat - 0xc0) 1 0x80 0xbf
  else if byte = 0xe0 then begins 0 2 0xa0 0xbf
  else if byte = 0xed then begins 0xd 2 0x80 0x9f
  else if byte < 0xf0 then begins (byte.toNat - 0xe0) 2 0x80 0xbf
  else if byte = 0xf0 then begins 0 3 0x90 0xbf
  else if byte < 0xf4 then begins (byte.toNat - 0xf0) 3 0x80 0xbf
  else if byte = 0xf4 then begins 4 3 0x80 0x8f
  else ([replacement], none)

/-- What a byte means after the first bytes of a character. -/
def nextByte (begun : Unfinished) (byte : UInt8) : List Char × Option Unfinished :=
  if begun.low ≤ byte && byte ≤ begun.high then
    let bits := begun.bits * 64 + (byte.toNat - 0x80)
    if begun.missing ≤ 1 then ([Char.ofNat bits], none)
    else ([], some ⟨bits, begun.missing - 1, 0x80, 0xbf⟩)
  else
    let (characters, begun) := firstByte byte
    (replacement :: characters, begun)

/-- The characters of content, after the first bytes of a character or none. -/
def decodeFrom : Option Unfinished → Bytes → List Char
  | none, [] => []
  | some _, [] => [replacement]
  | none, byte :: rest => (firstByte byte).1 ++ decodeFrom (firstByte byte).2 rest
  | some begun, byte :: rest => (nextByte begun byte).1 ++ decodeFrom (nextByte begun byte).2 rest

/-- The text that content reads as. -/
def decoded (content : Bytes) : String := String.ofList (decodeFrom none content)

end Switchboard
