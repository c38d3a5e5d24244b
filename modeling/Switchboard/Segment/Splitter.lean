import Switchboard.Fault
import Switchboard.Segment.Window
set_option autoImplicit false

/-! # Splitting as bytes arrive

A splitter takes an input chunk by chunk and delivers the segments between delimiters piece by
piece. It withholds only the bytes that may still turn out to belong to a delimiter: those in its
window. Everything else of the open segment is in `buffer` until the end of the chunk, when it is
delivered.

A splitter is a `Split`, and what it delivers goes to a `SegmentReceiver`. -/

namespace Switchboard

/-- A piece of a segment, and whether the segment ends with it. -/
structure Piece where
  bytes : Bytes
  last : Bool
  deriving Repr, DecidableEq

/-- A splitter in the middle of an input. -/
structure Splitter where
  delimiter : Bytes
  window : Window
  /-- Bytes of the open segment that have left the window and are not delivered yet. -/
  buffer : Array UInt8
  deriving Repr, DecidableEq

/-- What a splitter is told. -/
inductive SplitterInput where
  | chunk (bytes : Bytes)
  /-- The input ends. -/
  | finish
  /-- The open segment is given up. -/
  | giveUp
  deriving Repr, DecidableEq

namespace Splitter

/-- A splitter before any input, unless the delimiter is empty. -/
def ofDelimiter? (delimiter : Bytes) : Except SplitError Splitter :=
  if delimiter = [] then .error .emptyDelimiter
  else .ok ⟨delimiter, Window.ofCapacity delimiter.length, #[]⟩

/-- Takes one byte. A delimiter that it completes ends the segment. -/
def pushByte (s : Splitter) (byte : UInt8) : Splitter × Option Piece :=
  let (window, displaced) := s.window.push byte
  let buffer := match displaced with | some oldest => s.buffer.push oldest | none => s.buffer
  if window.matches? s.delimiter then
    (⟨s.delimiter, window.clear, #[]⟩, some ⟨buffer.toList, true⟩)
  else (⟨s.delimiter, window, buffer⟩, none)

/-- Takes the bytes of a chunk, ending segments on the way. -/
def pushBytes (s : Splitter) (chunk : Bytes) : Splitter × Array Piece :=
  chunk.foldl
    (fun (s, pieces) byte =>
      match s.pushByte byte with
      | (s, some piece) => (s, pieces.push piece)
      | (s, none) => (s, pieces))
    (s, #[])

/-- Delivers what the buffer holds of the open segment. -/
def flush (s : Splitter) : Splitter × List Piece :=
  if s.buffer.isEmpty then (s, []) else ({ s with buffer := #[] }, [⟨s.buffer.toList, false⟩])

/-- Takes a chunk of the input. -/
def push (s : Splitter) (chunk : Bytes) : Splitter × List Piece :=
  let (s, pieces) := s.pushBytes chunk
  let (s, more) := s.flush
  (s, pieces.toList ++ more)

/-- Ends the input. What was withheld belongs to the last segment. -/
def finish (s : Splitter) : Splitter × List Piece :=
  (⟨s.delimiter, s.window.clear, #[]⟩, [⟨s.buffer.toList ++ s.window.toList, true⟩])

/-- Gives the open segment up. -/
def giveUp (s : Splitter) : Splitter := ⟨s.delimiter, s.window.clear, #[]⟩

/-- Does what it is told. -/
def take (s : Splitter) : SplitterInput → Splitter × List Piece
  | .chunk bytes => s.push bytes
  | .finish => s.finish
  | .giveUp => (s.giveUp, [])

/-- Does one thing after the other; gives the pieces of each. -/
def takeAll : Splitter → List SplitterInput → Splitter × List (List Piece)
  | s, [] => (s, [])
  | s, input :: rest =>
    let (s, pieces) := s.take input
    let (s, more) := s.takeAll rest
    (s, pieces :: more)

/-- Takes a whole input in chunks and ends it. -/
def run (s : Splitter) : List Bytes → List Piece
  | [] => s.finish.2
  | chunk :: rest =>
    let (s, pieces) := s.push chunk
    pieces ++ s.run rest

end Splitter

/-! ## Segments from pieces -/

/-- The segments that pieces make up, and the bytes after the last ended one. -/
def joinPieces : Bytes → List Piece → List Bytes × Bytes
  | opened, [] => ([], opened)
  | opened, piece :: rest =>
    if piece.last then
      let (segments, left) := joinPieces [] rest
      ((opened ++ piece.bytes) :: segments, left)
    else joinPieces (opened ++ piece.bytes) rest

/-- The segments that pieces make up, each from its first piece to the one that ends it. -/
def segmentsOf (pieces : List Piece) : List Bytes := (joinPieces [] pieces).1

end Switchboard
