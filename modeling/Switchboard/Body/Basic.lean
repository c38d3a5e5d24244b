import Switchboard.Work
import Switchboard.Http.Headers
set_option autoImplicit false

/-! # Bodies

A body is empty, one piece of content, or a stream of frames that a feed produces over time. Every
way of reading a body is built on `Body.poll`, which asks for the next frame once, or on
`Body.read`, which asks until the body ends. -/

namespace Switchboard

/-- What a body is made of. -/
inductive Frame where
  | data (bytes : Bytes)
  | trailers (headers : Headers)
  deriving Repr, DecidableEq

/-- One step in the life of a feed. -/
inductive Item where
  | frame (frame : Frame)
  | fail (error : BodyError)
  | wait (ms : Nat)
  | gate (name : String)
  /-- Nothing follows any more, not even the end. -/
  | stall

/-- A producer of frames. -/
structure Feed where
  /-- The name under which the journal notes what was read. -/
  label : String
  /-- Trailers are read but not handed out. -/
  dataOnly : Bool
  items : List Item
  /-- What is produced for ever after the items, instead of the end. -/
  endless : Option Bytes

/-- The content of a message. -/
inductive Body where
  | empty
  | once (bytes : Bytes)
  | stream (feed : Feed)

/-- What one poll of a body gives. -/
inductive Polled where
  | frame (frame : Frame)
  | failed (error : BodyError)
  | pending
  | ended

namespace Body

/-- The body with this content. -/
def ofBytes (bytes : Bytes) : Body := if bytes.isEmpty then .empty else .once bytes

/-- The body with this text. -/
def ofText (text : String) : Body := ofBytes (utf8 text)

/-- Whether the body is known to have ended. -/
def isEnd : Body → Bool
  | .empty => true
  | .once _ => false
  | .stream _ => false

/-- Bounds of the size of the body. -/
def sizeHint : Body → Nat × Option Nat
  | .empty => (0, some 0)
  | .once bytes => (bytes.length, some bytes.length)
  | .stream _ => (0, none)

/-- The diagnostic text of a body. -/
def debug : Body → String
  | .empty => "Body::Empty"
  | .once bytes => "Body::Once(" ++ toString bytes.length ++ ")"
  | .stream _ => "Body::Stream"

end Body

/-! ## One frame -/

/-- Asks a feed for its next frame: what it notes, what it gives, and the items that are left. -/
def Feed.pollItems (opened : List String) (feed : Feed) :
    List Item → List Note × Polled × List Item
  | [] =>
    match feed.endless with
    | some bytes => ([.produced feed.label bytes.length], .frame (.data bytes), [])
    | none => ([.exhausted feed.label], .ended, [])
  | .frame (.data bytes) :: rest =>
    ([.produced feed.label bytes.length], .frame (.data bytes), rest)
  | .frame (.trailers headers) :: rest =>
    if feed.dataOnly then
      let (notes, polled, left) := feed.pollItems opened rest
      (.produced feed.label 0 :: notes, polled, left)
    else ([.produced feed.label 0], .frame (.trailers headers), rest)
  | .fail error :: rest => ([.produced feed.label 0], .failed error, rest)
  | .wait ms :: rest =>
    if ms = 0 then feed.pollItems opened rest else ([], .pending, .wait ms :: rest)
  | .gate name :: rest =>
    if opened.contains name then feed.pollItems opened rest
    else ([], .pending, .gate name :: rest)
  | .stall :: rest => ([], .pending, .stall :: rest)

/-- Asks a body for its next frame once. -/
def Body.poll (opened : List String) : Body → List Note × Polled × Body
  | .empty => ([], .ended, .empty)
  | .once bytes => ([], .frame (.data bytes), .empty)
  | .stream feed =>
    let (notes, polled, items) := feed.pollItems opened feed.items
    (notes, polled, .stream { feed with items := items })

/-! ## All frames -/

/-- What a reader is given, frame by frame. -/
inductive Received where
  | data (bytes : Bytes)
  | trailers (headers : Headers)
  | error (error : BodyError)

/-- The item of a feed that is given to a reader like this. -/
def Received.item : Received → Item
  | .data bytes => .frame (.data bytes)
  | .trailers headers => .frame (.trailers headers)
  | .error e => .fail e

/-- What a reader is given for a chunk of a stream, whose errors become errors of the body. -/
def Received.ofChunk {ε : Type} (into : ε → BodyError) : Except ε Bytes → Received
  | .ok bytes => .data bytes
  | .error e => .error (into e)

namespace Body

/-- The body that gives these frames. -/
def ofFrames (label : String) (frames : List Received) : Body :=
  .stream ⟨label, false, frames.map Received.item, none⟩

/-- The body of a stream of chunks. -/
def ofStream {ε : Type} (label : String) (into : ε → BodyError) (chunks : List (Except ε Bytes)) :
    Body :=
  .stream ⟨label, true, chunks.map fun chunk => (Received.ofChunk into chunk).item, none⟩

end Body

/-- Reads the items of a feed to the end, or until the visitor refuses to go on. -/
def Feed.readItems {σ ε : Type} (visit : σ → Received → Except ε σ) (feed : Feed) :
    List Item → σ → Work (Except ε σ)
  | [], state =>
    if feed.endless.isSome then .stalled
    else .note (.exhausted feed.label) (.done (.ok state))
  | .frame (.data bytes) :: rest, state =>
    .note (.produced feed.label bytes.length) <|
      match visit state (.data bytes) with
      | .ok state => feed.readItems visit rest state
      | .error e => .done (.error e)
  | .frame (.trailers headers) :: rest, state =>
    .note (.produced feed.label 0) <|
      if feed.dataOnly then feed.readItems visit rest state
      else
        match visit state (.trailers headers) with
        | .ok state => feed.readItems visit rest state
        | .error e => .done (.error e)
  | .fail error :: rest, state =>
    .note (.produced feed.label 0) <|
      match visit state (.error error) with
      | .ok state => feed.readItems visit rest state
      | .error e => .done (.error e)
  | .wait ms :: rest, state => .afterSleep ms (feed.readItems visit rest state)
  | .gate name :: rest, state => .pause (.gate name) (feed.readItems visit rest state)
  | .stall :: _, _ => .stalled

/-- Reads a body to its end, or until the visitor refuses to go on. A body that never ends is
never read to its end. -/
def Body.read {σ ε : Type} (visit : σ → Received → Except ε σ) (state : σ) :
    Body → Work (Except ε σ)
  | .empty => .done (.ok state)
  | .once bytes => .done (visit state (.data bytes))
  | .stream feed => feed.readItems visit feed.items state

end Switchboard
