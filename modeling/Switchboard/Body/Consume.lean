import Switchboard.Body.Basic
set_option autoImplicit false

/-! # Ways of consuming a body

`Body.content` gives the content, `Body.size` its length, `Body.chunks` every piece with the errors
between them, and `Body.skim` reads without waiting up to a limit. All but `chunks` end with the
first error; `chunks` goes on after it. All of them skip trailers. -/

namespace Switchboard

namespace Body

/-! ## Reading to the end -/

/-- The content of a body, or its first error. -/
def content (body : Body) : Work (Except BodyError Bytes) :=
  body.read
    (fun content received =>
      match received with
      | .data bytes => .ok (content ++ bytes)
      | .trailers _ => .ok content
      | .error e => .error e)
    []

/-- The number of bytes of a body, or its first error. -/
def size (body : Body) : Work (Except BodyError Nat) :=
  body.read
    (fun size received =>
      match received with
      | .data bytes => .ok (size + bytes.length)
      | .trailers _ => .ok size
      | .error e => .error e)
    0

/-- A piece of content, or an error in its place. -/
abbrev Chunk := Except BodyError Bytes

/-- Every chunk of a body, errors included. -/
def chunks (body : Body) : Work (List Chunk) :=
  (body.read (ε := Empty)
    (fun seen received =>
      match received with
      | .data bytes => .ok (seen ++ [.ok bytes])
      | .trailers _ => .ok seen
      | .error e => .ok (seen ++ [.error e]))
    []).map
    (fun | .ok seen => seen | .error e => e.elim)

/-! ## The next chunk -/

/-- What one poll for a chunk gives. -/
inductive ChunkPoll where
  | chunk (chunk : Chunk)
  | pending
  | ended

/-- Asks for the next chunk; trailers are skipped. The bound counts the frames that may be
skipped. -/
def nextChunkWithin (opened : List String) : Nat → Body → List Note × ChunkPoll × Body
  | 0, body => ([], .pending, body)
  | bound + 1, body =>
    match body.poll opened with
    | (notes, .frame (.data bytes), rest) => (notes, .chunk (.ok bytes), rest)
    | (notes, .failed e, rest) => (notes, .chunk (.error e), rest)
    | (notes, .pending, rest) => (notes, .pending, rest)
    | (notes, .ended, rest) => (notes, .ended, rest)
    | (notes, .frame (.trailers _), rest) =>
      let (more, polled, left) := nextChunkWithin opened bound rest
      (notes ++ more, polled, left)

/-- The number of items a feed still has, and so a bound of the frames before its end. -/
def itemCount : Body → Nat
  | .stream feed => feed.items.length
  | _ => 0

/-- Asks a body for its next chunk once. -/
def nextChunk (opened : List String) (body : Body) : List Note × ChunkPoll × Body :=
  nextChunkWithin opened (body.itemCount + 1) body

/-! ## Reading without waiting -/

/-- Asks a producer for frames until the data reaches the limit, or a poll gives no frame; `none` if
that takes more polls than the fuel allows. Gives the result and the producer as it is left. -/
def skimWithin {σ : Type} (poll : σ → Polled × σ) (limit : Nat) :
    Nat → Nat → σ → Option (Except BodyError Nat × σ)
  | fuel, size, producer =>
    if limit ≤ size then some (.ok size, producer)
    else
      match fuel with
      | 0 => none
      | fuel + 1 =>
        match poll producer with
        | (.frame (.data bytes), rest) => skimWithin poll limit fuel (size + bytes.length) rest
        | (.frame (.trailers _), rest) => skimWithin poll limit fuel size rest
        | (.failed e, rest) => some (.error e, rest)
        | (.pending, rest) => some (.ok size, rest)
        | (.ended, rest) => some (.ok size, rest)

/-- A body together with what was noted while it was read. -/
structure Noted where
  /-- The latest note comes first. -/
  latest : List Note
  body : Body

/-- The notes in the order in which they were made. -/
def Noted.notes (n : Noted) : List Note := n.latest.reverse

/-- Asks for a frame and keeps the notes. -/
def Noted.poll (opened : List String) (n : Noted) : Polled × Noted :=
  match n.body.poll opened with
  | (notes, polled, rest) => (polled, ⟨notes.reverse ++ n.latest, rest⟩)

/-- Reads and throws away what is there, without waiting, up to a limit: the number of bytes or the
error that ended it, and what was noted. `none` is the answer for a body that keeps the
reader busy for ever, because it goes on producing frames without data. -/
def skim (opened : List String) (limit : Nat) (body : Body) :
    Option (Except BodyError Nat × Noted) :=
  skimWithin (Noted.poll opened) limit (body.itemCount + limit + 2) 0 ⟨[], body⟩

end Body

end Switchboard
