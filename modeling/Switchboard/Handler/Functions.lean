import Switchboard.Body.Consume
import Switchboard.Handler.Basic
import Switchboard.Segment.Splitter
import Switchboard.Text.Decoded
set_option autoImplicit false

/-! # Handlers that compute

Ready-made computations: a fixed answer after a while, an echo of the request, and the segments of
the request's body. -/

namespace Switchboard

namespace Handler

/-- Answers after a while, or fails with this wording. -/
def answering (ms : Nat) (answer : Except String Answer) : Handler :=
  .function fun _ _ => .afterSleep ms (.done (answer.map Answer.toReply))

/-! ## Echo -/

/-- What an echo says about the body of the request. -/
inductive EchoStyle where
  | content
  | size
  /-- Every chunk, with a bar after it. -/
  | chunks
  deriving Repr, DecidableEq

/-- What an echo says about the body of the request, unless that fails. -/
def echoBody : EchoStyle → Body → Work (Except BodyError Bytes)
  | .content, body => body.content
  | .size, body => body.size.map fun result => result.map fun n => utf8 (toString n ++ " bytes")
  | .chunks, body =>
    body.read
      (fun text received =>
        match received with
        | .data bytes => .ok (text ++ bytes ++ utf8 "|")
        | .trailers _ => .ok text
        | .error e => .error e)
      []

/-- What an echo says about the head of the request. -/
def echoHead (head : RequestHead) : Bytes :=
  utf8 (head.line.text ++ "\n" ++ String.join (head.headers.grouped.map fun (name, value) =>
    name.text ++ ": " ++ value.text ++ "\n"))

/-- Says what the request was, after a while. -/
def echo (status ms : Nat) (style : EchoStyle) : Handler :=
  .function fun head body =>
    .afterSleep ms <| (echoBody style body).map fun
      | .ok text => .ok (Answer.withStatus status (.bytes (echoHead head ++ text))).toReply
      | .error e => .error e.message

/-! ## Segments -/

/-- The pieces of a body as they arrive. -/
def readPieces (splitter : Splitter) (body : Body) : Work (Except BodyError (List Piece)) :=
  (body.read
    (fun (splitter, pieces) received =>
      match received with
      | .data bytes =>
        let (splitter, more) := splitter.push bytes
        .ok (splitter, pieces ++ more)
      | .trailers _ => .ok (splitter, pieces)
      | .error e => .error (.split (.source (.body e))))
    (splitter, [])).map fun result =>
      result.map fun (splitter, pieces) => pieces ++ splitter.finish.2

/-- The segments as text, each with its number. -/
def numbered (segments : List Bytes) : String :=
  String.join (segments.mapIdx fun index segment =>
    toString index ++ "=" ++ decoded segment ++ ";")

/-- Says what the segments of the request's body are. -/
def segments (delimiter : Bytes) : Handler :=
  .function fun _ body =>
    match Splitter.ofDelimiter? delimiter with
    | .error e => .done (.error e.message)
    | .ok splitter =>
      (readPieces splitter body).map fun
        | .ok pieces => .ok (Answer.text (numbered (segmentsOf pieces))).toReply
        | .error e => .error e.message

end Handler

end Switchboard
