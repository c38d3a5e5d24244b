import Switchboard.Body.Basic
set_option autoImplicit false

/-! # Responses

A response is a head (status and headers) with a body. Only two responses are ever made up: the
canonical 404 and the 500 that carries the wording of a failure. `Answer` is what handlers may
return; `Answer.toReply` completes it to a response. -/

namespace Switchboard

/-- The status and the headers of a response. -/
structure ResponseHead where
  status : Nat
  headers : Headers
  deriving Repr, DecidableEq

/-- A response that is ready to be sent. -/
structure Reply where
  head : ResponseHead
  body : Body

/-- The name of the header for the type of the content. -/
def contentType : HeaderName := ⟨"content-type"⟩

/-- The type of plain text. -/
def plainTextType : HeaderValue := ⟨"text/plain; charset=utf-8"⟩

/-- The type of content that is just bytes. -/
def octetStreamType : HeaderValue := ⟨"application/octet-stream"⟩

namespace Reply

/-- A status alone. -/
def ofStatus (status : Nat) : Reply := ⟨⟨status, Headers.empty⟩, .empty⟩

/-- A text with a status. -/
def plainText (status : Nat) (body : Body) : Reply :=
  ⟨⟨status, Headers.empty.append contentType plainTextType⟩, body⟩

/-- The text of the canonical 404. -/
def notFoundText : String := "not found"

/-- The canonical 404. -/
def notFound : Reply := plainText 404 (Body.ofText notFoundText)

/-- The response to a failure: a 500 with its wording. -/
def internalError (message : String) : Reply := plainText 500 (Body.ofText message)

/-- Bytes with a status of success. -/
def octets (bytes : Bytes) : Reply :=
  ⟨⟨200, Headers.empty.append contentType octetStreamType⟩, Body.ofBytes bytes⟩

end Reply

/-- What a handler may return. -/
inductive Answer where
  | text (content : String)
  | bytes (content : Bytes)
  | status (code : Nat)
  | nothing
  /-- Another answer under this status. -/
  | withStatus (code : Nat) (inner : Answer)
  | reply (complete : Reply)

/-- Completes an answer to a response. -/
def Answer.toReply : Answer → Reply
  | .text content => Reply.plainText 200 (Body.ofText content)
  | .bytes content => Reply.octets content
  | .status code => Reply.ofStatus code
  | .nothing => Reply.ofStatus 200
  | .withStatus code inner =>
    { inner.toReply with head := { inner.toReply.head with status := code } }
  | .reply complete => complete

end Switchboard
