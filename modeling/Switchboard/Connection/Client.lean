import Switchboard.Body.Consume
import Switchboard.Http.Response
set_option autoImplicit false

/-! # Clients

The far end of a connection. A collecting client reads the whole response and hands it over in one
piece, or not at all: a body that fails leaves nothing behind, and a response that is complete when
nobody listens any more is lost. The other kinds answer without reading. -/

namespace Switchboard

/-- How a client takes a response. -/
inductive ClientKind where
  /-- Reads the response and hands it over. -/
  | collecting
  /-- Reads the response when nobody listens any more. -/
  | deaf
  /-- Takes the head and refuses the rest. -/
  | gone
  /-- Takes the head and is content with it. -/
  | unread
  /-- Waits for a gate, then collects. -/
  | gated (gate : String)
  deriving Repr, DecidableEq

/-- A response that was read completely. -/
structure WholeReply where
  head : ResponseHead
  content : Bytes
  deriving Repr, DecidableEq

/-- What a client still does with a response; in the end it has a whole one, or none, or failed. -/
abbrev Taking := Work (Except SendError (Option WholeReply))

namespace ClientKind

/-- Reads a response completely. -/
def readWhole (reply : Reply) : Taking :=
  reply.body.content.map fun
    | .ok content => .ok (some ⟨reply.head, content⟩)
    | .error e => .error (.body e)

/-- What a client does with a response. -/
def take (kind : ClientKind) (reply : Reply) : Taking :=
  match kind with
  | .collecting => readWhole reply
  | .deaf => readWhole reply
  | .gone =>
    .note (.event (.accepted reply.head.status)) (.done (.error (.closed "client went away")))
  | .unread => .note (.event (.accepted reply.head.status)) (.done (.ok none))
  | .gated gate => .pause (.gate gate) (readWhole reply)

/-- Whether somebody waits for the whole response. -/
def isHeard : ClientKind → Bool
  | .collecting => true
  | .gated _ => true
  | .deaf => false
  | .gone => false
  | .unread => false

end ClientKind

/-- A client, and what it has handed over. -/
structure Client where
  kind : ClientKind
  /-- Somebody still waits for the response. -/
  listening : Bool
  handedOver : Option WholeReply

/-- What whoever waits for the response finds. -/
inductive Mailbox where
  | response (whole : WholeReply)
  /-- The connection is still held. -/
  | pending
  | failed (error : SendError)

namespace Client

/-- A client that has been given nothing yet. -/
def ofKind (kind : ClientKind) : Client := ⟨kind, kind.isHeard, none⟩

/-- Hands a response over after it was read, and says how the delivery ended. -/
def handOver (client : Client) (taken : Except SendError (Option WholeReply)) :
    Client × Delivery :=
  match taken with
  | .error e => (client, .error e)
  | .ok none => (client, .ok ())
  | .ok (some whole) =>
    if client.listening then ({ client with handedOver := some whole }, .ok ())
    else (client, .error (.closed "collected response receiver dropped"))

/-- Nobody waits for the response any more. -/
def stopListening (client : Client) : Client := { client with listening := false }

/-- What is found in the mailbox; a connection that nobody holds any more will bring nothing. -/
def mailbox (client : Client) (held : Bool) : Mailbox :=
  match client.handedOver with
  | some whole => .response whole
  | none =>
    if held then .pending else .failed (.closed "connection dropped without response")

end Client

end Switchboard
