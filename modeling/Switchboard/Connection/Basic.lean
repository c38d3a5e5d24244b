import Switchboard.Connection.Client
set_option autoImplicit false

/-! # One connection by itself

A connection is unused until it is given a response, then the client takes the response as far as
the open gates and the clock let it, and in the end the delivery has a result. At any moment the
connection may be dropped, and whoever waits for the response may stop waiting; a response is found
in the mailbox whole or not at all.

The connection is a `CollectingConnection`, or another `Connection`, and whoever waits for the
response waits for its `Collected`. -/

namespace Switchboard

/-- How far a connection is. -/
inductive ConnectionState where
  | unused
  | taking (script : Taking)
  | answered (result : Delivery)
  | panicked (message : String)
  | dropped

/-- A connection. -/
structure Connection where
  client : Client
  state : ConnectionState

/-- What can happen to a connection. -/
inductive ConnectionEvent where
  | give (reply : Reply)
  | poll (opened : List String)
  /-- The time comes that the client waits for. -/
  | wake
  | stopListening
  | drop

namespace Connection

/-- A connection that has been given nothing. -/
def ofKind (kind : ClientKind) : Connection := ⟨Client.ofKind kind, .unused⟩

/-- Gives a response to an unused connection. -/
def give (c : Connection) (reply : Reply) : Connection :=
  match c.state with
  | .unused => { c with state := .taking (c.client.kind.take reply) }
  | _ => c

/-- The client goes on with the response, as far as the open gates let it. -/
def poll (opened : List String) (c : Connection) : Connection × List Note :=
  match c.state with
  | .taking script =>
    match script.poll opened with
    | (notes, .blocked rest) => ({ c with state := .taking rest }, notes)
    | (notes, .panicked message) => ({ c with state := .panicked message }, notes)
    | (notes, .finished taken) =>
      (⟨(c.client.handOver taken).1, .answered (c.client.handOver taken).2⟩, notes)
  | _ => (c, [])

/-- The time comes that the client waits for. Gates are not opened by time. -/
def wake (c : Connection) : Connection :=
  match c.state with
  | .taking (.pause (.gate _) _) => c
  | .taking (.pause _ rest) => { c with state := .taking rest }
  | _ => c

/-- Drops a connection, and with it what is left to be read. One that has answered is gone
already. -/
def drop (c : Connection) : Connection :=
  match c.state with
  | .answered _ => c
  | .panicked _ => c
  | _ => { c with state := .dropped }

/-- Nobody waits for the response any more. -/
def stopListening (c : Connection) : Connection := { c with client := c.client.stopListening }

/-- Whether the connection can still be given a response or is taking one. -/
def isHeld (c : Connection) : Bool :=
  match c.state with
  | .unused => true
  | .taking _ => true
  | .answered _ => false
  | .panicked _ => false
  | .dropped => false

/-- How the delivery ended, once it has. -/
def result? (c : Connection) : Option Delivery :=
  match c.state with
  | .answered result => some result
  | _ => none

/-- What is found in the mailbox. -/
def mailbox (c : Connection) : Mailbox := c.client.mailbox c.isHeld

/-- Lets something happen to a connection. -/
def after (c : Connection) : ConnectionEvent → Connection
  | .give reply => c.give reply
  | .poll opened => (c.poll opened).1
  | .wake => c.wake
  | .stopListening => c.stopListening
  | .drop => c.drop

/-- Lets one thing happen after the other. -/
def afterAll (c : Connection) (events : List ConnectionEvent) : Connection := events.foldl after c

end Connection

end Switchboard
