import Switchboard.Connection.Client
import Switchboard.Delivery.Sending
set_option autoImplicit false

/-! # Exchanges

An exchange is a sending together with the client that it is for. `Exchange.move` lets one task do
one thing, on the sending or, where the client is reading a response, on the client's side; the
client's answer goes back into the sending.

An exchange is one such `send` with the `CollectingConnection`, or another `Connection`, that it was
called with. -/

namespace Switchboard

/-- How a main task came to its end. -/
inductive Ending where
  | returned (result : Delivery)
  | panicked (message : String)
  /-- It did not come to an end in time. -/
  | hung

/-- A sending and its client. -/
structure Exchange where
  sending : Sending
  client : Client
  /-- What the client still has to do with a response, and the task on which it does that. -/
  reading : Option (Path × Taking)
  ending : Option Ending
  /-- A bound of the number of steps that its tasks can make. -/
  budget : Nat

namespace Exchange

/-- An exchange that begins. -/
def start (sending : Sending) (kind : ClientKind) : Exchange :=
  ⟨sending, Client.ofKind kind, none, none, sending.effort + 1⟩

/-- What is found in the client's mailbox; nobody looks into that of a client that does not
collect. -/
def mailbox (e : Exchange) : Option Mailbox :=
  if e.client.kind.isHeard then some (e.client.mailbox e.sending.holdsConnection) else none

/-- Drops the main task, and with it what the client was reading on it. -/
def dropMain (e : Exchange) : Exchange :=
  { e with
    sending := e.sending.dropMain
    reading := match e.reading with
      | some ([], _) => none
      | reading => reading }

/-- Nobody waits for the response any more. -/
def stopListening (e : Exchange) : Exchange := { e with client := e.client.stopListening }

/-- What happened in one step of a task. -/
structure Move where
  notes : List Note
  signal : Signal
  spawned : List Path
  woken : List Path
  next : Exchange

/-- The connection answers. -/
def answered (e : Exchange) (response : Response) : Move :=
  let r := e.sending.resume response
  ⟨r.notes, .ran, [], r.woken, { e with sending := r.next, reading := none }⟩

/-- The task on which the client reads a response goes on with that. -/
def read (e : Exchange) (path : Path) (script : Taking) : Move :=
  match script with
  | .done result =>
    let (client, delivery) := e.client.handOver result
    { e with client := client }.answered (.result delivery)
  | .panics message => e.answered (.unwinds message)
  | .stalled => ⟨[], .blocks, [], [], e⟩
  | .note n next => ⟨[n], .ran, [], [], { e with reading := some (path, next) }⟩
  | .pause p next => ⟨[], .waits p, [], [], { e with reading := some (path, next) }⟩

/-- One step of a task of the sending. -/
def run (e : Exchange) (path : Path) : Move :=
  let t := e.sending.step path
  let next := { e with sending := t.next }
  match t.signal with
  | .delivers reply =>
    ⟨t.notes, .ran, t.spawned, t.woken,
      { next with reading := some (path, e.client.kind.take reply) }⟩
  | .returned result =>
    ⟨t.notes, .finishes, t.spawned, t.woken, { next with ending := some (.returned result) }⟩
  | .panicked message =>
    ⟨t.notes, .finishes, t.spawned, t.woken, { next with ending := some (.panicked message) }⟩
  | signal => ⟨t.notes, signal, t.spawned, t.woken, next⟩

/-- One step of a task. -/
def move (e : Exchange) (path : Path) : Move :=
  match e.reading with
  | some (reader, script) => if reader = path then e.read path script else e.run path
  | none => e.run path

end Exchange

end Switchboard
