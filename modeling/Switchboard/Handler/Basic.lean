import Switchboard.Delivery.Sending
import Switchboard.Routing.Filter
set_option autoImplicit false

/-! # Handlers

A handler is asked for a response to a request, and gives one that may still have to be worked
out. Handlers combine to trees: routes try one handler after the other, groups ask several at once,
wrappers change what passes to and from the connection. `Handler.respond` is the meaning of such a
tree: what is noted while the response is made, and the sending that it amounts to.

A handler is a `Slice`, and `Handler.respond` is its `response`. A function is a `SliceFn`, what
comes later is an `AsyncSlice`, and a group is a `GroupSlice`. -/

namespace Switchboard

/-- A wrapper that is made for each request. -/
inductive Wrapping where
  | logging (level : Level)
  | tagging (tag : HeaderValue)
  deriving Repr, DecidableEq

/-- What answers requests. -/
inductive Handler where
  /-- Always this response. -/
  | fixed (reply : Reply)
  /-- A computation on the request. -/
  | function (run : RequestHead → Body → Work (Except String Reply))
  /-- A handler that comes after a wait that all requests share. -/
  | awaited (key ms : Nat) (handler : Handler)
  /-- A handler that should come after a shared wait, but fails to. -/
  | awaitedFailure (key ms : Nat) (cause : String)
  /-- A handler that is asked after a wait of each request. -/
  | deferred (ms : Nat) (handler : Handler)
  | deferredFailure (ms : Nat) (cause : String)
  /-- The first handler if the filter accepts the request, else the second one. -/
  | route (filter : Filter) (handler otherwise : Handler)
  /-- Where no route is left. -/
  | unrouted
  | wrapped (wrapping : Wrapping) (handler : Handler)
  /-- Several backends in order of priority. -/
  | group (backends : List Handler) (primary : Nat) (policy : Policy)
  /-- Notes that it is asked, under a label. -/
  | labelled (label : String) (handler : Handler)
  /-- Never gives a response; ends with this result after a while. -/
  | silent (ms : Nat) (result : Delivery)
  /-- Delivers the response and then fails. -/
  | failing (handler : Handler) (error : SendError)
  /-- Delivers the response in a task of its own, after a while. -/
  | detached (name : String) (ms : Nat) (handler : Handler)
  /-- Panics when it is asked. -/
  | panicsWhenAsked (message : String)
  /-- Panics when its response is sent, after a while. -/
  | panicsWhenSent (ms : Nat) (message : String)

/-- What a handler gives: its notes, and a sending unless it panicked. -/
structure Responding where
  notes : List Note
  sending : Except String Sending

namespace Responding

/-- A response that is given without a note. -/
def quiet (sending : Sending) : Responding := ⟨[], .ok sending⟩

/-- Makes notes first. -/
def after (notes : List Note) (r : Responding) : Responding := ⟨notes ++ r.notes, r.sending⟩

/-- Changes the sending. -/
def map (f : Sending → Sending) (r : Responding) : Responding := ⟨r.notes, r.sending.map f⟩

/-- The sending of a task that asks for the response and then sends it. -/
def inline (r : Responding) : Sending :=
  .afterNotes r.notes (match r.sending with | .ok s => s | .error message => .panics message)

end Responding

namespace Wrapping

/-- What is noted when a wrapped handler is asked. -/
def entry (w : Wrapping) (head : RequestHead) : List Note :=
  match w with
  | .logging level => [.log (.requestReceived level head.line.text)]
  | .tagging _ => []

/-- The wrapper for one request. -/
def wrapper (w : Wrapping) (head : RequestHead) : Wrapper :=
  match w with
  | .logging level => .logged head.line.text level
  | .tagging tag => .tagged tag

end Wrapping

/-! ## Broadcasts -/

/-- The responses of the backends of a group, up to the first one that panics. -/
structure Lineup where
  notes : List Note
  lanes : List Sending
  panic : Option String

namespace Lineup

/-- No backend has been asked. -/
def empty : Lineup := ⟨[], [], none⟩

/-- Asks one backend before the others. -/
def cons (r : Responding) (rest : Lineup) : Lineup :=
  match r.sending with
  | .ok s => ⟨r.notes ++ rest.notes, s :: rest.lanes, rest.panic⟩
  | .error message => ⟨r.notes, [], some message⟩

end Lineup

/-- The broadcast that a lineup amounts to, in a race with this many slots. -/
def Sending.ofLineup (policy : Policy) (slots : Nat) (lineup : Lineup) : Sending :=
  .afterNotes lineup.notes
    (match Race.ofSlots? slots with
    | .error message => .panics message
    | .ok race => .broadcast (.start policy race lineup.lanes.length lineup.panic) lineup.lanes)

/-- The first note of a broadcast. -/
def broadcastEntry (head : RequestHead) (backends : Nat) (content : Bytes) : LogEntry :=
  .broadcasting head.method.token head.path backends content.length

namespace Handler

mutual

/-- The response of a handler to a request. -/
def respond : Handler → RequestHead → Body → Responding
  | .fixed reply, _, _ => .quiet (.deliver reply)
  | .function run, head, body =>
    .quiet (.afterWork (run head body) fun
      | .ok reply => .deliver reply
      | .error cause => .failed cause)
  | .awaited key ms handler, head, body =>
    .quiet (.afterShared key ms (handler.respond head body).inline)
  | .awaitedFailure key ms cause, _, _ => .quiet (.afterShared key ms (.failed cause))
  | .deferred ms handler, head, body =>
    ⟨[.event .deferred], .ok (.afterSleep ms (handler.respond head body).inline)⟩
  | .deferredFailure ms cause, _, _ =>
    ⟨[.event .deferred], .ok (.afterSleep ms (.failed cause))⟩
  | .route filter handler otherwise, head, body =>
    if filter.accepts head then handler.respond head body else otherwise.respond head body
  | .unrouted, head, _ =>
    ⟨[.log (.unrouted head.method.token head.path)], .ok (.deliver Reply.notFound)⟩
  | .wrapped wrapping handler, head, body =>
    ((handler.respond head body).map (.wrapped (wrapping.wrapper head))).after
      (wrapping.entry head)
  | .group backends primary policy, head, body =>
    if backends.isEmpty then
      ⟨[.log (.emptyGroup head.method.token head.path)], .ok (.deliver Reply.notFound)⟩
    else if head.method.goesToAll then
      .quiet (.afterWork body.content fun
        | .error e => .returns (.error (.body e))
        | .ok content =>
          .note (.log (broadcastEntry head backends.length content))
            (.ofLineup policy backends.length
              (respondAll backends head.copy (Body.ofBytes content))))
    else
      (respondNth backends primary head body).after
        [.log (.toPrimary head.method.token primary)]
  | .labelled label handler, head, body =>
    (handler.respond head body).after [.event (.called label head.line.text)]
  | .silent ms result, _, _ => .quiet (.afterSleep ms (.returns result))
  | .failing handler error, head, body =>
    (handler.respond head body).map (.wrapped (.failing error))
  | .detached name ms handler, head, body =>
    (handler.respond head body).map fun s => .detached name false (.afterSleep ms s)
  | .panicsWhenAsked message, _, _ => ⟨[], .error message⟩
  | .panicsWhenSent ms message, _, _ => .quiet (.afterSleep ms (.panics message))

/-- The responses of all backends, each with its own copy of the request. -/
def respondAll : List Handler → RequestHead → Body → Lineup
  | [], _, _ => .empty
  | backend :: rest, head, body =>
    .cons (backend.respond head body) (respondAll rest head body)

/-- The response of one backend. -/
def respondNth : List Handler → Nat → RequestHead → Body → Responding
  | [], index, _, _ => ⟨[], .error ("no backend " ++ toString index)⟩
  | backend :: _, 0, head, body => backend.respond head body
  | _ :: rest, index + 1, head, body => respondNth rest index head body

end

end Handler

end Switchboard
