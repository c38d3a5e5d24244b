import Switchboard.Fault
set_option autoImplicit false

/-! # The journal

What the handling of a request lets be seen on the way: events of handlers and connections, log
entries, and what producers of content handed out. A note is one line of the journal; the notes of
a run stand in the order in which things happened. -/

namespace Switchboard

/-! ## Log entries -/

/-- How important a log entry is. -/
inductive Level where
  | trace
  | debug
  | info
  | warn
  | error
  deriving Repr, DecidableEq

/-- The name of a level. -/
def Level.name : Level → String
  | .trace => "TRACE"
  | .debug => "DEBUG"
  | .info => "INFO"
  | .warn => "WARN"
  | .error => "ERROR"

/-- The value of a field of a log entry. -/
inductive FieldValue where
  | text (value : String)
  | number (value : Nat)
  deriving Repr, DecidableEq

/-- What is worth a line in the log. -/
inductive LogEntry where
  | deferredFailed (cause : String)
  | unrouted (method path : String)
  | requestReceived (level : Level) (request : String)
  | responseSent (level : Level) (request : String) (status : Nat)
  | deliveryFailed (request cause : String)
  | emptyGroup (method path : String)
  | toPrimary (method : String) (primary : Nat)
  | broadcasting (method path : String) (backends size : Nat)
  | taskAborted (index : Nat) (cause : String)
  | backendReported (index status : Nat)
  | backendFailed (index : Nat) (cause : String)
  | reportedLate (index : Nat)
  | raceWon (index status : Nat)
  | raceLost
  | cancellingLoser (index : Nat)
  | outcomeUnawaited
  | cancelled (status size : Nat)
  | cancelFailed (status : Nat) (cause : String)
  | deliveredTwice (index : Nat)
  | backendFinished (index : Nat)
  | failedAfterReply (index : Nat) (cause : String)
  deriving Repr, DecidableEq

namespace LogEntry

/-- The level of an entry. -/
def level : LogEntry → Level
  | .deferredFailed _ => .error
  | .unrouted .. => .debug
  | .requestReceived level _ => level
  | .responseSent level .. => level
  | .deliveryFailed .. => .warn
  | .emptyGroup .. => .warn
  | .toPrimary .. => .debug
  | .broadcasting .. => .debug
  | .taskAborted .. => .warn
  | .backendReported .. => .trace
  | .backendFailed .. => .debug
  | .reportedLate _ => .debug
  | .raceWon .. => .info
  | .raceLost => .info
  | .cancellingLoser _ => .trace
  | .outcomeUnawaited => .trace
  | .cancelled .. => .debug
  | .cancelFailed .. => .debug
  | .deliveredTwice _ => .warn
  | .backendFinished _ => .trace
  | .failedAfterReply .. => .debug

/-- The wording of an entry. -/
def message : LogEntry → String
  | .deferredFailed _ => "deferred response failed, responding with 500"
  | .unrouted .. => "no route matched, responding with 404"
  | .requestReceived .. => "request received"
  | .responseSent .. => "response sent"
  | .deliveryFailed .. => "response delivery failed"
  | .emptyGroup .. => "group has no backends, responding with 404"
  | .toPrimary .. => "routing to primary backend"
  | .broadcasting .. => "broadcasting request"
  | .taskAborted .. => "backend task aborted"
  | .backendReported .. => "backend reported"
  | .backendFailed .. => "backend failed"
  | .reportedLate _ => "race already decided, cancelling late response"
  | .raceWon .. => "backend won the race"
  | .raceLost => "no backend succeeded, responding with 404"
  | .cancellingLoser _ => "cancelling losing response"
  | .outcomeUnawaited => "race outcome is no longer awaited"
  | .cancelled .. => "cancelled captured response"
  | .cancelFailed .. => "captured response failed while being cancelled"
  | .deliveredTwice _ => "slot already settled, cancelling response"
  | .backendFinished _ => "backend finished"
  | .failedAfterReply .. => "backend failed after its response was captured"

/-- The fields of an entry. A status is shown as text. -/
def fields : LogEntry → List (String × FieldValue)
  | .deferredFailed cause => [("cause", .text cause)]
  | .unrouted method path => [("method", .text method), ("path", .text path)]
  | .requestReceived _ request => [("request", .text request)]
  | .responseSent _ request status =>
    [("request", .text request), ("status", .text (toString status))]
  | .deliveryFailed request cause => [("request", .text request), ("cause", .text cause)]
  | .emptyGroup method path => [("method", .text method), ("path", .text path)]
  | .toPrimary method primary => [("method", .text method), ("primary", .number primary)]
  | .broadcasting method path backends size =>
    [("method", .text method), ("path", .text path), ("backends", .number backends),
      ("body_size", .number size)]
  | .taskAborted index cause => [("index", .number index), ("cause", .text cause)]
  | .backendReported index status =>
    [("index", .number index), ("status", .text (toString status))]
  | .backendFailed index cause => [("index", .number index), ("cause", .text cause)]
  | .reportedLate index => [("index", .number index)]
  | .raceWon index status => [("index", .number index), ("status", .text (toString status))]
  | .raceLost => []
  | .cancellingLoser index => [("index", .number index)]
  | .outcomeUnawaited => []
  | .cancelled status size => [("status", .text (toString status)), ("size", .number size)]
  | .cancelFailed status cause => [("status", .text (toString status)), ("cause", .text cause)]
  | .deliveredTwice index => [("index", .number index)]
  | .backendFinished index => [("index", .number index)]
  | .failedAfterReply index cause => [("index", .number index), ("cause", .text cause)]

end LogEntry

/-! ## Events and notes -/

/-- What handlers and connections record about themselves. -/
inductive Event where
  /-- A labelled handler was asked for a response to this request. -/
  | called (label request : String)
  /-- A response was deferred. -/
  | deferred
  /-- A connection that does not read bodies took a response. -/
  | accepted (status : Nat)
  /-- A detached delivery ended. -/
  | detached (name : String) (result : Delivery)

/-- One line of the journal. -/
inductive Note where
  | event (event : Event)
  | log (entry : LogEntry)
  /-- A producer of content handed out an item with this many bytes of data. -/
  | produced (label : String) (size : Nat)
  /-- A producer of content was read to its end. -/
  | exhausted (label : String)

/-- The events of a journal. -/
def eventsOf (notes : List Note) : List Event :=
  notes.filterMap fun | .event e => some e | _ => none

/-- The log of a journal. -/
def logOf (notes : List Note) : List LogEntry :=
  notes.filterMap fun | .log e => some e | _ => none

/-- What was read from one producer: items, bytes of data, and whether to its end. -/
structure Reading where
  label : String
  items : Nat
  bytes : Nat
  ended : Bool
  deriving Repr, DecidableEq

/-- Changes the reading under a label, starting from nothing read. -/
def updateReading (label : String) (change : Reading → Reading) : List Reading → List Reading
  | [] => [change ⟨label, 0, 0, false⟩]
  | r :: rest => if r.label = label then change r :: rest else r :: updateReading label change rest

/-- What a journal says about each producer, in the order in which they were first read. -/
def readingsOf (notes : List Note) : List Reading :=
  notes.foldl
    (fun readings note =>
      match note with
      | .produced label size =>
        updateReading label (fun r => { r with items := r.items + 1, bytes := r.bytes + size })
          readings
      | .exhausted label => updateReading label (fun r => { r with ended := true }) readings
      | _ => readings)
    []

end Switchboard
