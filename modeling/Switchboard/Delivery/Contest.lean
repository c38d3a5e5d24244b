import Switchboard.Race.Basic
set_option autoImplicit false

/-! # The control of a broadcast

A broadcast sends a request to several backends at once. Each backend delivers on a lane of its
own, into a slot of a race; one main task waits for all lanes and then for the outcome. A contest is
the state that they share: the race, what each lane has reported, and how far the main task is.

A slot reports at most once: with the response that its lane delivers first, or with a failure when
the lane, or the main task after it, closes the slot without a response.

A contest is what is shared while a `GroupResponse` is being sent: the `State` of its `Aggregator`,
the mark of each `SlotState`, how far the task of each backend is, and how far `send` itself is in
its join loop and in front of the `Outcome`. `Contest.receive` is `accept` of a `SlotConnection`,
and `Contest.closeSlot` is `settle` of a `SlotState`. -/

namespace Switchboard

/-- How far a lane is. -/
inductive LanePhase where
  | running
  /-- It has come back without having reported, its report decided the race, and the chosen
  response is being replayed. -/
  | replaying
  /-- It is over; the message is that of a panic. -/
  | ended (panic : Option String)
  deriving Repr, DecidableEq

/-- What is known of a lane. -/
structure LaneState where
  reported : Bool
  phase : LanePhase
  deriving Repr, DecidableEq

/-- How far the main task is. -/
inductive MainPhase where
  /-- The lanes are about to start; a panic while they were prepared ends the main task then. -/
  | spawning (panic : Option String)
  /-- Lets the lanes start before it looks after them. -/
  | yielding
  /-- Waits for the lanes to end; so many ends have been taken note of. -/
  | joining (seen : Nat)
  /-- All lanes have ended; the slots from here on may still have to be closed. -/
  | closing (next : Nat)
  /-- Waits for the outcome. -/
  | awaiting
  /-- The outcome has been taken note of. -/
  | leaving
  | panicking (message : String)
  /-- Over, or dropped. -/
  | gone
  deriving Repr, DecidableEq

/-- The outcome of a contest. -/
inductive Verdict where
  | open
  | announced (result : Delivery)
  /-- It will never be announced. -/
  | lost

/-- The chosen response on its way to the connection. -/
structure ReplayState where
  /-- The lane that replays, or none for the main task. -/
  owner : Option Nat
  losers : List (Nat × HeldReply)

/-- The shared state of a broadcast. -/
structure Contest where
  policy : Policy
  race : Race
  lanes : List LaneState
  main : MainPhase
  replay : Option ReplayState
  verdict : Verdict

/-- What a connection lets a waiting delivery know. -/
inductive Response where
  | result (result : Delivery)
  /-- The connection panicked. -/
  | unwinds (message : String)
  | never

/-- How a contest reacts to a report. -/
inductive Reaction where
  /-- There is nothing to wait for. -/
  | answers (response : Response)
  /-- The chosen response goes to the connection first. -/
  | replays (reply : Reply)

namespace Contest

/-- A contest whose lanes are about to start. -/
def start (policy : Policy) (race : Race) (lanes : Nat) (panic : Option String) : Contest :=
  ⟨policy, race, List.replicate lanes ⟨false, .running⟩, .spawning panic, none, .open⟩

/-- Whether the slot of a lane has reported. -/
def hasReported (c : Contest) (index : Nat) : Bool :=
  match c.lanes[index]? with
  | some lane => lane.reported
  | none => true

/-- How far a lane is. -/
def phaseOf (c : Contest) (index : Nat) : LanePhase :=
  match c.lanes[index]? with
  | some lane => lane.phase
  | none => .ended none

/-- Whether a lane is over. -/
def LaneState.isOver (lane : LaneState) : Bool :=
  match lane.phase with
  | .ended _ => true
  | _ => false

/-- How many lanes are over. -/
def overCount (c : Contest) : Nat := c.lanes.countP LaneState.isOver

/-- Whether all lanes are over. -/
def allOver (c : Contest) : Bool := c.lanes.all LaneState.isOver

/-- The largest number of lanes that a main task looks after one by one. With more lanes it lets
them start first. -/
def fewLanes : Nat := 30

/-- How the main task goes on once its lanes have been started. -/
def afterSpawning (c : Contest) : MainPhase :=
  if c.lanes.length ≤ fewLanes then .joining 0 else .yielding

/-- Puts a lane into a phase. -/
def setPhase (c : Contest) (index : Nat) (phase : LanePhase) : Contest :=
  { c with lanes := c.lanes.modify index fun lane => { lane with phase := phase } }

/-- Whether the main task will take note of the outcome. -/
def isAwaited (c : Contest) : Bool :=
  match c.main with
  | .gone => false
  | .panicking _ => false
  | _ => true

/-! ## Reports -/

/-- The response to a lane after responses were cancelled. -/
def afterCancelling (finished : Bool) : Response := if finished then .result (.ok ()) else .never

/-- Reports for a slot, on behalf of a lane or of the main task. -/
def reportSlot (c : Contest) (owner : Option Nat) (index : Nat) (result : Report) :
    Contest × List Note × Reaction :=
  let (race, entries, ruling) := c.race.report c.policy index result
  let notes := entries.map Note.log
  let c := { c with
    race := race
    lanes := c.lanes.modify index fun lane => { lane with reported := true } }
  match ruling with
  | .undecided => (c, notes, .answers (.result (.ok ())))
  | .panicked message => (c, notes, .answers (.unwinds message))
  | .late response =>
    let (cancelled, finished) := Race.cancelLate [] index response
    (c, notes ++ cancelled, .answers (afterCancelling finished))
  | .decided winner losers =>
    ({ c with replay := some ⟨owner, losers⟩ }, notes ++ [.log (Race.chosenEntry winner)],
      .replays (Race.chosen winner))

/-- A response is delivered into a slot. The first one is reported; any other is cancelled,
and its delivery succeeds all the same. -/
def receive (c : Contest) (index : Nat) (reply : Reply) : Contest × List Note × Reaction :=
  if c.hasReported index then
    let (notes, finished) := Race.cancelSecond [] index reply
    (c, notes, .answers (afterCancelling finished))
  else c.reportSlot (some index) index (.ok reply)

/-- The failure of a backend that ends without a response. -/
def failureOf : Delivery → SendError
  | .error e => e
  | .ok _ => .closed "backend finished without a response"

/-- A backend has ended with this result. If its slot has not reported yet, it reports a failure
now. -/
def closeSlot (c : Contest) (owner : Option Nat) (index : Nat) (result : Delivery) :
    Contest × List Note × Reaction :=
  if c.hasReported index then
    let entry :=
      match result with
      | .ok _ => LogEntry.backendFinished index
      | .error e => .failedAfterReply index e.message
    (c, [.log entry], .answers (.result (.ok ())))
  else c.reportSlot owner index (.error (failureOf result))

/-- The failure of a backend whose task panicked. -/
def abortCause (message : String) : String := "task N panicked with message " ++ message

/-! ## The end of the replay -/

/-- The connection has answered the replay. The losers are cancelled and the outcome is
announced; then the owner of the replay goes on. -/
def conclude (c : Contest) (replay : ReplayState) (response : Response) :
    Contest × List Note × Response :=
  match response with
  | .result result =>
    let (notes, finished) := Race.cancelLosers [] replay.losers
    if !finished then (c, notes, .never)
    else if c.isAwaited then
      ({ c with replay := none, verdict := .announced result }, notes, .result (.ok ()))
    else
      ({ c with replay := none, verdict := .lost }, notes ++ [.log .outcomeUnawaited],
        .result (.ok ()))
  | .unwinds message => ({ c with replay := none, verdict := .lost }, [], .unwinds message)
  | .never => (c, [], .never)

end Contest

end Switchboard
