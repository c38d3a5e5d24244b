import Switchboard.Delivery.Contest
import Switchboard.Text.Quoted
set_option autoImplicit false

/-! # Deliveries in flight

A `Sending` is a response on its way to one connection: what is left to be done until the
connection has been given a response and has answered. It is a transition system. `Sending.step`
lets one of its tasks do one thing; the tasks are addressed by paths, the empty path being the main
task, and the path `i :: p` the task `p` of lane `i` (or of what was detached). What happens beyond
the sending shows in the signal of the step: a response is delivered to the connection, or the main
task returns. `Sending.resume` is how the connection answers.

Since the connection itself is not part of a sending, a broadcast can contain sendings whose
connection is a slot of its race, and a wrapper changes what passes between a sending and its
connection and nothing else. A schedule picks the paths; every choice of paths is an
interleaving.

A sending is the `send` of a `Response` under way: of one that is ready, of an `AsyncResponse` that
waits for its future, of the response within a `Decorator`, or of a `GroupResponse`, whose lanes are
the tasks of its backends. -/

namespace Switchboard

/-- A task of a sending. -/
abbrev Path := List Nat

/-- What changes the traffic between a sending and its connection. -/
inductive Wrapper where
  /-- Logs responses and failures under the line of the request. -/
  | logged (request : String) (level : Level)
  /-- Adds a tag to the headers of a response. -/
  | tagged (tag : HeaderValue)
  /-- Reports this failure where there was none. -/
  | failing (error : SendError)

namespace Wrapper

/-- The name of the header that carries tags. -/
def tagName : HeaderName := ⟨"x-tag"⟩

/-- A response on its way to the connection. -/
def outward (w : Wrapper) (reply : Reply) : List Note × Reply :=
  match w with
  | .logged request level => ([.log (.responseSent level request reply.head.status)], reply)
  | .tagged tag =>
    ([], { reply with head :=
      { reply.head with headers := reply.head.headers.append tagName tag } })
  | .failing _ => ([], reply)

/-- The result of the sending on its way back. -/
def inward (w : Wrapper) (result : Delivery) : List Note × Delivery :=
  match w with
  | .logged request _ =>
    match result with
    | .error e => ([.log (.deliveryFailed request e.message)], result)
    | .ok _ => ([], result)
  | .tagged _ => ([], result)
  | .failing error =>
    match result with
    | .error e => ([], .error e)
    | .ok _ => ([], .error error)

end Wrapper

/-- A response on its way to one connection. -/
inductive Sending where
  /-- Nothing is left to be done. -/
  | ended
  /-- Never goes on. -/
  | stalled
  | returns (result : Delivery)
  | panics (message : String)
  | note (note : Note) (next : Sending)
  | pause (pause : Pause) (next : Sending)
  /-- About to give this response to the connection. -/
  | deliver (reply : Reply)
  /-- Waits for the connection to answer. -/
  | delivered
  | wrapped (wrapper : Wrapper) (inner : Sending)
  /-- Goes on in a task of its own, while the main task returns at once. -/
  | detached (name : String) (started : Bool) (inner : Sending)
  | broadcast (contest : Contest) (lanes : List Sending)

/-- What a step lets be seen beyond the sending. -/
inductive Signal where
  /-- The task goes on. -/
  | ran
  /-- The task goes on and has taken note of the end of another one. So many further ends can be
  taken note of at once; the flag says whether nothing more is waited for after them. -/
  | noticed (further : Nat) (last : Bool)
  /-- The task lets others go first, and does not wait for anything. -/
  | yields
  | waits (pause : Pause)
  /-- The task waits for another one, or for the connection. -/
  | blocks
  | delivers (reply : Reply)
  /-- The main task returns. -/
  | returned (result : Delivery)
  /-- The main task panics. -/
  | panicked (message : String)
  /-- A task other than the main one has come to its end. -/
  | finishes

/-- A step of a sending. -/
structure Turn where
  notes : List Note
  signal : Signal
  /-- Tasks that start. -/
  spawned : List Path
  /-- Tasks that wait no longer. -/
  woken : List Path
  next : Sending

/-- A sending after its connection has answered. -/
structure Resumed where
  notes : List Note
  woken : List Path
  next : Sending

namespace Sending

/-! ## Building sendings -/

/-- Makes notes first. -/
def afterNotes (notes : List Note) (s : Sending) : Sending := notes.foldr .note s

/-- Sleeps first; no time at all is no pause. -/
def afterSleep (ms : Nat) (s : Sending) : Sending := if ms = 0 then s else .pause (.sleep ms) s

/-- Waits first for what everybody who names the key waits for. -/
def afterShared (key ms : Nat) (s : Sending) : Sending := .pause (.shared key ms) s

/-- Does some work first. -/
def afterWork {α : Type} : Work α → (α → Sending) → Sending
  | .done a, f => f a
  | .panics message, _ => .panics message
  | .stalled, _ => .stalled
  | .note n next, f => .note n (afterWork next f)
  | .pause p next, f => .pause p (afterWork next f)

/-- Responds to a failure with its wording. -/
def failed (cause : String) : Sending :=
  .note (.log (.deferredFailed cause)) (.deliver (Reply.internalError cause))

/-! ## The connection answers -/

/-- Who is woken when a lane ends: the main task, if it waits for the lanes. -/
def wokenByLane (c : Contest) : List Path :=
  match c.main with
  | .joining _ => [[]]
  | _ => []

/-- Who is woken when the verdict is known: the main task, if it waits for that. -/
def wokenByVerdict (c : Contest) : List Path :=
  match c.main with
  | .awaiting => [[]]
  | _ => []

mutual

/-- The connection answers the response that it was given. -/
def resume (response : Response) : Sending → Resumed
  | .delivered =>
    match response with
    | .result result => ⟨[], [], .returns result⟩
    | .unwinds message => ⟨[], [], .panics message⟩
    | .never => ⟨[], [], .stalled⟩
  | .wrapped w inner =>
    let r := inner.resume response
    ⟨r.notes, r.woken, .wrapped w r.next⟩
  | .detached name started inner =>
    let r := inner.resume response
    ⟨r.notes, r.woken.map (0 :: ·), .detached name started r.next⟩
  | .broadcast contest lanes =>
    match contest.replay with
    | none => ⟨[], [], .broadcast contest lanes⟩
    | some replay =>
      let (c, notes, answer) := contest.conclude replay response
      let woken := match c.replay with | none => wokenByVerdict c | some _ => []
      match replay.owner with
      | none =>
        match answer with
        | .unwinds message =>
          ⟨notes, woken, .broadcast { c with main := .panicking message } lanes⟩
        | _ => ⟨notes, woken, .broadcast c lanes⟩
      | some index =>
        match c.phaseOf index with
        | .replaying =>
          match answer with
          | .result _ =>
            ⟨notes, woken ++ wokenByLane c, .broadcast (c.setPhase index (.ended none)) lanes⟩
          | .unwinds message =>
            ⟨notes, woken ++ wokenByLane c,
              .broadcast (c.setPhase index (.ended (some message))) lanes⟩
          | .never => ⟨notes, woken, .broadcast c lanes⟩
        | _ =>
          let (more, moreWoken, lanes) := resumeLane answer lanes index
          ⟨notes ++ more, woken ++ moreWoken.map (index :: ·), .broadcast c lanes⟩
  | s => ⟨[], [], s⟩

/-- The connection of one lane answers. -/
def resumeLane (response : Response) : List Sending → Nat → List Note × List Path × List Sending
  | [], _ => ([], [], [])
  | lane :: rest, 0 =>
    let r := lane.resume response
    (r.notes, r.woken, r.next :: rest)
  | lane :: rest, index + 1 =>
    let (notes, woken, rest) := resumeLane response rest index
    (notes, woken, lane :: rest)

end

/-! ## Steps of the main task of a broadcast -/

/-- One thing that the main task of a broadcast does. -/
def stepMain (c : Contest) (lanes : List Sending) : Turn :=
  match c.main with
  | .spawning panic =>
    let main := match panic with
      | some message => .panicking message
      | none => c.afterSpawning
    ⟨[], .ran, (List.range lanes.length).map ([·]), [], .broadcast { c with main := main } lanes⟩
  | .yielding => ⟨[], .yields, [], [], .broadcast { c with main := .joining 0 } lanes⟩
  | .joining seen =>
    if seen < c.overCount then
      ⟨[], .noticed (c.overCount - seen - 1) c.allOver, [], [],
        .broadcast { c with main := .joining (seen + 1) } lanes⟩
    else if c.allOver then ⟨[], .ran, [], [], .broadcast { c with main := .closing 0 } lanes⟩
    else ⟨[], .blocks, [], [], .broadcast c lanes⟩
  | .closing index =>
    if c.replay.any (·.owner.isNone) then ⟨[], .blocks, [], [], .broadcast c lanes⟩
    else if lanes.length ≤ index then
      ⟨[], .ran, [], [], .broadcast { c with main := .awaiting } lanes⟩
    else
      match c.phaseOf index with
      | .ended (some message) =>
        let cause := Contest.abortCause (quoted message)
        let (c, notes, reaction) :=
          { c with main := .closing (index + 1) }.closeSlot none index
            (.error (.closed ("backend task aborted: " ++ cause)))
        let notes := .log (.taskAborted index cause) :: notes
        match reaction with
        | .replays reply => ⟨notes, .delivers reply, [], [], .broadcast c lanes⟩
        | .answers (.result _) => ⟨notes, .ran, [], [], .broadcast c lanes⟩
        | .answers (.unwinds message) =>
          ⟨notes, .ran, [], [], .broadcast { c with main := .panicking message } lanes⟩
        | .answers .never => ⟨notes, .blocks, [], [], .broadcast c lanes⟩
      | _ => ⟨[], .ran, [], [], .broadcast { c with main := .closing (index + 1) } lanes⟩
  | .awaiting =>
    match c.verdict with
    | .open => ⟨[], .blocks, [], [], .broadcast c lanes⟩
    | _ => ⟨[], .noticed 0 false, [], [], .broadcast { c with main := .leaving } lanes⟩
  | .leaving =>
    let result := match c.verdict with
      | .announced result => result
      | _ => .error (.closed "race dropped before it was decided")
    ⟨[], .returned result, [], [], .broadcast { c with main := .gone } lanes⟩
  | .panicking message =>
    ⟨[], .panicked message, [], [], .broadcast { c with main := .gone } lanes⟩
  | .gone => ⟨[], .finishes, [], [], .broadcast c lanes⟩

/-! ## Steps of lanes -/

/-- What a broadcast makes of the step of a task in one of its lanes. The flag says that it was the
task of the lane itself. -/
def laneTurn (c : Contest) (index : Nat) (own : Bool) (t : Turn) (lanes : List Sending) : Turn :=
  let spawned := t.spawned.map (index :: ·)
  let woken := t.woken.map (index :: ·)
  match t.signal with
  | .delivers reply =>
    let (c, notes, reaction) := c.receive index reply
    match reaction with
    | .replays chosen =>
      ⟨t.notes ++ notes, .delivers chosen, spawned, woken, .broadcast c lanes⟩
    | .answers response =>
      let (more, moreWoken, lanes) := resumeLane response lanes index
      ⟨t.notes ++ notes ++ more, .ran, spawned, woken ++ moreWoken.map (index :: ·),
        .broadcast c lanes⟩
  | .returned result =>
    if own then
      let (c, notes, reaction) := c.closeSlot (some index) index result
      match reaction with
      | .replays chosen =>
        ⟨t.notes ++ notes, .delivers chosen, spawned, woken,
          .broadcast (c.setPhase index .replaying) lanes⟩
      | .answers (.result _) =>
        ⟨t.notes ++ notes, .finishes, spawned, woken ++ wokenByLane c,
          .broadcast (c.setPhase index (.ended none)) lanes⟩
      | .answers (.unwinds message) =>
        ⟨t.notes ++ notes, .finishes, spawned, woken ++ wokenByLane c,
          .broadcast (c.setPhase index (.ended (some message))) lanes⟩
      | .answers .never => ⟨t.notes ++ notes, .blocks, spawned, woken, .broadcast c lanes⟩
    else ⟨t.notes, .finishes, spawned, woken, .broadcast c lanes⟩
  | .panicked message =>
    if own then
      ⟨t.notes, .finishes, spawned, woken ++ wokenByLane c,
        .broadcast (c.setPhase index (.ended (some message))) lanes⟩
    else ⟨t.notes, .finishes, spawned, woken, .broadcast c lanes⟩
  | signal => ⟨t.notes, signal, spawned, woken, .broadcast c lanes⟩

/-- Whether a task of a lane can do something at all. -/
def laneBlocks (c : Contest) (index : Nat) (path : Path) : Bool :=
  match c.main with
  | .spawning _ => true
  | _ =>
    match c.phaseOf index with
    | .replaying => path.isEmpty
    | _ => false

/-- What becomes of the step of a detached task. -/
def detachedTurn (name : String) (own : Bool) (t : Turn) : Turn :=
  let spawned := t.spawned.map (0 :: ·)
  let woken := t.woken.map (0 :: ·)
  match t.signal with
  | .returned result =>
    if own then
      ⟨t.notes ++ [.event (.detached name result)], .finishes, spawned, woken,
        .detached name true t.next⟩
    else ⟨t.notes, .finishes, spawned, woken, .detached name true t.next⟩
  | .panicked _ => ⟨t.notes, .finishes, spawned, woken, .detached name true t.next⟩
  | signal => ⟨t.notes, signal, spawned, woken, .detached name true t.next⟩

/-- What a wrapper makes of a step. -/
def wrappedTurn (w : Wrapper) (t : Turn) : Turn :=
  match t.signal with
  | .delivers reply =>
    let (notes, reply) := w.outward reply
    ⟨t.notes ++ notes, .delivers reply, t.spawned, t.woken, .wrapped w t.next⟩
  | .returned result =>
    let (notes, result) := w.inward result
    ⟨t.notes ++ notes, .returned result, t.spawned, t.woken, .wrapped w t.next⟩
  | signal => ⟨t.notes, signal, t.spawned, t.woken, .wrapped w t.next⟩

/-! ## Steps -/

mutual

/-- One task of a sending does one thing. A task that does not exist does nothing. -/
def step : Sending → Path → Turn
  | .ended, [] => ⟨[], .finishes, [], [], .ended⟩
  | .stalled, [] => ⟨[], .blocks, [], [], .stalled⟩
  | .returns result, [] => ⟨[], .returned result, [], [], .ended⟩
  | .panics message, [] => ⟨[], .panicked message, [], [], .ended⟩
  | .note n next, [] => ⟨[n], .ran, [], [], next⟩
  | .pause p next, [] => ⟨[], .waits p, [], [], next⟩
  | .deliver reply, [] => ⟨[], .delivers reply, [], [], .delivered⟩
  | .delivered, [] => ⟨[], .blocks, [], [], .delivered⟩
  | .wrapped w inner, path => wrappedTurn w (inner.step path)
  | .detached name started inner, [] =>
    if started then ⟨[], .finishes, [], [], .detached name true inner⟩
    else ⟨[], .returned (.ok ()), [[0]], [], .detached name true inner⟩
  | .detached name started inner, _ :: path =>
    if started then detachedTurn name path.isEmpty (inner.step path)
    else ⟨[], .blocks, [], [], .detached name started inner⟩
  | .broadcast c lanes, [] => stepMain c lanes
  | .broadcast c lanes, index :: path =>
    if laneBlocks c index path then ⟨[], .blocks, [], [], .broadcast c lanes⟩
    else
      match stepLane lanes index path with
      | some (t, lanes) => laneTurn c index path.isEmpty t lanes
      | none => ⟨[], .finishes, [], [], .broadcast c lanes⟩
  | s, _ :: _ => ⟨[], .finishes, [], [], s⟩

/-- One task of a lane does one thing. -/
def stepLane : List Sending → Nat → Path → Option (Turn × List Sending)
  | [], _, _ => none
  | lane :: rest, 0, path =>
    let t := lane.step path
    some (t, t.next :: rest)
  | lane :: rest, index + 1, path =>
    match stepLane rest index path with
    | some (t, rest) => some (t, lane :: rest)
    | none => none

end

/-! ## The connection and the main task -/

mutual

/-- Whether the connection is still held by some task of a sending. -/
def holdsConnection : Sending → Bool
  | .ended => false
  | .stalled => true
  | .returns _ => true
  | .panics _ => true
  | .note _ _ => true
  | .pause _ _ => true
  | .deliver _ => true
  | .delivered => true
  | .wrapped _ inner => inner.holdsConnection
  | .detached _ _ inner => inner.holdsConnection
  | .broadcast c lanes =>
    if c.race.undecided then
      c.main != .gone || !c.allOver || someHolds lanes
    else c.replay.isSome

/-- Whether some lane still holds its slot. -/
def someHolds : List Sending → Bool
  | [] => false
  | lane :: rest => lane.holdsConnection || someHolds rest

end

/-- The contest of a broadcast whose main task is dropped. A replay of its own is dropped with
it. -/
def dropContest (c : Contest) : Contest :=
  match c.replay with
  | some ⟨none, _⟩ => { c with main := .gone, replay := none, verdict := .lost }
  | _ => { c with main := .gone }

/-- Drops the main task. The tasks that it started go on. -/
def dropMain : Sending → Sending
  | .wrapped w inner => .wrapped w inner.dropMain
  | .detached name started inner => if started then .detached name true inner else .ended
  | .broadcast c lanes =>
    match c.main with
    | .spawning _ => .ended
    | _ => .broadcast (dropContest c) lanes
  | _ => .ended

/-! ## Size -/

/-- A bound of the things that a client does to read a response. -/
def readingEffort (reply : Reply) : Nat :=
  match reply.body with
  | .stream feed => 2 * feed.items.length + 8
  | _ => 8

mutual

/-- A bound of the number of things that the tasks of a sending can do, together with those that
the client does for it. -/
def effort : Sending → Nat
  | .ended => 1
  | .stalled => 1
  | .returns _ => 2
  | .panics _ => 2
  | .note _ next => next.effort + 1
  | .pause _ next => next.effort + 1
  | .deliver reply => readingEffort reply + 4
  | .delivered => 3
  | .wrapped _ inner => inner.effort
  | .detached _ _ inner => inner.effort + 2
  | .broadcast _ lanes => effortOfLanes lanes + 8 * lanes.length + 24

/-- The bound for all lanes. -/
def effortOfLanes : List Sending → Nat
  | [] => 0
  | lane :: rest => lane.effort + effortOfLanes rest + 2

end

end Sending

end Switchboard
