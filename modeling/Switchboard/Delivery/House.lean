import Switchboard.Delivery.Exchange
import Switchboard.Handler.Basic
set_option autoImplicit false

/-! # Serving requests under a virtual clock

A house serves requests one after the other. A task runs until it has to wait; that is its turn.
Tasks that are ready take their turns in the order in which they became ready, and a task that wakes
itself becomes ready after its turn. The main task of the request that is being served stands apart:
it is asked at the start of a round, if it was woken, and a round ends when no task is ready, or
after `turnsPerRound` turns. When there is nothing left to do, the clock jumps to the next time at
which something goes on. Tasks of earlier requests that are still at work go on beside it. This is
one schedule among all those that `Exchange.move` allows.

A turn is limited in one respect: a task takes note of at most `noticesPerTurn` ends of other
tasks. It is held back from the others, and from a pause that it is about to begin then, until the
round is over.

A house is a runtime of one thread whose clock is paused, with the tasks that a `GroupResponse`
spawns on it and the futures that an `AsyncSlice` shares. -/

namespace Switchboard

/-- A task of the house: the number of its exchange, and its path there. -/
structure TaskId where
  exchange : Nat
  path : Path
  deriving Repr, DecidableEq

/-- What a waiting task waits for. -/
inductive Wait where
  | time (due : Nat)
  /-- The end of the shared wait with this key. -/
  | shared (key : Nat)
  | forever
  deriving Repr, DecidableEq

/-- A wait that all requests share. -/
structure SharedWait where
  key : Nat
  due : Nat
  /-- Some task has found that its time has come. -/
  found : Bool
  deriving Repr, DecidableEq

/-- Whom the clock wakes. -/
inductive Alarm where
  | task (id : TaskId)
  /-- Everybody who waits for the shared wait with this key. -/
  | shared (key : Nat)
  deriving Repr, DecidableEq

/-- What goes on in the house. -/
structure House where
  now : Nat
  exchanges : List Exchange
  /-- Tasks that can go on, in the order in which they became ready. -/
  ready : List TaskId
  /-- Tasks that pause, in the order in which they began to. -/
  waiting : List (TaskId × Wait)
  /-- When whom the clock wakes, in the order in which that was asked for. -/
  alarms : List (Nat × Alarm)
  /-- The shared waits that have begun. -/
  shared : List SharedWait
  /-- Tasks that are held back until the round is over, each with the number of ends that it cannot
  take note of before. -/
  heldBack : List (TaskId × Nat)
  /-- The exchange that is being served, unless its main task has come to its end. -/
  served : Option Nat
  /-- The main task of that exchange is to be asked again. -/
  mainWoken : Bool
  /-- The turns of the present round; the first one is the main task's, whether it takes it or
  not. -/
  turns : Nat
  /-- The notes of the present request, the latest first. -/
  latest : List Note

namespace House

/-- How many tasks besides the main one take their turns in a round. -/
def turnsPerRound : Nat := 61

/-- How many ends of other tasks a task takes note of in one turn. -/
def noticesPerTurn : Nat := 128

/-- Nobody has asked for anything. -/
def idle : House := ⟨0, [], [], [], [], [], [], none, false, 0, []⟩

/-- The notes of the present request in order. -/
def notes (h : House) : List Note := h.latest.reverse

/-- Makes notes. -/
def record (h : House) (notes : List Note) : House :=
  { h with latest := notes.reverse ++ h.latest }

/-- Whether a task is the main task of the request that is being served. -/
def isServedMain (h : House) (id : TaskId) : Bool :=
  id.path.isEmpty && h.served == some id.exchange

/-- Makes a task ready, unless it is ready already. -/
def wake (h : House) (id : TaskId) : House :=
  if h.isServedMain id then { h with mainWoken := true }
  else if h.ready.contains id then h
  else { h with ready := h.ready ++ [id] }

/-- The exchange with this number. -/
def exchange? (h : House) (number : Nat) : Option Exchange := h.exchanges[number]?

/-! ## Waiting -/

/-- Asks for an alarm after a while; no time at all needs none. -/
def addAlarm (h : House) (ms : Nat) (alarm : Alarm) : House :=
  if ms = 0 then h else { h with alarms := h.alarms ++ [(h.now + ms, alarm)] }

/-- What a pause waits for. A sleep asks for an alarm of its own, and the first pause that names a
shared wait asks for one for all who do. -/
def beginWait (h : House) (id : TaskId) : Pause → House × Wait
  | .sleep ms => (h.addAlarm ms (.task id), .time (h.now + ms))
  | .shared key ms =>
    if h.shared.any (·.key = key) then (h, .shared key)
    else
      let wait : SharedWait := ⟨key, h.now + ms, false⟩
      ({ h with shared := h.shared ++ [wait] }.addAlarm ms (.shared key), .shared key)
  | .gate _ => (h, .forever)

/-- Whether a wait has come to its end. -/
inductive WaitCheck where
  | lasts
  /-- It has; the flag says that the task is the first one to find that of a shared wait. -/
  | passed (first : Bool)

/-- Checks a wait. -/
def checkWait (h : House) : Wait → House × WaitCheck
  | .time due => (h, if due ≤ h.now then .passed false else .lasts)
  | .shared key =>
    match h.shared.find? (·.key = key) with
    | some wait =>
      if wait.found then (h, .passed false)
      else if wait.due ≤ h.now then
        ({ h with shared :=
            h.shared.map fun w => if w.key = key then { w with found := true } else w },
          .passed true)
      else (h, .lasts)
    | none => (h, .lasts)
  | .forever => (h, .lasts)

/-- How many ends a task cannot take note of before the round is over. -/
def heldBackFrom (h : House) (id : TaskId) : Nat :=
  match h.heldBack.find? (·.1 = id) with
  | some (_, count) => count
  | none => 0

/-- Holds a task back until the round is over, from so many ends. -/
def holdBack (h : House) (id : TaskId) (count : Nat) : House :=
  { h with heldBack :=
    if h.heldBack.any (·.1 = id) then
      h.heldBack.map fun (other, known) => (other, if other = id then count else known)
    else h.heldBack ++ [(id, count)] }

/-! ## Turns -/

/-- Ends a turn. A task that has woken itself is ready again. -/
def endTurn (h : House) (id : TaskId) (again : Bool) : House := if again then h.wake id else h

/-- Takes the turn of a task: runs it until it has to wait. The bound counts its steps, `notices`
the ends that it may still take note of, and `again` says that it has woken itself. -/
def takeTurn (id : TaskId) : Nat → Nat → Bool → House → House
  | 0, _, _, h => h
  | bound + 1, notices, again, h =>
    match h.exchange? id.exchange with
    | none => h
    | some e =>
      let m := e.move id.path
      let moved :=
        (m.spawned ++ m.woken).foldl (fun h path => h.wake ⟨id.exchange, path⟩)
          ({ h with exchanges := h.exchanges.set id.exchange m.next }.record m.notes)
      match m.signal with
      | .ran => takeTurn id bound notices again moved
      | .noticed further last =>
        let back := h.heldBackFrom id
        if further < back then h.endTurn id again
        else if notices = 0 then
          (h.holdBack id (further + 1)).endTurn id (again || (last && back = 0))
        else takeTurn id bound (notices - 1) again moved
      | .yields => moved.endTurn id true
      | .waits p =>
        if notices = 0 then (h.holdBack id 0).endTurn id again
        else
          let (begun, wait) := moved.beginWait id p
          match begun.checkWait wait with
          | (checked, .passed first) => takeTurn id bound notices (again || first) checked
          | (checked, .lasts) =>
            { checked with waiting := checked.waiting ++ [(id, wait)] }.endTurn id again
      | .blocks => moved.endTurn id again
      | _ => moved

/-- Lets a task take its turn, if it does not wait for the clock. -/
def run (h : House) (id : TaskId) : House :=
  match h.exchange? id.exchange with
  | none => h
  | some e =>
    match h.waiting.find? (·.1 = id) with
    | none => takeTurn id e.budget noticesPerTurn false h
    | some (_, wait) =>
      match h.checkWait wait with
      | (h, .lasts) => h
      | (h, .passed first) =>
        takeTurn id e.budget noticesPerTurn first
          { h with waiting := h.waiting.filter (·.1 != id) }

/-- Lets the main task take its turn. -/
def runMain (h : House) : House :=
  match h.served with
  | some number => { h with mainWoken := false, turns := 1 }.run ⟨number, []⟩
  | none => { h with mainWoken := false, turns := 1 }

/-- Whether the request that is being served has come to its end. -/
def ending? (h : House) : Option Ending :=
  match h.served with
  | some number => (h.exchange? number).bind (·.ending)
  | none => none

/-! ## Rounds -/

/-- The earliest time at which the clock wakes somebody. -/
def nextTime? (h : House) : Option Nat :=
  h.alarms.foldl
    (fun best (due, _) => match best with
      | some t => some (min t due)
      | none => some due)
    none

/-- Wakes whom an alarm is for. -/
def ring (h : House) : Alarm → House
  | .task id => h.wake id
  | .shared key => ((h.waiting.filter (·.2 = .shared key)).map (·.1)).foldl wake h

/-- Moves the clock, and wakes those whose time has come. -/
def moveClock (h : House) (time : Nat) : House :=
  ((h.alarms.filter (·.1 ≤ time)).map (·.2)).foldl ring
    { h with now := time, alarms := h.alarms.filter (time < ·.1), turns := 0 }

/-- Begins the next round. Tasks that were held back are ready again. -/
def nextRound (h : House) : House :=
  (h.heldBack.map (·.1)).foldl wake { h with heldBack := [], turns := 0 }

/-- Lets everything go on until the limit, or until the request that is being served has come to
its end. Those who are woken at the limit itself do not take their turns. The bound counts turns,
rounds and jumps of the clock. -/
def runUntil (limit : Nat) : Nat → House → House
  | 0, h => h
  | bound + 1, h =>
    if h.ending?.isSome then h
    else if h.turns = 0 then
      runUntil limit bound (if h.mainWoken then h.runMain else { h with turns := 1 })
    else
      match h.ready with
      | id :: rest =>
        if h.turns ≤ turnsPerRound then
          runUntil limit bound ({ h with ready := rest, turns := h.turns + 1 }.run id)
        else runUntil limit bound h.nextRound
      | [] =>
        if h.mainWoken || !h.heldBack.isEmpty then runUntil limit bound h.nextRound
        else
          match h.nextTime? with
          | some time =>
            if time < limit then runUntil limit bound (h.moveClock time) else h.moveClock limit
          | none => h.moveClock limit

/-- A bound of what is left to happen in the house. -/
def bound (h : House) : Nat :=
  16 * h.exchanges.foldl (fun n e => n + e.budget) 0 + 64

/-- Lets everything go on until the limit. -/
def runTo (h : House) (limit : Nat) : House := runUntil limit h.bound h

/-! ## Serving -/

/-- How long a request may take, and how long its aftermath is watched. -/
def patience : Nat := 3600000

/-- What was seen of one request. -/
structure Account where
  ending : Ending
  mailbox : Option Mailbox
  elapsed : Nat
  notes : List Note

/-- Begins to serve a request: asks the handler. -/
def begin (h : House) (handler : Handler) (head : RequestHead) (body : Body)
    (kind : ClientKind) : House :=
  let asked := handler.respond head body
  let exchange : Exchange := match asked.sending with
    | .ok sending => .start sending kind
    | .error message => { Exchange.start .ended kind with ending := some (.panicked message) }
  { h with
    exchanges := h.exchanges ++ [exchange]
    served := some h.exchanges.length
    mainWoken := false
    turns := 1
    latest := asked.notes.reverse }

/-- Asks the main task, unless it has come to its end. -/
def askMain (h : House) : House := if h.ending?.isSome then h else h.runMain

/-- Drops the main task that is being served. -/
def dropServed (h : House) : House :=
  match h.served with
  | some number =>
    { h with
      exchanges := h.exchanges.modify number Exchange.dropMain
      waiting := h.waiting.filter (·.1 != ⟨number, []⟩)
      alarms := h.alarms.filter (·.2 != .task ⟨number, []⟩)
      heldBack := h.heldBack.filter (·.1 != ⟨number, []⟩)
      mainWoken := false }
  | none => h

/-- Nobody waits for the response to an exchange any more. -/
def stopListening (h : House) (number : Nat) : House :=
  { h with exchanges := h.exchanges.modify number Exchange.stopListening }

/-- Serves one request and watches what comes after it; then nobody waits for its response any
more. At the limit of its time the main task is asked a last time. -/
def serve (h : House) (handler : Handler) (head : RequestHead) (body : Body) (kind : ClientKind) :
    House × Account :=
  let started := (h.begin handler head body kind).askMain
  let run := (started.runTo (h.now + patience)).askMain
  let (ending, run) :=
    match run.ending? with
    | some ending => (ending, run)
    | none => (.hung, run.dropServed)
  let mailbox := (run.exchange? h.exchanges.length).bind (·.mailbox)
  let after := { run with served := none, mainWoken := false }.runTo (run.now + patience)
  (after.stopListening h.exchanges.length, ⟨ending, mailbox, run.now - h.now, after.notes⟩)

/-- Serves one request without waiting at all: how it ended, if it did so at once, and what is in
the mailbox then. -/
def serveAtOnce (h : House) (handler : Handler) (head : RequestHead) (body : Body)
    (kind : ClientKind) : House × Option Ending × Option Mailbox :=
  let started := (h.begin handler head body kind).askMain
  let ending := started.ending?
  let dropped := if ending.isSome then started else started.dropServed
  ({ dropped.stopListening h.exchanges.length with served := none, ready := [] }, ending,
    (dropped.exchange? h.exchanges.length).bind (·.mailbox))

end House

end Switchboard
