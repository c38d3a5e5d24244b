import Switchboard.Connection.Basic
import Switchboard.Race.Basic
set_option autoImplicit false

/-! # A race with its connection

A board is a race together with the connection it was started for. A report that decides the race
gives the chosen response to the connection; that may take a while, and until it has ended the
report has not. Afterwards the losers are cancelled and the outcome is announced. What can be done
with a board is a `BoardAction`, and `Board.perform` does it, so a list of actions is one of the
orders in which reports, gates and departures can come.

A board is an `Aggregator` by itself, with the `BoxConnection` and the `Outcome` it was created
with: its reports are calls of `report`, of which several may be under way. -/

namespace Switchboard

/-- What is known of how a race came out for its connection. -/
inductive Announcement where
  | open
  | announced (result : Delivery)
  /-- It was announced and taken note of, or nobody waits for it. -/
  | taken

/-- A report whose response, or the canonical 404, is being replayed. -/
structure Replay where
  /-- The number of the action that brought the report. -/
  report : Nat
  losers : List (Nat × HeldReply)
  /-- The replay is over, and a loser keeps the report busy for ever. -/
  busy : Bool

/-- A race with its connection. -/
structure Board where
  policy : Policy
  race : Race
  connection : Connection
  replay : Option Replay
  /-- Reports that came late and have a response to cancel that keeps them busy for ever. -/
  busy : List Nat
  outcome : Announcement
  /-- Somebody can still report. -/
  inUse : Bool
  /-- The response was found in the mailbox, or that there will be none. -/
  found : Bool
  /-- The gates that are open. -/
  gates : List String
  /-- How many actions there were. -/
  actions : Nat

/-- What can be done with a board. -/
inductive BoardAction where
  | report (index : Nat) (result : Report)
  | openGate (name : String)
  /-- Nobody will report any more. -/
  | close
  /-- Nobody waits for the outcome any more. -/
  | ignoreOutcome
  | askOutcome
  /-- Looks into the mailbox of the connection. -/
  | look
  /-- Nothing is done. -/
  | pass

/-- What asking for the outcome gives. -/
inductive OutcomePoll where
  | result (result : Delivery)
  | pending
  | taken

/-- The answer to an action. -/
inductive BoardAnswer where
  | nothing
  /-- The board is closed. -/
  | closed
  | outcome (outcome : OutcomePoll)
  /-- What was found, unless that is known already or nobody looks. -/
  | found (mailbox : Option Mailbox)

/-- How a report ended. -/
inductive ReportEnd where
  | done
  | panicked (message : String)

/-- What follows from an action. -/
structure BoardTurn where
  board : Board
  answer : BoardAnswer
  notes : List Note
  /-- The reports that ended, by the numbers of their actions. -/
  ended : List (Nat × ReportEnd)

namespace Board

/-- A board on which nobody has reported; a race needs a slot. -/
def ofSlots? (slots : Nat) (policy : Policy) (kind : ClientKind) : Except String Board :=
  match Race.ofSlots? slots with
  | .error message => .error message
  | .ok race =>
    .ok ⟨policy, race, Connection.ofKind kind, none, [], .open, true, false, [], 0⟩

/-- How many reports have not ended. -/
def running (board : Board) : Nat := board.replay.toList.length + board.busy.length

/-- An action that changes nothing but the board. -/
def quietTurn (board : Board) (answer : BoardAnswer) : BoardTurn := ⟨board, answer, [], []⟩

/-! ## Reports -/

/-- Starts a report. -/
def report (board : Board) (number index : Nat) (result : Report) : BoardTurn :=
  let (race, entries, ruling) := board.race.report board.policy index result
  let notes := entries.map Note.log
  let board := { board with race := race }
  match ruling with
  | .undecided => ⟨board, .nothing, notes, [(number, .done)]⟩
  | .panicked message => ⟨board, .nothing, notes, [(number, .panicked message)]⟩
  | .late response =>
    let (cancelled, finished) := Race.cancelLate board.gates index response
    if finished then ⟨board, .nothing, notes ++ cancelled, [(number, .done)]⟩
    else
      ⟨{ board with busy := board.busy ++ [number] }, .nothing, notes ++ cancelled, []⟩
  | .decided winner losers =>
    ⟨{ board with
        connection := board.connection.give (Race.chosen winner)
        replay := some ⟨number, losers, false⟩ },
      .nothing, notes ++ [.log (Race.chosenEntry winner)], []⟩

/-- The connection has answered the replay: the losers are cancelled and the outcome is
announced. -/
def conclude (board : Board) (replay : Replay) (result : Delivery) : BoardTurn :=
  let (notes, finished) := Race.cancelLosers board.gates replay.losers
  if !finished then
    ⟨{ board with replay := some ⟨replay.report, [], true⟩ }, .nothing, notes, []⟩
  else
    match board.outcome with
    | .taken =>
      ⟨{ board with replay := none }, .nothing, notes ++ [.log .outcomeUnawaited],
        [(replay.report, .done)]⟩
    | _ =>
      ⟨{ board with replay := none, outcome := .announced result }, .nothing, notes,
        [(replay.report, .done)]⟩

/-- Goes on with the replay, as far as the open gates let it. -/
def advance (board : Board) : BoardTurn :=
  match board.replay with
  | none => board.quietTurn .nothing
  | some replay =>
    if replay.busy then board.quietTurn .nothing
    else
      let (connection, notes) := board.connection.poll board.gates
      let board := { board with connection := connection }
      match connection.state with
      | .answered result =>
        let concluded := board.conclude replay result
        { concluded with notes := notes ++ concluded.notes }
      | .panicked message =>
        ⟨{ board with replay := none }, .nothing, notes, [(replay.report, .panicked message)]⟩
      | _ => ⟨board, .nothing, notes, []⟩

/-! ## The other actions -/

/-- Nobody will report any more; a connection that is still unused is dropped. -/
def close (board : Board) : Board :=
  { board with
    inUse := false
    connection := if board.race.undecided then board.connection.drop else board.connection }

/-- Whether the outcome can still be announced. -/
def awaitsOutcome (board : Board) : Bool :=
  board.replay.isSome || (board.race.undecided && board.inUse)

/-- Asks for the outcome. It is given once. -/
def askOutcome (board : Board) : Board × OutcomePoll :=
  match board.outcome with
  | .taken => (board, .taken)
  | .announced result => ({ board with outcome := .taken }, .result result)
  | .open =>
    if board.awaitsOutcome then (board, .pending)
    else
      ({ board with outcome := .taken },
        .result (.error (.closed "race dropped before it was decided")))

/-- Looks into the mailbox until something is found there. -/
def look (board : Board) : Board × Option Mailbox :=
  if board.found || !board.connection.client.kind.isHeard then (board, none)
  else
    match board.connection.mailbox with
    | .pending => (board, some .pending)
    | mailbox => ({ board with found := true }, some mailbox)

/-- Does one thing with a board, before the report that is being replayed goes on. -/
def act (board : Board) (number : Nat) : BoardAction → BoardTurn
  | .report index result =>
    if board.inUse then board.report number index result else board.quietTurn .closed
  | .openGate name => quietTurn { board with gates := name :: board.gates } .nothing
  | .close => board.close.quietTurn .nothing
  | .ignoreOutcome => quietTurn { board with outcome := .taken } .nothing
  | .askOutcome => quietTurn board.askOutcome.1 (.outcome board.askOutcome.2)
  | .look => quietTurn board.look.1 (.found board.look.2)
  | .pass => board.quietTurn .nothing

/-- Does one thing with a board. -/
def perform (board : Board) (action : BoardAction) : BoardTurn :=
  let acted := { board with actions := board.actions + 1 }.act board.actions action
  let advanced := acted.board.advance
  ⟨advanced.board, acted.answer, acted.notes ++ advanced.notes, advanced.ended ++ acted.ended⟩

/-- Does one thing after the other. -/
def run : Board → List BoardAction → Board × List BoardTurn
  | board, [] => (board, [])
  | board, action :: rest =>
    let turn := board.perform action
    let (final, turns) := run turn.board rest
    (final, turn :: turns)

/-- The diagnostic text of a board. -/
def debug (board : Board) : String :=
  "Aggregator \x7b slots: " ++ toString board.race.slots.length ++ ", resolved: " ++
    toString (!board.race.undecided) ++ " \x7d"

end Board

end Switchboard
