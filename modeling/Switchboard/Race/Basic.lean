import Switchboard.Race.HeldReply
import Switchboard.Race.Policy
set_option autoImplicit false

/-! # Races

A race has a slot for each contestant; the lower the index of a slot, the higher its priority. Each
slot reports once: a response, which is held back, or a failure. The race is decided as soon as
nothing that is still missing could change the choice: when the accepted response of highest
priority has only reports before it, or when all have reported. `Race.report` takes one report and
says what follows from it; `firstAccepted?` is the choice over a full list of results, which the
race must agree with whatever the order of its reports.

A race is the `State` that an `Aggregator` keeps behind its lock, and a ruling is the `Decision`
that a report takes under it. Nothing else that happens to an `Aggregator` touches that state. -/

namespace Switchboard

/-- The state of a slot. -/
inductive Slot where
  | empty
  | failed
  | holds (response : HeldReply)
  /-- It has reported, and its response was replayed or cancelled. -/
  | spent

/-- A slot after the decision: a held response has been taken out of it. -/
def Slot.release : Slot → Slot
  | .holds _ => .spent
  | slot => slot

/-- A race. -/
structure Race where
  slots : List Slot
  /-- The connection is still held, and nothing was chosen. -/
  undecided : Bool

/-- What a slot reports. -/
abbrev Report := Except SendError HeldReply

/-- What follows from a report. -/
inductive Ruling where
  | undecided
  /-- The race was decided before; a response that comes late is to be cancelled. -/
  | late (response : Option HeldReply)
  /-- This report decides the race. -/
  | decided (winner : Option (Nat × HeldReply)) (losers : List (Nat × HeldReply))
  /-- The report is refused, or the policy panicked. -/
  | panicked (message : String)

namespace Race

/-- A race in which nobody has reported; it needs a slot. -/
def ofSlots? (count : Nat) : Except String Race :=
  if count = 0 then .error "a race needs at least one slot"
  else .ok ⟨List.replicate count .empty, true⟩

/-! ## The choice -/

/-- What the slots say about the choice. -/
inductive Standing where
  /-- A slot that has not reported could still win. -/
  | open
  | winner (index : Nat)
  | noWinner
  | panicked (message : String)
  deriving Repr, DecidableEq

/-- Looks for the first slot that is empty or accepted, counting from an index. -/
def standingFrom (policy : Policy) : Nat → List Slot → Standing
  | _, [] => .noWinner
  | index, slot :: rest =>
    match slot with
    | .empty => .open
    | .holds response =>
      match policy response.head with
      | .ok true => .winner index
      | .ok false => standingFrom policy (index + 1) rest
      | .error message => .panicked message
    | .failed => standingFrom policy (index + 1) rest
    | .spent => standingFrom policy (index + 1) rest

/-- The held responses with their indices, counting from an index. -/
def heldFrom : Nat → List Slot → List (Nat × HeldReply)
  | _, [] => []
  | index, .holds response :: rest => (index, response) :: heldFrom (index + 1) rest
  | index, _ :: rest => heldFrom (index + 1) rest

/-- Decides the race if nothing can change the choice any more. -/
def rule (policy : Policy) (race : Race) : Race × Ruling :=
  let held := heldFrom 0 race.slots
  let released : Race := ⟨race.slots.map Slot.release, false⟩
  match standingFrom policy 0 race.slots with
  | .open => (race, .undecided)
  | .panicked message => (race, .panicked message)
  | .noWinner => (released, .decided none held)
  | .winner index =>
    (released,
      .decided (held.find? (·.1 = index)) (held.filter (·.1 != index)))

/-! ## Reports -/

/-- What is logged about a report that comes in time. -/
def reportEntry (index : Nat) : Report → LogEntry
  | .ok response => .backendReported index response.head.status
  | .error cause => .backendFailed index cause.message

/-- The state of a slot that has just reported. -/
def slotOf : Report → Slot
  | .ok response => .holds response
  | .error _ => .failed

/-- The response of a report. -/
def responseOf? : Report → Option HeldReply
  | .ok response => some response
  | .error _ => none

/-- Takes the report of a slot. A slot that does not exist or has reported is refused, and the
race is left as it is. -/
def report (policy : Policy) (race : Race) (index : Nat) (result : Report) :
    Race × List LogEntry × Ruling :=
  match race.slots[index]? with
  | none =>
    (race, [], .panicked ("slot " ++ toString index ++ " is out of range for a race of " ++
      toString race.slots.length ++ " slots"))
  | some .empty =>
    if race.undecided then
      let (decided, ruling) :=
        Race.rule policy { race with slots := race.slots.set index (slotOf result) }
      (decided, [reportEntry index result], ruling)
    else
      ({ race with slots := race.slots.set index .spent }, [], .late (responseOf? result))
  | some _ => (race, [], .panicked ("slot " ++ toString index ++ " reported twice"))

/-- The index of the first result that the policy accepts, counting from an index. -/
def firstAcceptedFrom? (accepts : ResponseHead → Bool) : Nat → List Report → Option Nat
  | _, [] => none
  | index, .ok response :: rest =>
    if accepts response.head then some index else firstAcceptedFrom? accepts (index + 1) rest
  | index, .error _ :: rest => firstAcceptedFrom? accepts (index + 1) rest

/-- The choice over all results of a race: the accepted response of the lowest index. -/
def firstAccepted? (accepts : ResponseHead → Bool) (results : List Report) : Option Nat :=
  firstAcceptedFrom? accepts 0 results

/-! ## What follows a decision -/

/-- The response that goes to the connection: the winner's, or the canonical 404. -/
def chosen : Option (Nat × HeldReply) → Reply
  | some (_, response) => response
  | none => Reply.notFound

/-- What is logged about the choice. -/
def chosenEntry : Option (Nat × HeldReply) → LogEntry
  | some (index, response) => .raceWon index response.head.status
  | none => .raceLost

/-- Cancels the losers of a decided race in the order of their slots. -/
def cancelLosers (opened : List String) (losers : List (Nat × HeldReply)) : List Note × Bool :=
  HeldReply.cancelAll opened <|
    losers.map fun (index, held) => ([.log (.cancellingLoser index)], held)

/-- Cancels a response that came after the decision. -/
def cancelLate (opened : List String) (index : Nat) : Option HeldReply → List Note × Bool
  | some held => HeldReply.cancelAll opened [([.log (.reportedLate index)], held)]
  | none => ([], true)

/-- Cancels a response that was sent through a slot after the slot had reported. -/
def cancelSecond (opened : List String) (index : Nat) (held : HeldReply) :
    List Note × Bool :=
  HeldReply.cancelAll opened [([.log (.deliveredTwice index)], held)]

end Race

end Switchboard
