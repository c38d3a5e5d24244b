import Switchboard.Delivery.House
import Switchboard.Delivery.Run
set_option autoImplicit false

/-! # Requests side by side

Any number of requests can be on their way at once. A crowd keeps the run of each of them, and which
of the waits that requests share are over: a task goes past such a wait once it is over, and not
before. Nothing else that happens to one request has to do with another one. A list of incidents is
an interleaving of whatever is asked, resolved and done. `House.exchanges_begin` says that a house
begins to serve a request in the same way, and `Exchange.sending_move` that it goes on by choices.

A crowd is a runtime on which any number of responses are sent, and the waits that they share are
the futures of `AsyncSlice`. -/

namespace Switchboard

/-- The run of the task that has asked for a response and is to send it. -/
def Responding.begun (r : Responding) : Run :=
  match r.sending with
  | .ok s => ⟨s, r.notes, [], none⟩
  | .error message => ⟨.ended, r.notes, [], some (.panicked message)⟩

/-- A house that begins to serve a request begins its run. -/
theorem House.exchanges_begin (h : House) (handler : Handler) (head : RequestHead) (body : Body)
    (kind : ClientKind) :
    ∃ e : Exchange, (h.begin handler head body kind).exchanges = h.exchanges ++ [e] ∧
      e.sending = (handler.respond head body).begun.sending ∧
      e.ending = (handler.respond head body).begun.ending := by
  rw [House.begin, Responding.begun]
  cases (handler.respond head body).sending with
  | ok s => exact ⟨_, rfl, rfl, rfl⟩
  | error message => exact ⟨_, rfl, rfl, rfl⟩

/-- One thing that happens in a crowd. -/
inductive Incident where
  /-- A handler is asked for a response, and that is to be sent from now on. -/
  | asks (handler : Handler) (head : RequestHead) (body : Body)
  /-- What everybody who names this key waits for is there. -/
  | resolves (key : Nat)
  /-- Something happens next to the response to the request with this number. -/
  | goesOn (request : Nat) (choice : Choice)

/-- Requests on their way. -/
structure Crowd where
  /-- The keys of the shared waits that are over. -/
  past : List Nat
  /-- The runs of the requests, in the order in which they were made. -/
  runs : List Run

/-- Whether a run can make a choice when these shared waits are over. -/
def Run.permits (past : List Nat) (r : Run) : Choice → Bool
  | .task path =>
    match (r.sending.step path).signal with
    | .waits (.shared key _) => past.contains key
    | _ => true
  | .answer _ => true

/-- Makes a choice, if the run can. -/
def Run.tryChoice (past : List Nat) (choice : Choice) (r : Run) : Run :=
  if r.permits past choice then r.choose choice else r

namespace Crowd

/-- Nobody has asked for anything. -/
def empty : Crowd := ⟨[], []⟩

/-- What is left by an incident. -/
def after (crowd : Crowd) : Incident → Crowd
  | .asks handler head body =>
    { crowd with runs := crowd.runs ++ [(handler.respond head body).begun] }
  | .resolves key => { crowd with past := key :: crowd.past }
  | .goesOn request choice =>
    { crowd with runs := crowd.runs.modify request (Run.tryChoice crowd.past choice) }

/-- What is left by incidents, one after the other. -/
def afterAll (crowd : Crowd) (incidents : List Incident) : Crowd := incidents.foldl after crowd

end Crowd

namespace Incident

/-- What is asked with an incident. -/
def asked? : Incident → Option (Handler × RequestHead × Body)
  | .asks handler head body => some (handler, head, body)
  | _ => none

/-- What happens next to a request with an incident. -/
def choice? (request : Nat) : Incident → Option Choice
  | .goesOn other choice => if other = request then some choice else none
  | _ => none

/-- What is asked, in order. -/
def askedIn (incidents : List Incident) : List (Handler × RequestHead × Body) :=
  incidents.filterMap asked?

/-- What an incident is to a request that is alone. -/
def alone? (request : Nat) : Incident → Option Incident
  | .asks _ _ _ => none
  | .resolves key => some (.resolves key)
  | .goesOn other choice => if other = request then some (.goesOn 0 choice) else none

/-- What a request meets with, in order, as if it were alone. -/
def aloneIn (incidents : List Incident) (request : Nat) : List Incident :=
  incidents.filterMap (alone? request)

/-- What happens next to a request, in order. -/
def choicesIn (incidents : List Incident) (request : Nat) : List Choice :=
  incidents.filterMap (choice? request)

end Incident

end Switchboard
