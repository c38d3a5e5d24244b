import Switchboard.Delivery.Exchange
set_option autoImplicit false

/-! # Runs of a sending

A choice is one thing that can happen next to a sending: a task does something, or the connection
answers. A run is a sending with what it has let be seen so far, and every interleaving of its tasks
with its connection is a list of choices. `Exchange.sending_move` says that an exchange makes such
choices and no others.

A run is a `send` on any runtime, with any `Connection`, seen from outside: what it logs, what its
connection is given, and how it ends. -/

namespace Switchboard

/-- What can happen next to a sending. -/
inductive Choice where
  /-- A task does one thing. -/
  | task (path : Path)
  /-- The connection answers the response that it was given. -/
  | answer (response : Response)

/-- The sending after a choice. -/
def Sending.after (s : Sending) : Choice → Sending
  | .task path => (s.step path).next
  | .answer response => (s.resume response).next

/-- A sending with what it has let be seen. -/
structure Run where
  sending : Sending
  notes : List Note
  /-- The responses that the connection was given, in order. -/
  delivered : List Reply
  /-- How the main task ended, once it has. -/
  ending : Option Ending

namespace Run

/-- A run that begins. -/
def start (s : Sending) : Run := ⟨s, [], [], none⟩

/-- The responses that a signal gives to the connection. -/
def deliveredBy : Signal → List Reply
  | .delivers reply => [reply]
  | _ => []

/-- The end of the main task that a signal shows. -/
def endingBy : Signal → Option Ending
  | .returned result => some (.returned result)
  | .panicked message => some (.panicked message)
  | _ => none

/-- Makes a choice. -/
def choose (r : Run) : Choice → Run
  | .task path =>
    let t := r.sending.step path
    ⟨t.next, r.notes ++ t.notes, r.delivered ++ deliveredBy t.signal,
      r.ending <|> endingBy t.signal⟩
  | .answer response =>
    let resumed := r.sending.resume response
    { r with sending := resumed.next, notes := r.notes ++ resumed.notes }

/-- Makes choices one after the other. -/
def choices (r : Run) (list : List Choice) : Run := list.foldl choose r

theorem sending_choose (r : Run) (c : Choice) : (r.choose c).sending = r.sending.after c := by
  cases c <;> rfl

theorem choices_append (r : Run) (first next : List Choice) :
    r.choices (first ++ next) = (r.choices first).choices next := by
  simp [choices]

end Run

/-- A move of an exchange leaves its sending as it is, or makes a choice. -/
theorem Exchange.sending_move (e : Exchange) (path : Path) :
    (e.move path).next.sending = e.sending ∨
      ∃ c : Choice, (e.move path).next.sending = e.sending.after c := by
  have run : (e.run path).next.sending = e.sending.after (.task path) := by
    unfold Exchange.run
    cases h : (e.sending.step path).signal <;> simp [h, Sending.after]
  unfold Exchange.move
  split
  · next reader script _ =>
    split
    · cases script with
      | done result => exact .inr ⟨.answer (.result (e.client.handOver result).2), rfl⟩
      | panics message => exact .inr ⟨.answer (.unwinds message), rfl⟩
      | stalled => exact .inl rfl
      | note n next => exact .inl rfl
      | pause p next => exact .inl rfl
    · exact .inr ⟨_, run⟩
  · exact .inr ⟨_, run⟩

end Switchboard
