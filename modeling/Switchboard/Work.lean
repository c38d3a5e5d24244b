import Switchboard.Journal
set_option autoImplicit false

/-! # Work in progress

A piece of work is a finite script of what a computation does until it has its value: it makes
notes, and it pauses. Whoever runs the script decides when a pause is over, so one script describes
the computation under every timing. `Work.bind` puts one after the other, and `Work.poll` runs a
script as far as it goes while nothing but open gates lets it pass. -/

namespace Switchboard

/-- What a computation waits for. -/
inductive Pause where
  | sleep (ms : Nat)
  /-- The end of a wait that everybody who names the same key shares. -/
  | shared (key ms : Nat)
  | gate (name : String)
  deriving Repr, DecidableEq

/-- A script that ends with a value. -/
inductive Work (α : Type) where
  | done (value : α)
  | panics (message : String)
  /-- Never goes on. -/
  | stalled
  | note (note : Note) (next : Work α)
  | pause (pause : Pause) (next : Work α)

namespace Work

variable {α β : Type}

/-- One script after another. -/
def bind : Work α → (α → Work β) → Work β
  | .done a, f => f a
  | .panics message, _ => .panics message
  | .stalled, _ => .stalled
  | .note n next, f => .note n (next.bind f)
  | .pause p next, f => .pause p (next.bind f)

/-- A script with its value changed. -/
def map (f : α → β) (w : Work α) : Work β := w.bind fun a => .done (f a)

/-- Makes notes first. -/
def afterNotes (notes : List Note) (w : Work α) : Work α := notes.foldr .note w

/-- Sleeps first; no time at all is no pause. -/
def afterSleep (ms : Nat) (w : Work α) : Work α := if ms = 0 then w else .pause (.sleep ms) w

/-- How many notes and pauses a script has. -/
def length : Work α → Nat
  | .done _ => 0
  | .panics _ => 0
  | .stalled => 0
  | .note _ next => next.length + 1
  | .pause _ next => next.length + 1

/-- How far a poll came. -/
inductive Progress (α : Type) where
  | finished (value : α)
  | panicked (message : String)
  | blocked (rest : Work α)

/-- Runs a script until it ends or has to wait, passing the gates that are open. -/
def poll (opened : List String) : Work α → List Note × Progress α
  | .done a => ([], .finished a)
  | .panics message => ([], .panicked message)
  | .stalled => ([], .blocked .stalled)
  | .note n next =>
    let (notes, progress) := next.poll opened
    (n :: notes, progress)
  | .pause (.gate name) next =>
    if opened.contains name then next.poll opened else ([], .blocked (.pause (.gate name) next))
  | .pause p next => ([], .blocked (.pause p next))

end Work

end Switchboard
