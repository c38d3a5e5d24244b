import Switchboard.Body.Consume
import Switchboard.Http.Response
set_option autoImplicit false

/-! # Held responses

A response that is held back until its race is decided is consumed once: it is replayed to the
connection, or cancelled. Cancelling reads a little of the body, without waiting, so that a producer
that is nearly done can finish.

A held response is a `Captured`, with its `replay` and its `cancel`. -/

namespace Switchboard

/-- A response that is held back. -/
abbrev HeldReply := Reply

namespace HeldReply

/-- How many bytes of a cancelled response are read. -/
def skimLimit : Nat := 64 * 1024

/-- What became of a cancelled response: what was noted, and the number of bytes that count as
read, unless its body keeps the reader busy for ever. -/
structure Cancellation where
  notes : List Note
  size : Option Nat

/-- Cancels a held response. A body that fails counts as nothing read. -/
def cancel (opened : List String) (held : HeldReply) : Cancellation :=
  match held.body.skim opened skimLimit with
  | some (.ok size, read) =>
    ⟨read.notes ++ [.log (.cancelled held.head.status size)], some size⟩
  | some (.error e, read) =>
    ⟨read.notes ++ [.log (.cancelFailed held.head.status e.message)], some 0⟩
  | none => ⟨[], none⟩

/-- Cancels responses one after the other; `none` for the size if one of them is never done. -/
def cancelAll (opened : List String) : List (List Note × HeldReply) → List Note × Bool
  | [] => ([], true)
  | (before, held) :: rest =>
    let cancelled := held.cancel opened
    match cancelled.size with
    | none => (before ++ cancelled.notes, false)
    | some _ =>
      let (notes, finished) := cancelAll opened rest
      (before ++ cancelled.notes ++ notes, finished)

section

variable {opened : List String} {before : List Note} {held : HeldReply}
  {rest : List (List Note × HeldReply)}

theorem cancelAll_nil : cancelAll opened [] = ([], true) := rfl

theorem cancelAll_cons : cancelAll opened ((before, held) :: rest) =
    match (held.cancel opened).size with
    | none => (before ++ (held.cancel opened).notes, false)
    | some _ =>
      (before ++ (held.cancel opened).notes ++ (cancelAll opened rest).1,
        (cancelAll opened rest).2) := rfl

theorem cancelAll_of_stuck (h : (held.cancel opened).size = none) :
    cancelAll opened ((before, held) :: rest) = (before ++ (held.cancel opened).notes, false) := by
  rw [cancelAll_cons, h]

theorem cancelAll_of_done {size : Nat} (h : (held.cancel opened).size = some size) :
    cancelAll opened ((before, held) :: rest) =
      (before ++ (held.cancel opened).notes ++ (cancelAll opened rest).1,
        (cancelAll opened rest).2) := by
  rw [cancelAll_cons, h]

/-- Responses that are cancelled one after the other are done with if each of them is. -/
theorem cancelAll_finishes_iff {helds : List (List Note × HeldReply)} :
    (cancelAll opened helds).2 = true ↔ ∀ held ∈ helds, (held.2.cancel opened).size ≠ none := by
  induction helds with
  | nil => simp only [cancelAll_nil, List.not_mem_nil, false_implies, implies_true]
  | cons first rest ih =>
    obtain ⟨before, held⟩ := first
    rw [List.forall_mem_cons]
    cases hsize : (held.cancel opened).size with
    | none => simp only [cancelAll_of_stuck hsize, Bool.false_eq_true, ne_eq, not_true, false_and]
    | some size =>
      simp only [cancelAll_of_done hsize, ih, ne_eq, reduceCtorEq, not_false_eq_true, true_and]

theorem cancelAll_singleton_snd :
    (cancelAll opened [(before, held)]).2 = (held.cancel opened).size.isSome := by
  rw [cancelAll_cons]
  cases (held.cancel opened).size <;> rfl

end

end HeldReply

end Switchboard
