import Switchboard.Proofs.Delivery.Once
set_option autoImplicit false

/-! # What a run lets be seen, in order

A run keeps its notes, its responses and its end apart. `Sending.sightsIn` keeps them in the one
order in which they come: what a step notes comes before the response that it gives to the
connection, and before the end of the main task. The record of the run is what they show
(`Sending.showsRecord`), and a wrapper changes them one by one (`Sending.sightsIn_wrapped`).

The run is a `send`, its notes are what is logged, and its wrappers are those of `Decorator`. -/

namespace Switchboard

/-- One thing that a run lets be seen. -/
inductive Sight where
  | noted (note : Note)
  /-- The connection is given this response. -/
  | given (reply : Reply)
  /-- The main task has come to its end. -/
  | ended (ending : Ending)

namespace Sight

/-- The note of a sight that is one. -/
def note? : Sight → Option Note
  | .noted note => some note
  | _ => none

/-- The response of a sight by which one is given. -/
def reply? : Sight → Option Reply
  | .given reply => some reply
  | _ => none

/-- The end of the main task, where a sight shows it. -/
def ending? : Sight → Option Ending
  | .ended ending => some ending
  | _ => none

/-- What a wrapper makes of a sight: its own notes come first. -/
def through (w : Wrapper) : Sight → List Sight
  | .noted note => [.noted note]
  | .given reply => (w.outward reply).1.map .noted ++ [.given (w.outward reply).2]
  | .ended (.returned result) =>
    (w.inward result).1.map .noted ++ [.ended (.returned (w.inward result).2)]
  | .ended ending => [.ended ending]

end Sight

namespace Sending

/-- The notes that are made with a choice. -/
def makes (s : Sending) : Choice → List Note
  | .task path => (s.step path).notes
  | .answer response => (s.resume response).notes

/-- What a choice lets be seen. -/
def sights (s : Sending) (choice : Choice) : List Sight :=
  (s.makes choice).map .noted ++ (s.gives choice).map .given ++ (s.ends? choice).toList.map .ended

/-- What is seen while a sending makes choices. -/
def sightsIn : Sending → List Choice → List Sight
  | _, [] => []
  | s, choice :: rest => s.sights choice ++ (s.after choice).sightsIn rest

section

variable (s : Sending) (choice : Choice) (choices : List Choice)

/-- Nothing is read off sights of another kind. -/
theorem filterMap_nothing {α β : Type} (list : List α) :
    list.filterMap (fun _ => (none : Option β)) = [] :=
  List.filterMap_eq_nil_iff.mpr fun _ _ => rfl

theorem filterMap_note?_sights : (s.sights choice).filterMap Sight.note? = s.makes choice := by
  simp only [sights, List.filterMap_append, List.filterMap_map, Function.comp_def, Sight.note?,
    filterMap_nothing, List.filterMap_some, List.append_nil]

theorem filterMap_reply?_sights : (s.sights choice).filterMap Sight.reply? = s.gives choice := by
  simp only [sights, List.filterMap_append, List.filterMap_map, Function.comp_def, Sight.reply?,
    filterMap_nothing, List.filterMap_some, List.nil_append, List.append_nil]

theorem filterMap_ending?_sights :
    (s.sights choice).filterMap Sight.ending? = (s.ends? choice).toList := by
  simp only [sights, List.filterMap_append, List.filterMap_map, Function.comp_def, Sight.ending?,
    filterMap_nothing, List.filterMap_some, List.nil_append]

theorem filterMap_ending?_sightsIn :
    (s.sightsIn choices).filterMap Sight.ending? = s.endsIn choices := by
  induction choices generalizing s with
  | nil => rfl
  | cons choice rest ih =>
    rw [sightsIn, endsIn, List.filterMap_append, filterMap_ending?_sights, ih]

end

end Sending

/-! ## The record of a run -/

namespace Run

section

variable (r : Run) (choices : List Choice)

theorem notes_choose (choice : Choice) :
    (r.choose choice).notes = r.notes ++ r.sending.makes choice := by
  cases choice <;> rfl

theorem notes_sightsIn :
    (r.choices choices).notes =
      r.notes ++ (r.sending.sightsIn choices).filterMap Sight.note? := by
  induction choices generalizing r with
  | nil => exact (List.append_nil _).symm
  | cons choice rest ih =>
    have hrest := ih (r.choose choice)
    rw [notes_choose, sending_choose] at hrest
    rw [Sending.sightsIn, List.filterMap_append, Sending.filterMap_note?_sights,
      ← List.append_assoc]
    exact hrest

theorem delivered_sightsIn :
    (r.choices choices).delivered =
      r.delivered ++ (r.sending.sightsIn choices).filterMap Sight.reply? := by
  induction choices generalizing r with
  | nil => exact (List.append_nil _).symm
  | cons choice rest ih =>
    have hrest := ih (r.choose choice)
    rw [delivered_choose, sending_choose] at hrest
    rw [Sending.sightsIn, List.filterMap_append, Sending.filterMap_reply?_sights,
      ← List.append_assoc]
    exact hrest

theorem ending_endsIn :
    (r.choices choices).ending = (r.ending <|> (r.sending.endsIn choices).head?) := by
  induction choices generalizing r with
  | nil => cases hending : r.ending <;> simp [choices, Sending.endsIn, hending]
  | cons choice rest ih =>
    have hrest := ih (r.choose choice)
    rw [ending_choose, sending_choose] at hrest
    have hstart : (r.choices (choice :: rest)).ending = ((r.choose choice).choices rest).ending :=
      rfl
    rw [hstart, hrest, Sending.endsIn]
    cases r.ending <;> cases r.sending.ends? choice <;> rfl

end

/-- **A record that sights show**: its notes and its responses are those that are seen, and its end
is the first one that is seen. -/
structure ShownBy (sights : List Sight) (r : Run) : Prop where
  notes_eq : r.notes = sights.filterMap Sight.note?
  delivered_eq : r.delivered = sights.filterMap Sight.reply?
  ending_eq : r.ending = (sights.filterMap Sight.ending?).head?

end Run

/-- **The record of a run** is what its sights show. -/
theorem Sending.showsRecord (s : Sending) (choices : List Choice) :
    ((Run.start s).choices choices).ShownBy (s.sightsIn choices) where
  notes_eq := Run.notes_sightsIn _ choices
  delivered_eq := Run.delivered_sightsIn _ choices
  ending_eq := by
    rw [Run.ending_endsIn, filterMap_ending?_sightsIn]
    rfl

/-! ## Wrappers -/

namespace Sending

section

variable (w : Wrapper) (s : Sending)

/-- **What a choice lets be seen of a wrapped sending.** -/
theorem sights_wrapped (choice : Choice) :
    (wrapped w s).sights choice = (s.sights choice).flatMap (Sight.through w) := by
  have hnotes (notes : List Note) :
      (notes.map Sight.noted).flatMap (Sight.through w) = notes.map .noted := by
    rw [List.flatMap_map, List.map_eq_flatMap]
    rfl
  cases choice with
  | answer response => simp [sights, makes, gives, ends?, resume, hnotes]
  | task path =>
    simp only [sights, makes, gives, ends?, step, wrappedTurn]
    cases (s.step path).signal <;>
      simp [Run.deliveredBy, Run.endingBy, hnotes, Sight.through]

/-- **A wrapper changes what is seen, one thing after the other.** -/
theorem sightsIn_wrapped (choices : List Choice) :
    (wrapped w s).sightsIn choices = (s.sightsIn choices).flatMap (Sight.through w) := by
  induction choices generalizing s with
  | nil => rfl
  | cons choice rest ih =>
    rw [sightsIn, sightsIn, sights_wrapped, after_wrapped, ih, List.flatMap_append]

theorem afterAll_wrapped (choices : List Choice) :
    (wrapped w s).afterAll choices = .wrapped w (s.afterAll choices) := by
  induction choices generalizing s with
  | nil => rfl
  | cons choice rest ih => rw [afterAll_cons, afterAll_cons, after_wrapped, ih]

end

end Sending

end Switchboard
