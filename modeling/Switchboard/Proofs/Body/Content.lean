import Switchboard.Body.Consume
set_option autoImplicit false

/-! # The content of a body

`Work.Yields` says that a piece of work comes to its end, and what it notes on the way. When reading
the content of a body does, the content is the data of all its frames (`Body.content_eq_data`). -/

namespace Switchboard

/-- A piece of work comes to its end with a value, whatever its pauses. -/
inductive Work.Yields {α : Type} : Work α → List Note → α → Prop where
  | done (value : α) : Work.Yields (.done value) [] value
  | note (note : Note) {next : Work α} {notes : List Note} {value : α}
      (h : Work.Yields next notes value) : Work.Yields (.note note next) (note :: notes) value
  | pause (pause : Pause) {next : Work α} {notes : List Note} {value : α}
      (h : Work.Yields next notes value) : Work.Yields (.pause pause next) notes value

/-- The value that a piece of work comes to, if it comes to its end. -/
def Work.value? {α : Type} : Work α → Option α
  | .done value => some value
  | .panics _ => none
  | .stalled => none
  | .note _ next => next.value?
  | .pause _ next => next.value?

theorem Work.yields_of_value? {α : Type} {work : Work α} {value : α}
    (h : work.value? = some value) : ∃ notes, work.Yields notes value := by
  induction work with
  | done other =>
    cases h
    exact ⟨[], .done value⟩
  | panics message => cases h
  | stalled => cases h
  | note note next ih =>
    obtain ⟨notes, hnext⟩ := ih h
    exact ⟨note :: notes, .note note hnext⟩
  | pause pause next ih =>
    obtain ⟨notes, hnext⟩ := ih h
    exact ⟨notes, .pause pause hnext⟩

/-- The bytes that an item of a feed adds to the content. -/
def Item.data : Item → Bytes
  | .frame (.data bytes) => bytes
  | .frame (.trailers _) => []
  | .fail _ => []
  | .wait _ => []
  | .gate _ => []
  | .stall => []

/-- The data of all frames of a body. -/
def Body.data : Body → Bytes
  | .empty => []
  | .once bytes => bytes
  | .stream feed => feed.items.flatMap Item.data

/-- How the content of a body grows with each frame. -/
def Body.collect (content : Bytes) : Received → Except BodyError Bytes
  | .data bytes => .ok (content ++ bytes)
  | .trailers _ => .ok content
  | .error e => .error e

section

variable {notes : List Note} {content : Bytes}

theorem Work.Yields.of_afterSleep {α : Type} {ms : Nat} {work : Work α} {value : α}
    (h : (Work.afterSleep ms work).Yields notes value) : work.Yields notes value := by
  unfold Work.afterSleep at h
  split at h
  · exact h
  · cases h with
    | pause _ h => exact h

/-- What is read of a feed is added to what has been read before. -/
theorem Feed.content_eq_data {feed : Feed} {items : List Item} {seen : Bytes}
    (h : (feed.readItems Body.collect items seen).Yields notes (.ok content)) :
    content = seen ++ items.flatMap Item.data := by
  induction items generalizing seen notes with
  | nil =>
    rw [Feed.readItems] at h
    split at h
    · cases h
    · cases h with
      | note _ h =>
        cases h
        rw [List.flatMap_nil, List.append_nil]
  | cons item rest ih =>
    rw [List.flatMap_cons, ← List.append_assoc]
    cases item with
    | frame frame =>
      cases frame with
      | data bytes =>
        cases h with
        | note _ h => exact ih h
      | trailers headers =>
        rw [Feed.readItems] at h
        cases h with
        | note _ h =>
          rw [Item.data, List.append_nil]
          split at h
          · exact ih h
          · exact ih h
    | fail error =>
      cases h with
      | note _ h => cases h
    | wait ms =>
      rw [Item.data, List.append_nil]
      exact ih (Work.Yields.of_afterSleep h)
    | gate name =>
      rw [Item.data, List.append_nil]
      cases h with
      | pause _ h => exact ih h
    | stall => cases h

/-- **The content of a body** that is read to its end is the data of all its frames. -/
theorem Body.content_eq_data {body : Body} (h : body.content.Yields notes (.ok content)) :
    content = body.data := by
  cases body with
  | empty =>
    cases h
    rfl
  | once bytes =>
    cases h
    rfl
  | stream feed => exact Feed.content_eq_data h

end

/-- The content of a copy is what it was made of. -/
theorem Body.value?_ofBytes (content : Bytes) :
    (ofBytes content).content.value? = some (.ok content) := by
  unfold ofBytes
  split
  · next hempty =>
    rw [List.isEmpty_iff.mp hempty]
    rfl
  · rfl

end Switchboard
