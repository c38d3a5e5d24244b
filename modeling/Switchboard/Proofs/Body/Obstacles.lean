import Switchboard.Proofs.Body.Content
set_option autoImplicit false

/-! # What keeps a reader from the end of a body

A body is read to its end unless one of its items fails or stalls, or it has no end
(`Body.obstacle?`). Without an obstacle, reading the content comes to all of the data; otherwise to
the error, or to nothing at all (`Body.value?_content`). Until then the script of the reading is a
rest of what it was (`Work.Rest`): it never panics, and it waits for nothing but the gates of the
body and for the clock (`Work.Passable`). -/

namespace Switchboard

/-! ## Obstacles -/

/-- What keeps the reader of a body from its end. -/
inductive Obstacle where
  | fails (error : BodyError)
  /-- Nothing follows any more, or there is no end. -/
  | stalls

/-- The obstacle that an item is. -/
def Item.obstacle? : Item → Option Obstacle
  | .frame _ => none
  | .fail e => some (.fails e)
  | .wait _ => none
  | .gate _ => none
  | .stall => some .stalls

/-- **The first obstacle in a body**, if there is one. -/
def Body.obstacle? : Body → Option Obstacle
  | .empty => none
  | .once _ => none
  | .stream feed =>
    (feed.items.findSome? Item.obstacle?).or (feed.endless.map fun _ => .stalls)

/-- What reading comes to with this obstacle, or with this value if there is none. -/
def Obstacle.outcome? {α : Type} (obstacle : Option Obstacle) (value : α) :
    Option (Except BodyError α) :=
  match obstacle with
  | none => some (.ok value)
  | some (.fails e) => some (.error e)
  | some .stalls => none

/-- The gates that a reader of a body has to pass. -/
def Body.gates : Body → List String
  | .empty => []
  | .once _ => []
  | .stream feed => feed.items.filterMap fun
    | .gate name => some name
    | _ => none

section

variable {α β : Type} {work rest : Work α}

theorem Work.value?_afterSleep (ms : Nat) : (Work.afterSleep ms work).value? = work.value? := by
  unfold Work.afterSleep
  split <;> rfl

theorem Work.value?_map (f : α → β) : (work.map f).value? = work.value?.map f := by
  induction work with
  | done value => rfl
  | panics message => rfl
  | stalled => rfl
  | note note next ih => exact ih
  | pause pause next ih => exact ih

/-- What reading the items of a feed comes to. -/
theorem Feed.value?_readItems (feed : Feed) (items : List Item) (seen : Bytes) :
    (feed.readItems Body.collect items seen).value? =
      Obstacle.outcome? ((items.findSome? Item.obstacle?).or (feed.endless.map fun _ => .stalls))
        (seen ++ items.flatMap Item.data) := by
  induction items generalizing seen with
  | nil =>
    cases hendless : feed.endless with
    | none => simp [readItems, hendless, Work.value?, Obstacle.outcome?]
    | some bytes => simp [readItems, hendless, Work.value?, Obstacle.outcome?]
  | cons item rest ih =>
    cases item with
    | frame frame =>
      cases frame with
      | data bytes =>
        have hrest := ih (seen ++ bytes)
        simpa [readItems, Work.value?, Body.collect, List.findSome?_cons, Item.obstacle?,
          Item.data] using hrest
      | trailers headers =>
        simpa [readItems, Work.value?, Body.collect, List.findSome?_cons, Item.obstacle?,
          Item.data] using ih seen
    | fail e => rfl
    | wait ms =>
      simpa [readItems, Work.value?_afterSleep, List.findSome?_cons, Item.obstacle?, Item.data]
        using ih seen
    | gate name =>
      simpa [readItems, Work.value?, List.findSome?_cons, Item.obstacle?, Item.data] using ih seen
    | stall => rfl

/-- **What reading the content of a body comes to**: all of its data, unless there is an
obstacle. -/
theorem Body.value?_content (body : Body) :
    body.content.value? = Obstacle.outcome? body.obstacle? body.data := by
  cases body with
  | empty => rfl
  | once bytes => rfl
  | stream feed => exact feed.value?_readItems feed.items []

/-! ## The rest of a script -/

/-- What is left of a script after some of its notes and pauses. -/
inductive Work.Rest {α : Type} : Work α → Work α → Prop where
  | refl (work : Work α) : Work.Rest work work
  | note (note : Note) {next rest : Work α} (h : Work.Rest next rest) :
    Work.Rest (.note note next) rest
  | pause (pause : Pause) {next rest : Work α} (h : Work.Rest next rest) :
    Work.Rest (.pause pause next) rest

theorem Work.Rest.trans {other : Work α} (h : work.Rest rest) (hother : rest.Rest other) :
    work.Rest other := by
  induction h with
  | refl work => exact hother
  | note note h ih => exact .note note (ih hother)
  | pause pause h ih => exact .pause pause (ih hother)

/-- The rest of a script comes to the same value. -/
theorem Work.Rest.value?_eq (h : work.Rest rest) : rest.value? = work.value? := by
  induction h with
  | refl work => rfl
  | note note h ih => exact ih
  | pause pause h ih => exact ih

theorem Work.Rest.length_le (h : work.Rest rest) : rest.length ≤ work.length := by
  induction h with
  | refl work => exact Nat.le_refl _
  | note note h ih => exact Nat.le_succ_of_le ih
  | pause pause h ih => exact Nat.le_succ_of_le ih

/-- With these gates open, a script is never held up by one, and it does not panic. -/
inductive Work.Passable {α : Type} (opened : List String) : Work α → Prop where
  | done (value : α) : Work.Passable opened (.done value)
  | stalled : Work.Passable opened .stalled
  | note (note : Note) {next : Work α} (h : Work.Passable opened next) :
    Work.Passable opened (.note note next)
  | pause (pause : Pause) {next : Work α} (hgate : ∀ name, pause = .gate name → name ∈ opened)
    (h : Work.Passable opened next) : Work.Passable opened (.pause pause next)

theorem Work.Passable.mono {opened more : List String} (h : work.Passable opened)
    (hmore : ∀ name ∈ opened, name ∈ more) : work.Passable more := by
  induction h with
  | done value => exact .done value
  | stalled => exact .stalled
  | note note h ih => exact .note note ih
  | pause pause hgate h ih =>
    exact .pause pause (fun name hname => hmore name (hgate name hname)) ih

theorem Work.Passable.of_rest {opened : List String} (h : work.Passable opened)
    (hrest : work.Rest rest) : rest.Passable opened := by
  induction hrest with
  | refl work => exact h
  | note note hrest ih =>
    cases h with
    | note _ h => exact ih h
  | pause pause hrest ih =>
    cases h with
    | pause _ _ h => exact ih h

theorem Work.Passable.map {opened : List String} (h : work.Passable opened) (f : α → β) :
    (work.map f).Passable opened := by
  induction h with
  | done value => exact .done (f value)
  | stalled => exact .stalled
  | note note h ih => exact .note note ih
  | pause pause hgate h ih => exact .pause pause hgate ih

theorem Feed.passable_readItems {opened : List String} (feed : Feed) (items : List Item)
    (seen : Bytes) (hgates : ∀ name, Item.gate name ∈ items → name ∈ opened) :
    (feed.readItems Body.collect items seen).Passable opened := by
  induction items generalizing seen with
  | nil =>
    rw [readItems]
    split
    · exact .stalled
    · exact .note _ (.done _)
  | cons item rest ih =>
    have hrest (seen : Bytes) := ih seen fun name hmem => hgates name (List.mem_cons_of_mem _ hmem)
    cases item with
    | frame frame =>
      cases frame with
      | data bytes => exact .note _ (hrest _)
      | trailers headers =>
        rw [readItems]
        split
        · exact .note _ (hrest _)
        · exact .note _ (hrest _)
    | fail e => exact .note _ (.done _)
    | wait ms =>
      rw [readItems, Work.afterSleep]
      split
      · exact hrest _
      · exact .pause _ (by simp) (hrest _)
    | gate name =>
      refine .pause _ ?_ (hrest _)
      rintro _ ⟨⟩
      exact hgates name List.mem_cons_self
    | stall => exact .stalled

/-- Reading a body waits for its gates and for the clock, and for nothing else. -/
theorem Body.passable_content (body : Body) : body.content.Passable body.gates := by
  cases body with
  | empty => exact .done _
  | once bytes => exact .done _
  | stream feed =>
    refine feed.passable_readItems feed.items [] fun name hmem => ?_
    simp only [gates, List.mem_filterMap]
    exact ⟨_, hmem, rfl⟩

/-! ## Polling -/

/-- **A poll** brings a script that does not panic to its value or to a rest of it. -/
theorem Work.Passable.poll_cases {gates : List String} (h : work.Passable gates)
    (opened : List String) :
    (∃ notes value, work.poll opened = (notes, .finished value) ∧ work.value? = some value) ∨
      ∃ notes rest, work.poll opened = (notes, .blocked rest) ∧ work.Rest rest := by
  induction h with
  | done value => exact .inl ⟨_, _, rfl, rfl⟩
  | stalled => exact .inr ⟨_, _, rfl, .refl _⟩
  | note note h ih =>
    obtain ⟨notes, value, hpoll, hvalue⟩ | ⟨notes, rest, hpoll, hrest⟩ := ih
    · exact .inl ⟨note :: notes, value, by simp [poll, hpoll], hvalue⟩
    · exact .inr ⟨note :: notes, rest, by simp [poll, hpoll], .note note hrest⟩
  | pause pause hgate h ih =>
    cases pause with
    | sleep ms => exact .inr ⟨_, _, rfl, .refl _⟩
    | shared key ms => exact .inr ⟨_, _, rfl, .refl _⟩
    | gate name =>
      by_cases hopened : opened.contains name
      · obtain ⟨notes, value, hpoll, hvalue⟩ | ⟨notes, rest, hpoll, hrest⟩ := ih
        · exact .inl ⟨notes, value, by rw [poll, if_pos hopened, hpoll], hvalue⟩
        · exact .inr ⟨notes, rest, by rw [poll, if_pos hopened, hpoll], .pause _ hrest⟩
      · exact .inr ⟨_, _, by rw [poll, if_neg hopened], .refl _⟩

/-- **A poll with all gates open** brings a script that comes to a value either there or to a pause
that only the clock ends. -/
theorem Work.Passable.poll_opened {opened : List String} {value : α} (h : work.Passable opened)
    (hvalue : work.value? = some value) :
    (∃ notes, work.poll opened = (notes, .finished value)) ∨
      ∃ notes pause next, work.poll opened = (notes, .blocked (.pause pause next)) ∧
        (∀ name, pause ≠ .gate name) ∧ work.Rest (.pause pause next) := by
  induction h with
  | done other =>
    cases hvalue
    exact .inl ⟨_, rfl⟩
  | stalled => cases hvalue
  | note note h ih =>
    obtain ⟨notes, hpoll⟩ | ⟨notes, pause, next, hpoll, hpause, hrest⟩ := ih hvalue
    · exact .inl ⟨note :: notes, by simp [poll, hpoll]⟩
    · exact .inr ⟨note :: notes, pause, next, by simp [poll, hpoll], hpause, .note note hrest⟩
  | pause pause hgate h ih =>
    cases pause with
    | sleep ms => exact .inr ⟨_, _, _, rfl, nofun, .refl _⟩
    | shared key ms => exact .inr ⟨_, _, _, rfl, nofun, .refl _⟩
    | gate name =>
      have hopened : opened.contains name := by simpa using hgate name rfl
      obtain ⟨notes, hpoll⟩ | ⟨notes, pause, next, hpoll, hpause, hrest⟩ := ih hvalue
      · exact .inl ⟨notes, by rw [poll, if_pos hopened, hpoll]⟩
      · exact .inr ⟨notes, pause, next, by rw [poll, if_pos hopened, hpoll], hpause,
          .pause _ hrest⟩

end

end Switchboard
