import Switchboard.Proofs.Body.Skimming
set_option autoImplicit false

/-! # Reading a body poll by poll

A producer plays a list of answers if it gives them one after the other and then ends (`Plays`).
`ReadsTo` says how far such a list is read by whoever stops at the first error, and what the data is
up to there. Reading a body to its end is nothing but polling it time after time
(`Body.Noted.read_eq`), so what it comes to can be told from the list that the body plays
(`ReadsTo.read`, `Body.Noted.read_gather`). -/

namespace Switchboard

/-! ## Playing -/

/-- Asked time after time, a producer gives these answers one after the other, and then the last
one. -/
def Plays {σ α : Type} (poll : σ → α × σ) (last : α) : σ → List α → Prop
  | producer, [] => (poll producer).1 = last
  | producer, answer :: rest =>
    (poll producer).1 = answer ∧ Plays poll last (poll producer).2 rest

/-- Where each answer corresponds to one of another producer, what is played does, too. -/
theorem Plays.map {σ τ α β : Type} {poll : σ → α × σ} {poll' : τ → β × τ} {last : α}
    {producer : σ} {other : τ} {answers : List α} (f : α → β) (Related : σ → τ → Prop)
    (hpoll : ∀ one other, Related one other →
      (poll' other).1 = f (poll one).1 ∧ Related (poll one).2 (poll' other).2)
    (hrelated : Related producer other) (h : Plays poll last producer answers) :
    Plays poll' (f last) other (answers.map f) := by
  induction answers generalizing producer other with
  | nil => exact (hpoll producer other hrelated).1.trans (congrArg f h)
  | cons answer rest ih =>
    obtain ⟨hanswer, hnext⟩ := hpoll producer other hrelated
    exact ⟨hanswer.trans (congrArg f h.1), ih hnext h.2⟩

/-- Only the first poll tells one state of a producer from another. -/
theorem Plays.congr {σ α : Type} {poll : σ → α × σ} {last : α} {producer other : σ}
    {answers : List α} (hpoll : poll other = poll producer) (h : Plays poll last producer answers) :
    Plays poll last other answers := by
  cases answers with
  | nil => exact (congrArg Prod.fst hpoll).trans h
  | cons answer rest =>
    refine ⟨(congrArg Prod.fst hpoll).trans h.1, ?_⟩
    rw [hpoll]
    exact h.2

namespace Received

/-- The poll that gives a frame or an error. -/
def polled : Received → Polled
  | .data bytes => .frame (.data bytes)
  | .trailers headers => .frame (.trailers headers)
  | .error e => .failed e

/-- Whether it is a frame, and not an error. -/
def IsFrame : Received → Prop
  | .data _ => True
  | .trailers _ => True
  | .error _ => False

/-- The bytes that it adds to the content. -/
def content : Received → Bytes
  | .data bytes => bytes
  | .trailers _ => []
  | .error _ => []

/-- The chunk that it is; trailers are none. -/
def chunk? : Received → Option Body.Chunk
  | .data bytes => some (.ok bytes)
  | .trailers _ => none
  | .error e => some (.error e)

theorem isFrame_polled {item : Received} : item.polled.IsFrame ↔ item.IsFrame := by
  cases item <;> exact Iff.rfl

theorem size_polled (item : Received) : item.polled.size = item.content.length := by
  cases item <;> rfl

end Received

/-- What a reader is given with a poll, if the body neither ends nor keeps it waiting. -/
def Polled.received? : Polled → Option Received
  | .frame (.data bytes) => some (.data bytes)
  | .frame (.trailers headers) => some (.trailers headers)
  | .failed e => some (.error e)
  | .pending => none
  | .ended => none

theorem Received.received?_polled (item : Received) : item.polled.received? = some item := by
  cases item <;> rfl

/-! ## Reading up to the first error -/

/-- **Reading up to the first error**, or to the end: how many polls that takes, what the data is,
and the error if there is one. -/
inductive ReadsTo : List Received → Nat → Bytes → Option BodyError → Prop where
  | whole (frames : List Received) (hframes : ∀ item ∈ frames, item.IsFrame) :
    ReadsTo frames (frames.length + 1) (frames.flatMap Received.content) none
  | fails (frames : List Received) (hframes : ∀ item ∈ frames, item.IsFrame) (e : BodyError)
    (unread : List Received) :
    ReadsTo (frames ++ .error e :: unread) (frames.length + 1) (frames.flatMap Received.content)
      (some e)

/-- The error, if there is one, and the value otherwise. -/
def outcome {α : Type} (failure : Option BodyError) (value : α) : Except BodyError α :=
  match failure with
  | none => .ok value
  | some e => .error e

namespace ReadsTo

section

variable {received : List Received} {polls : Nat} {data : Bytes} {failure : Option BodyError}

/-- A frame is read first, and then the rest. -/
theorem frame (item : Received) (hitem : item.IsFrame) (h : ReadsTo received polls data failure) :
    ReadsTo (item :: received) (polls + 1) (item.content ++ data) failure := by
  cases h with
  | whole frames hframes =>
    exact .whole (item :: received) (List.forall_mem_cons.mpr ⟨hitem, hframes⟩)
  | fails frames hframes e unread =>
    exact .fails (item :: frames) (List.forall_mem_cons.mpr ⟨hitem, hframes⟩) e unread

/-- What holds at the end and at an error, and is handed on from what follows a frame, holds of all
reading. -/
@[elab_as_elim]
theorem induction
    {motive : ∀ received polls data failure, ReadsTo received polls data failure → Prop}
    (ended : motive [] 1 [] none (.whole [] (List.forall_mem_nil _)))
    (fails : ∀ e unread,
      motive (.error e :: unread) 1 [] (some e) (.fails [] (List.forall_mem_nil _) e unread))
    (frame : ∀ item received polls data failure (hitem : item.IsFrame)
      (h : ReadsTo received polls data failure), motive received polls data failure h →
      motive (item :: received) (polls + 1) (item.content ++ data) failure (h.frame item hitem))
    (h : ReadsTo received polls data failure) : motive received polls data failure h := by
  cases h with
  | whole frames hframes =>
    induction received with
    | nil => exact ended
    | cons item rest ih =>
      obtain ⟨hitem, hrest⟩ := List.forall_mem_cons.mp hframes
      exact frame item rest _ _ none hitem (.whole rest hrest) (ih hrest)
  | fails frames hframes e unread =>
    induction frames with
    | nil => exact fails e unread
    | cons item rest ih =>
      obtain ⟨hitem, hrest⟩ := List.forall_mem_cons.mp hframes
      exact frame item _ _ _ (some e) hitem (.fails rest hrest e unread) (ih hrest)

end

/-- Every list is read to its end or to an error. -/
theorem exists_of_list (received : List Received) :
    ∃ polls data failure, ReadsTo received polls data failure := by
  induction received with
  | nil => exact ⟨_, _, _, .whole [] (List.forall_mem_nil _)⟩
  | cons item rest ih =>
    obtain ⟨polls, data, failure, h⟩ := ih
    cases item with
    | data bytes => exact ⟨_, _, _, h.frame (.data bytes) trivial⟩
    | trailers headers => exact ⟨_, _, _, h.frame (.trailers headers) trivial⟩
    | error e => exact ⟨_, _, _, .fails [] (List.forall_mem_nil _) e rest⟩

end ReadsTo

/-! ## Reading to the end -/

namespace Feed

/-- A poll passes over the item, and so does reading; both make the same notes at it. -/
structure Passes (opened : List String) (feed : Feed) (item : Item) (rest : List Item)
    (extra : List Note) : Prop where
  polls : feed.pollItems opened (item :: rest) =
    (extra ++ (feed.pollItems opened rest).1, (feed.pollItems opened rest).2)
  reads : ∀ {σ ε : Type} (visit : σ → Received → Except ε σ) (state : σ),
    (feed.readItems visit (item :: rest) state).poll opened =
      (extra ++ ((feed.readItems visit rest state).poll opened).1,
        ((feed.readItems visit rest state).poll opened).2)

/-- A poll gives the item as it is received, and reading visits it; both make the same note. -/
structure Gives (opened : List String) (feed : Feed) (item : Item) (rest : List Item) (note : Note)
    (received : Received) : Prop where
  polls : feed.pollItems opened (item :: rest) = ([note], received.polled, rest)
  reads : ∀ {σ ε : Type} (visit : σ → Received → Except ε σ) (state : σ),
    feed.readItems visit (item :: rest) state =
      .note note
        (match visit state received with
        | .ok state => feed.readItems visit rest state
        | .error e => .done (.error e))

/-- **Polling and reading take each item alike**, unless it keeps them waiting. -/
theorem passes_or_gives (opened : List String) (feed : Feed) (item : Item) (rest : List Item) :
    (∃ extra, feed.Passes opened item rest extra) ∨
    (∃ note received, feed.Gives opened item rest note received) ∨
    (feed.pollItems opened (item :: rest)).2.1 = .pending := by
  cases item with
  | frame frame =>
    cases frame with
    | data bytes => exact .inr (.inl ⟨_, .data bytes, rfl, fun _ _ => rfl⟩)
    | trailers headers =>
      cases hdata : feed.dataOnly with
      | true =>
        refine .inl ⟨[.produced feed.label 0], ?_, fun visit state => ?_⟩
        · simp only [pollItems, hdata, if_true, List.cons_append, List.nil_append]
        · simp only [readItems, hdata, if_true, Work.poll, List.cons_append, List.nil_append]
      | false =>
        refine .inr (.inl ⟨.produced feed.label 0, .trailers headers, ?_, fun visit state => ?_⟩)
        · simp only [pollItems, hdata, Bool.false_eq_true, if_false, Received.polled]
        · exact congrArg (Work.note _) (if_neg (by rw [hdata]; exact Bool.false_ne_true))
  | fail error => exact .inr (.inl ⟨_, .error error, rfl, fun _ _ => rfl⟩)
  | wait ms =>
    by_cases hms : ms = 0
    · refine .inl ⟨[], ?_, fun visit state => ?_⟩
      · simp only [pollItems, hms, if_true, List.nil_append]
      · simp only [readItems, Work.afterSleep, hms, if_true, List.nil_append]
    · refine .inr (.inr ?_)
      simp only [pollItems, hms, if_false]
  | gate name =>
    by_cases hopened : opened.contains name
    · refine .inl ⟨[], ?_, fun visit state => ?_⟩
      · simp only [pollItems, hopened, if_true, List.nil_append]
      · simp only [readItems, Work.poll, hopened, if_true, List.nil_append]
    · refine .inr (.inr ?_)
      simp only [pollItems, hopened, Bool.false_eq_true, if_false]
  | stall => exact .inr (.inr rfl)

/-- What is read depends only on the items that are read, not on those the feed began with. -/
theorem readItems_items {σ ε : Type} {visit : σ → Received → Except ε σ} {state : σ}
    {feed : Feed} {items : List Item} (left : List Item) :
    ({ feed with items := left }).readItems visit items state =
      feed.readItems visit items state := by
  induction items generalizing state with
  | nil => rfl
  | cons item rest ih =>
    cases item with
    | frame frame => cases frame <;> simp only [readItems, ih]
    | fail error => simp only [readItems, ih]
    | wait ms => simp only [readItems, ih]
    | gate name => simp only [readItems, ih]
    | stall => rfl

end Feed

namespace Body

/-- What a body gives for ever, instead of an end. -/
def endless : Body → Option Bytes
  | .empty => none
  | .once _ => none
  | .stream feed => feed.endless

section

variable {σ ε : Type} {opened : List String} {visit : σ → Received → Except ε σ} {state : σ}
  {n : Noted}

/-- What reading on comes to, with the notes from the first one on. -/
def Noted.read (opened : List String) (visit : σ → Received → Except ε σ) (state : σ) (n : Noted) :
    List Note × Work.Progress (Except ε σ) :=
  match (n.body.read visit state).poll opened with
  | (notes, progress) => (n.notes ++ notes, progress)

/-- How reading goes on after a poll. -/
def Noted.readOn (opened : List String) (visit : σ → Received → Except ε σ) (state : σ) :
    Polled × Noted → List Note × Work.Progress (Except ε σ)
  | (polled, rest) =>
    match polled.received? with
    | none => (rest.notes, .finished (.ok state))
    | some item =>
      match visit state item with
      | .ok state => rest.read opened visit state
      | .error e => (rest.notes, .finished (.error e))

theorem Noted.poll_stream (feed : Feed) (items : List Item) (latest : List Note) :
    Noted.poll opened ⟨latest, .stream { feed with items := items }⟩ =
      ((feed.pollItems opened items).2.1, ⟨(feed.pollItems opened items).1.reverse ++ latest,
        .stream { feed with items := (feed.pollItems opened items).2.2 }⟩) := by
  rw [poll, Body.poll, Feed.pollItems_items]

theorem Noted.read_stream (feed : Feed) (items : List Item) (latest : List Note) :
    Noted.read opened visit state ⟨latest, .stream { feed with items := items }⟩ =
      (latest.reverse ++ ((feed.readItems visit items state).poll opened).1,
        ((feed.readItems visit items state).poll opened).2) := by
  rw [read, Body.read, Feed.readItems_items]
  rfl

/-- Reading the items of a feed is polling them, time after time. -/
theorem Noted.read_stream_eq {feed : Feed} {items : List Item} {latest : List Note}
    (hends : feed.endless = none) (hready : (feed.pollItems opened items).2.1 ≠ .pending) :
    Noted.read opened visit state ⟨latest, .stream { feed with items := items }⟩ =
      readOn opened visit state
        (Noted.poll opened ⟨latest, .stream { feed with items := items }⟩) := by
  induction items generalizing latest with
  | nil =>
    rw [read_stream, poll_stream, Feed.pollItems, Feed.readItems, hends]
    exact congrArg (·, _) (List.reverse_cons).symm
  | cons item rest ih =>
    obtain ⟨extra, hpasses⟩ | ⟨note, received, hgives⟩ | hpending :=
      Feed.passes_or_gives opened feed item rest
    · -- what is passed over goes to the notes before those of the rest
      rw [hpasses.polls] at hready
      have hrest := @ih (extra.reverse ++ latest) hready
      rw [read_stream, poll_stream] at hrest ⊢
      rw [hpasses.reads, hpasses.polls]
      simpa only [List.reverse_append, List.reverse_reverse, List.append_assoc] using hrest
    · rw [read_stream, poll_stream, hgives.reads, hgives.polls, readOn, received.received?_polled]
      cases hvisit : visit state received with
      | error e =>
        simp only [hvisit, Work.poll, notes, List.reverse_cons, List.reverse_nil, List.nil_append,
          List.singleton_append]
      | ok state =>
        simp only [hvisit, Work.poll, read_stream, List.reverse_cons, List.reverse_nil,
          List.nil_append, List.singleton_append, List.append_assoc]
    · exact absurd hpending hready

/-- **Reading is polling time after time**, as long as the body is neither pending nor endless. -/
theorem Noted.read_eq (hends : n.body.endless = none) (hready : (n.poll opened).1 ≠ .pending) :
    n.read opened visit state = Noted.readOn opened visit state (n.poll opened) := by
  obtain ⟨latest, body⟩ := n
  cases body with
  | empty =>
    show (_ ++ [], _) = _
    rw [List.append_nil]
    rfl
  | once bytes =>
    show (_ ++ [], _) = match visit state (.data bytes) with | .ok _ => _ | .error _ => _
    rw [List.append_nil]
    cases visit state (.data bytes) with
    | error e => rfl
    | ok state => exact congrArg (·, _) (List.append_nil _).symm
  | stream feed => exact read_stream_eq hends hready

/-- Reading is over at the end. -/
theorem Noted.read_of_ended (hends : n.body.endless = none) (h : (n.poll opened).1 = .ended) :
    n.read opened visit state = ((n.poll opened).2.notes, .finished (.ok state)) := by
  rw [read_eq hends (by rw [h]; nofun), readOn, h]
  rfl

/-- It goes on after what the visitor accepts. -/
theorem Noted.read_of_accepted {item : Received} {next : σ} (hends : n.body.endless = none)
    (h : (n.poll opened).1 = item.polled) (hvisit : visit state item = .ok next) :
    n.read opened visit state = (n.poll opened).2.read opened visit next := by
  rw [read_eq hends (by rw [h]; cases item <;> nofun), readOn, h, item.received?_polled]
  simp only [hvisit]

/-- It is over when the visitor refuses. -/
theorem Noted.read_of_refused {item : Received} {e : ε} (hends : n.body.endless = none)
    (h : (n.poll opened).1 = item.polled) (hvisit : visit state item = .error e) :
    n.read opened visit state = ((n.poll opened).2.notes, .finished (.error e)) := by
  rw [read_eq hends (by rw [h]; cases item <;> nofun), readOn, h, item.received?_polled]
  simp only [hvisit]

end

end Body

/-! ## Bodies that end -/

/-- Only a feed that is not endless ends. -/
theorem Feed.endless_of_ended {opened : List String} {feed : Feed} {items : List Item}
    (h : (feed.pollItems opened items).2.1 = .ended) : feed.endless = none := by
  induction items with
  | nil =>
    cases hendless : feed.endless with
    | none => rfl
    | some bytes =>
      rw [pollItems, hendless] at h
      cases h
  | cons item rest ih =>
    obtain ⟨extra, hpasses⟩ | ⟨note, received, hgives⟩ | hpending :=
      passes_or_gives opened feed item rest
    · rw [hpasses.polls] at h
      exact ih h
    · rw [hgives.polls] at h
      cases received <;> cases h
    · rw [hpending] at h
      cases h

namespace Body

/-- A body gives these frames and errors one after the other, is never pending, and ends. -/
def Gives (opened : List String) (body : Body) (received : List Received) : Prop :=
  Plays (Noted.poll opened) .ended ⟨[], body⟩ (received.map Received.polled)

section

variable {opened : List String} {n : Noted}

/-- A body that comes to its end is not endless. -/
theorem endless_of_plays {answers : List Polled}
    (h : Plays (Noted.poll opened) .ended n answers) : n.body.endless = none := by
  induction answers generalizing n with
  | nil =>
    obtain ⟨latest, body⟩ := n
    cases body with
    | empty => rfl
    | once bytes => rfl
    | stream feed => exact Feed.endless_of_ended h
  | cons answer rest ih =>
    have hrest := ih h.2
    obtain ⟨latest, body⟩ := n
    cases body with
    | empty => rfl
    | once bytes => rfl
    | stream feed => exact hrest

/-! ## What the readers add up -/

/-- A visitor adds up the data, and stops at an error. -/
structure Sums {σ : Type} (visit : σ → Received → Except BodyError σ) (add : σ → Bytes → σ) :
    Prop where
  frame : ∀ (state : σ) (item : Received), item.IsFrame →
    visit state item = .ok (add state item.content)
  error : ∀ (state : σ) (e : BodyError), visit state (.error e) = .error e
  add_nil : ∀ state : σ, add state [] = state
  add_append : ∀ (state : σ) (one other : Bytes),
    add (add state one) other = add state (one ++ other)

theorem sums_collect : Sums collect (· ++ ·) where
  frame state item hitem := by
    cases item with
    | data bytes => rfl
    | trailers headers => exact congrArg Except.ok (List.append_nil state).symm
    | error e => exact hitem.elim
  error state e := rfl
  add_nil := List.append_nil
  add_append := List.append_assoc

/-- How the size of a body grows with each frame. -/
def tally (size : Nat) : Received → Except BodyError Nat
  | .data bytes => .ok (size + bytes.length)
  | .trailers _ => .ok size
  | .error e => .error e

theorem sums_tally : Sums tally (fun size bytes => size + bytes.length) where
  frame size item hitem := by
    cases item with
    | data bytes => rfl
    | trailers headers => rfl
    | error e => exact hitem.elim
  error size e := rfl
  add_nil size := rfl
  add_append size one other := by rw [List.length_append, Nat.add_assoc]

/-- How the chunks of a body are gathered. -/
def gather (seen : List Chunk) : Received → Except Empty (List Chunk)
  | .data bytes => .ok (seen ++ [.ok bytes])
  | .trailers _ => .ok seen
  | .error e => .ok (seen ++ [.error e])

end

end Body

namespace ReadsTo

/-- **Adding up the data** reads up to the first error. -/
theorem read {received : List Received} {polls : Nat} {data : Bytes} {failure : Option BodyError}
    {σ : Type} {visit : σ → Received → Except BodyError σ} {add : σ → Bytes → σ}
    {opened : List String} {n : Body.Noted}
    (h : ReadsTo received polls data failure) (hsums : Body.Sums visit add) (state : σ)
    (hplays : Plays (Body.Noted.poll opened) .ended n (received.map Received.polled)) :
    n.read opened visit state = ((Body.after (Body.Noted.poll opened) polls n).notes,
      .finished (outcome failure (add state data))) := by
  have hends := Body.endless_of_plays hplays
  induction h using ReadsTo.induction generalizing n state with
  | ended =>
    rw [Body.Noted.read_of_ended hends hplays, hsums.add_nil]
    rfl
  | fails e unread => exact Body.Noted.read_of_refused hends hplays.1 (hsums.error state e)
  | frame item received polls data failure hitem h ih =>
    obtain ⟨hpoll, hrest⟩ := hplays
    rw [Body.Noted.read_of_accepted hends hpoll (hsums.frame state item hitem),
      ih _ hrest (Body.endless_of_plays hrest), hsums.add_append]
    rfl

end ReadsTo

namespace Body

section

variable {opened : List String} {n : Noted}

/-- Gathering the chunks reads to the end. -/
theorem Noted.read_gather {received : List Received} {seen : List Chunk}
    (hplays : Plays (Noted.poll opened) .ended n (received.map Received.polled)) :
    n.read opened gather seen =
      ((after (Noted.poll opened) (received.length + 1) n).notes,
        .finished (.ok (seen ++ received.filterMap Received.chunk?))) := by
  have hends := endless_of_plays hplays
  induction received generalizing n seen with
  | nil =>
    rw [read_of_ended hends hplays, List.filterMap_nil, List.append_nil]
    rfl
  | cons item rest ih =>
    obtain ⟨hpoll, hrest⟩ := hplays
    have hitem : gather seen item = .ok (seen ++ item.chunk?.toList) := by
      cases item with
      | data bytes => rfl
      | trailers headers => exact congrArg Except.ok (List.append_nil seen).symm
      | error e => rfl
    rw [read_of_accepted hends hpoll hitem, ih hrest (endless_of_plays hrest), List.append_assoc]
    cases item <;> rfl

end

end Body

end Switchboard
