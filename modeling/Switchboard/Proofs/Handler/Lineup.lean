import Switchboard.Handler.Group
import Switchboard.Proofs.Delivery.Slots
set_option autoImplicit false

/-! # From a group to its broadcast

Nothing is known here of the backends of a group, of its policy or of the request: a backend may
panic when it is asked, and reading the request may fail or never end. Still a run of the group is
on its way to a broadcast that starts as it should, or it is a run of that broadcast, or it is over
(`Handler.group_attends`). -/

namespace Switchboard

open Contest (toldAfter tell? tellFirst)

/-! ## Scripts that may come to a broadcast -/

/-- **A sending that may come to a broadcast**: it makes notes and pauses first, and then it starts
a broadcast with this many slots, or it does nothing but end. -/
inductive Sending.Prepares (policy : Policy) (slots : Nat) : Sending → Prop where
  | stalled : Prepares policy slots .stalled
  | returns (result : Delivery) : Prepares policy slots (.returns result)
  | panics (message : String) : Prepares policy slots (.panics message)
  | note (note : Note) {next : Sending} (h : Prepares policy slots next) :
      Prepares policy slots (.note note next)
  | pause (pause : Pause) {next : Sending} (h : Prepares policy slots next) :
      Prepares policy slots (.pause pause next)
  | broadcast {c : Contest} {lanes : List Sending}
      (h : Underway policy (List.replicate slots none) [] none c lanes) :
      Prepares policy slots (.broadcast c lanes)

/-- **How far a run is** that may come to a broadcast, when its slots have reported this. -/
inductive Run.Attends (policy : Policy) (slots : Nat) (told : List (Option Report)) (r : Run) :
    Prop where
  | prepares (h : r.sending.Prepares policy slots) (htold : told = List.replicate slots none)
      (hdelivered : r.delivered = []) (hending : r.ending = none)
  | underway (h : r.IsUnderway policy told)
  | done (h : r.sending = .ended) (hdelivered : r.delivered = [])

namespace Sending

variable {policy : Policy} {slots : Nat}

theorem prepares_afterNotes (notes : List Note) {s : Sending} (h : Prepares policy slots s) :
    Prepares policy slots (afterNotes notes s) := by
  induction notes with
  | nil => exact h
  | cons note notes ih => exact .note note ih

theorem prepares_afterWork {α : Type} (work : Work α) {f : α → Sending}
    (h : ∀ value, Prepares policy slots (f value)) : Prepares policy slots (afterWork work f) := by
  induction work with
  | done value => exact h value
  | panics message => exact .panics message
  | stalled => exact .stalled
  | note note next ih => exact .note note ih
  | pause pause next ih => exact .pause pause ih

end Sending

section

variable {policy : Policy} {slots : Nat} {told : List (Option Report)} {r : Run}

/-- Before the broadcast a choice makes a note or a pause, or ends the run. -/
theorem Run.Attends.prepare (hprepares : r.sending.Prepares policy slots)
    (hdelivered : r.delivered = []) (hending : r.ending = none) (choice : Choice) :
    (r.choose choice).Attends policy slots
      (tell? (List.replicate slots none) (r.sending.slotReport? choice)) := by
  obtain ⟨sending, notes, delivered, ending⟩ := r
  dsimp only at hprepares hdelivered hending
  subst hdelivered hending
  -- A task that does not exist does nothing, and an answer finds nobody who waits for it.
  have hstay : ∀ {s : Sending} {more : List Note}, s.Prepares policy slots →
      Run.Attends policy slots (List.replicate slots none) ⟨s, more, [], none⟩ :=
    fun h => .prepares h rfl rfl rfl
  cases hprepares with
  | broadcast h => exact .underway (Run.IsUnderway.choose ⟨_, _, rfl, h⟩ choice)
  | stalled =>
    rcases choice with (_ | ⟨index, path⟩) | response <;> exact hstay .stalled
  | returns result =>
    rcases choice with (_ | ⟨index, path⟩) | response
    · exact .done rfl rfl
    · exact hstay (.returns result)
    · exact hstay (.returns result)
  | panics message =>
    rcases choice with (_ | ⟨index, path⟩) | response
    · exact .done rfl rfl
    · exact hstay (.panics message)
    · exact hstay (.panics message)
  | note note h =>
    rcases choice with (_ | ⟨index, path⟩) | response
    · exact hstay h
    · exact hstay (.note note h)
    · exact hstay (.note note h)
  | pause pause h =>
    rcases choice with (_ | ⟨index, path⟩) | response
    · exact hstay h
    · exact hstay (.pause pause h)
    · exact hstay (.pause pause h)

/-- **Each choice keeps it.** -/
theorem Run.Attends.choose (h : r.Attends policy slots told) (choice : Choice) :
    (r.choose choice).Attends policy slots (tell? told (r.sending.slotReport? choice)) := by
  cases h with
  | prepares hprepares htold hdelivered hending =>
    rw [htold]
    exact Run.Attends.prepare hprepares hdelivered hending choice
  | underway hunderway => exact .underway (hunderway.choose choice)
  | done hended hdelivered =>
    refine .done ?_ ?_
    · rw [Run.sending_choose, hended]
      rcases choice with (_ | ⟨index, path⟩) | response <;> rfl
    · rw [Run.delivered_choose, hended, hdelivered]
      rcases choice with (_ | ⟨index, path⟩) | response <;> rfl

/-- **Each run keeps it**, whatever its choices. -/
theorem Run.Attends.choices (h : r.Attends policy slots told) (list : List Choice) :
    (r.choices list).Attends policy slots
      ((Sending.reportsIn r.sending list).foldl tellFirst told) := by
  -- On the choices, with what was told so far.
  induction list generalizing r told with
  | nil => exact h
  | cons choice rest ih =>
    rw [Sending.foldl_reportsIn_cons, ← Run.sending_choose]
    exact ih (h.choose choice)

end

/-! ## Groups -/

namespace Handler

/-- Each backend that was asked has a lane, and all were asked unless one of them panicked. -/
theorem length_lanes_respondAll (backends : List Handler) (head : RequestHead) (body : Body) :
    (respondAll backends head body).lanes.length ≤ backends.length ∧
      ((respondAll backends head body).panic = none →
        (respondAll backends head body).lanes.length = backends.length) := by
  induction backends with
  | nil =>
    rw [respondAll]
    exact ⟨Nat.le_refl 0, fun _ => rfl⟩
  | cons backend rest ih =>
    rw [respondAll, Lineup.cons]
    cases (backend.respond head body).sending with
    | error message => exact ⟨Nat.zero_le _, nofun⟩
    | ok s => exact ⟨Nat.succ_le_succ ih.1, fun h => congrArg (· + 1) (ih.2 h)⟩

/-- A race can be held over the backends of a group that has some. -/
theorem ofSlots?_length {backends : List Handler} (h : backends ≠ []) :
    ∃ race, Race.ofSlots? backends.length = .ok race :=
  ⟨_, if_neg fun hzero => h (List.length_eq_zero_iff.mp hzero)⟩

/-- The broadcast of a lineup is as it should be when it begins, whether a backend has panicked or
not. -/
theorem underway_lineup {backends : List Handler} (policy : Policy) {race : Race}
    (hrace : Race.ofSlots? backends.length = .ok race) (head : RequestHead) (body : Body) :
    Underway policy (List.replicate backends.length none) [] none
      (.start policy race (respondAll backends head body).lanes.length
        (respondAll backends head body).panic)
      (respondAll backends head body).lanes := by
  obtain ⟨hle, hfull⟩ := length_lanes_respondAll backends head body
  refine ⟨Contest.holds_start policy hle hrace _, ⟨fun index hphase => ?_, nofun⟩, ?_, ?_, rfl⟩
  · by_cases hlt : index < (respondAll backends head body).lanes.length
    · simp [Contest.start, Contest.phaseOf, hlt] at hphase
    · simp [Contest.start, Contest.phaseOf, hlt] at hphase
  · refine .spawning fun hpanic => ?_
    rw [Contest.start, List.length_replicate, List.length_replicate, hfull hpanic]
  · rw [Contest.start, List.length_replicate]

/-- **A group that broadcasts** prepares a race with a slot for each of its backends. -/
theorem prepares_group {backends : List Handler} (hbackends : backends ≠ []) (primary : Nat)
    (policy : Policy) {head : RequestHead} (hmethod : head.method.goesToAll = true) (body : Body) :
    ∃ s, (Handler.group backends primary policy).respond head body = .quiet s ∧
      s.Prepares policy backends.length := by
  have hempty : backends.isEmpty = false := by
    cases backends with
    | nil => exact absurd rfl hbackends
    | cons backend rest => rfl
  refine ⟨_, by rw [respond, hempty, if_neg Bool.false_ne_true, if_pos hmethod], ?_⟩
  refine Sending.prepares_afterWork _ fun value => ?_
  cases value with
  | error e => exact .returns _
  | ok content =>
    refine .note _ (Sending.prepares_afterNotes _ ?_)
    obtain ⟨race, hrace⟩ := ofSlots?_length hbackends
    rw [hrace]
    exact .broadcast (underway_lineup policy hrace _ _)

/-- **Each run of a group that broadcasts** is on its way to the broadcast, or a run of it, or over,
whatever its backends, its policy, the request and the connection do. -/
theorem group_attends {backends : List Handler} (hbackends : backends ≠ []) (primary : Nat)
    (policy : Policy) {head : RequestHead} (hmethod : head.method.goesToAll = true) (body : Body) :
    ∃ s, (Handler.group backends primary policy).respond head body = .quiet s ∧
      ∀ choices : List Choice, ((Run.start s).choices choices).Attends policy backends.length
        (toldAfter backends.length (s.reportsIn choices)) := by
  obtain ⟨s, hrespond, hprepares⟩ := prepares_group hbackends primary policy hmethod body
  refine ⟨s, hrespond, fun choices => ?_⟩
  have hstart : (Run.start s).Attends policy backends.length
      (List.replicate backends.length none) :=
    .prepares hprepares rfl rfl rfl
  exact hstart.choices choices

end Handler

end Switchboard
