import Switchboard.Proofs.Segment.Attendance
import Switchboard.Proofs.Segment.Informing
set_option autoImplicit false

/-! # Nobody sleeps over anything

Whoever is told to wait is woken when there is something for it, as long as the source wakes the
dispenser. What is kept between the answer and the moment when it is woken (`Dispenser.Sleeps`) is
that its waker is still there, and that nothing has come for it: the outer side waits for the holder
of the open segment or for the source, and that holder waits for the source. -/

namespace Switchboard

namespace Dispenser

/-! ## Waking -/

/-- How often a caller has been woken. -/
def wakesOf (d : Dispenser) (caller : Caller) : Nat := d.woken.count caller

theorem wakesOf_wakeOuter (d : Dispenser) (caller : Caller) :
    d.wakesOf caller ≤ d.wakeOuter.wakesOf caller := by
  unfold wakeOuter
  split
  · simp only [wakesOf, List.count_append]
    omega
  · exact Nat.le_refl _

theorem wakesOf_wakeInner (d : Dispenser) (caller : Caller) :
    d.wakesOf caller ≤ d.wakeInner.wakesOf caller := by
  unfold wakeInner
  split
  · simp only [wakesOf, List.count_append]
    omega
  · exact Nat.le_refl _

theorem innerWaiter_wakeOuter (d : Dispenser) : d.wakeOuter.innerWaiter = d.innerWaiter := by
  unfold wakeOuter
  split <;> rfl

theorem outerWaiter_wakeInner (d : Dispenser) : d.wakeInner.outerWaiter = d.outerWaiter := by
  unfold wakeInner
  split <;> rfl

theorem wakesOf_wakeOuter_of_waiting {d : Dispenser} (h : d.outerWaiter = some .outer) :
    d.wakesOf .outer < d.wakeOuter.wakesOf .outer := by
  simp [wakeOuter, h, wakesOf, Caller.returning]

theorem wakesOf_wakeInner_of_waiting {d : Dispenser} {handle : Nat}
    (h : d.innerWaiter = some (.inner handle)) :
    d.wakesOf (.inner handle) < d.wakeInner.wakesOf (.inner handle) := by
  simp [wakeInner, h, wakesOf, Caller.returning]

/-- The outer side sleeps. -/
structure OuterAsleep (d : Dispenser) : Prop where
  waiter_eq : d.outerWaiter = some .outer
  awaits : d.Awaits

/-- The holder of the open segment sleeps. -/
structure InnerAsleep (handle : Nat) (d : Dispenser) : Prop where
  waiter_eq : d.innerWaiter = some (.inner handle)
  queue_eq : d.queue = []
  failure_eq : d.failure = none
  parked : d.source.parked = true

/-- A caller that had been woken `n` times has been woken since, or it sleeps. -/
structure Sleeps (n : Nat) (caller : Caller) (asleep : Dispenser → Prop) (d : Dispenser) :
    Prop where
  le_wakesOf : n ≤ d.wakesOf caller
  asleep_of : d.wakesOf caller = n → asleep d

section

variable {n : Nat} {caller : Caller} {asleep : Dispenser → Prop} {d d' : Dispenser}

/-- Sleep goes on. -/
theorem Sleeps.goesOn (h : d.Sleeps n caller asleep) (hle : d.wakesOf caller ≤ d'.wakesOf caller)
    (hasleep : d'.wakesOf caller = d.wakesOf caller → asleep d → asleep d') :
    d'.Sleeps n caller asleep where
  le_wakesOf := Nat.le_trans h.le_wakesOf hle
  asleep_of := fun hn => by
    have hbefore : d.wakesOf caller = n := Nat.le_antisymm (hn ▸ hle) h.le_wakesOf
    exact hasleep (hn.trans hbefore.symm) (h.asleep_of hbefore)

/-- Sleep ends. -/
theorem Sleeps.wakes (h : d.Sleeps n caller asleep) (hle : d.wakesOf caller ≤ d'.wakesOf caller)
    (hwakes : asleep d → d.wakesOf caller < d'.wakesOf caller) : d'.Sleeps n caller asleep :=
  h.goesOn hle fun hsame hasleep => absurd hsame (Nat.ne_of_gt (hwakes hasleep))

end

/-! ## What wakes nobody -/

/-- Nobody was woken, and whoever waits still does. -/
structure Undisturbed (d d' : Dispenser) : Prop where
  outerWaiter_eq : d'.outerWaiter = d.outerWaiter
  innerWaiter_eq : d'.innerWaiter = d.innerWaiter
  woken_eq : d'.woken = d.woken

theorem Undisturbed.wakesOf_eq {d d' : Dispenser} (h : d.Undisturbed d') (caller : Caller) :
    d'.wakesOf caller = d.wakesOf caller := by
  rw [wakesOf, h.woken_eq, wakesOf]

theorem undisturbed_absorb (d : Dispenser) (item : Supply) : d.Undisturbed (d.absorb item) := by
  cases item <;> exact ⟨rfl, rfl, rfl⟩

theorem undisturbed_skipOrphan (d : Dispenser) : d.Undisturbed d.skipOrphan := by
  unfold skipOrphan
  split <;> exact ⟨rfl, rfl, rfl⟩

theorem undisturbed_skipped (d : Dispenser) : d.Undisturbed d.skipped := by
  unfold skipped
  split
  · exact d.undisturbed_skipOrphan
  · exact ⟨rfl, rfl, rfl⟩

theorem undisturbed_issue (d : Dispenser) : d.Undisturbed d.issue.1 := by
  unfold issue
  split <;> exact ⟨rfl, rfl, rfl⟩

/-- There is nothing to skip of an orphan. -/
theorem skipped_of_nil {d : Dispenser} (hqueue : d.queue = []) : d.skipped = d := by
  unfold skipped
  split
  · exact skipOrphan_nil hqueue
  · rfl

section

variable {delimiter : Bytes} {taken : List Supply} {past : List Entry} {d : Dispenser} {s : Segment}
  {n handle : Nat}

/-- A source that was asked to wake the dispenser wakes both sides. -/
theorem supply_of_parked (hparked : d.source.parked = true) (item : Supply) :
    ∃ filled, d.Undisturbed filled ∧ d.supply item = filled.wakeOuter.wakeInner := by
  refine ⟨{ d with source := ⟨d.source.queue ++ [item], d.source.polls, false⟩ }, ⟨rfl, rfl, rfl⟩,
    ?_⟩
  rw [supply, if_pos hparked]

theorem supply_of_not_parked (hparked : d.source.parked = false) (item : Supply) :
    d.supply item = { d with source := { d.source with queue := d.source.queue ++ [item] } } := by
  rw [supply, if_neg (by simp [hparked])]

/-! ## The outer side sleeps -/

theorem Sleeps.wakeOuter (h : d.Sleeps n .outer OuterAsleep) {left : Dispenser}
    (hsame : d.Undisturbed left) : left.wakeOuter.Sleeps n .outer OuterAsleep := by
  have hcount := hsame.wakesOf_eq .outer
  refine h.wakes (hcount ▸ left.wakesOf_wakeOuter .outer) fun hasleep => ?_
  rw [← hcount]
  exact wakesOf_wakeOuter_of_waiting (hsame.outerWaiter_eq.trans hasleep.waiter_eq)

/-- The source keeps what is left there. -/
theorem Sleeps.leaving_outer (h : d.Sleeps n .outer OuterAsleep) (items : List Supply) :
    (d.leaving items).Sleeps n .outer OuterAsleep :=
  h.goesOn (Nat.le_refl _) fun _ hasleep =>
    ⟨hasleep.waiter_eq, hasleep.awaits.failure_eq, hasleep.awaits.opened, hasleep.awaits.orphan⟩

theorem Sleeps.pollSegment_outer (h : d.Sleeps n .outer OuterAsleep)
    (htracks : d.Tracks delimiter taken past) (hs : d.Stands s) (hopen : s.done = false)
    (caller : Caller) : (d.pollSegment caller s).1.Sleeps n .outer OuterAsleep := by
  refine (htracks.pollSegment_keeps (I := fun _ d => d.Sleeps n .outer OuterAsleep)
    (Q := fun _ d _ => d.Sleeps n .outer OuterAsleep) hs hopen caller ?_ ?_ ?_ ?_).1
  · exact h.goesOn (Nat.le_refl _) fun _ hasleep =>
      ⟨hasleep.waiter_eq, hasleep.awaits.failure_eq, hasleep.awaits.opened, hasleep.awaits.orphan⟩
  · rintro taken past d item - - h
    exact h.wakeOuter (d.undisturbed_absorb item)
  · rintro taken past d d' answer items - hheld h hturn
    cases hturn with
    | chunk hqueue =>
      refine h.goesOn (Nat.le_refl _) fun _ hasleep => ⟨hasleep.waiter_eq,
        hasleep.awaits.failure_eq, hasleep.awaits.opened, fun horphaned => ?_⟩
      exact nomatch hheld.orphaned_eq.symm.trans horphaned
    | @closes rest hqueue =>
      have hsame : d.Undisturbed { d with queue := rest, ended := d.ended + 1 } := ⟨rfl, rfl, rfl⟩
      have hwoken := h.wakeOuter hsame
      exact hwoken.leaving_outer items
    | fails hqueue hfailure => exact Sleeps.leaving_outer (h.wakeOuter ⟨rfl, rfl, rfl⟩) items
    | stops hqueue hfailure hconnected => exact h.leaving_outer items
  · rintro taken past d - hready hheld h
    refine h.goesOn (Nat.le_refl _) fun _ hasleep => ⟨hasleep.waiter_eq,
      hasleep.awaits.failure_eq, hasleep.awaits.opened, fun _ => ⟨hready.queue_eq, rfl⟩⟩

theorem Sleeps.dropSegment_outer (h : d.Sleeps n .outer OuterAsleep) (s : Segment) :
    (d.dropSegment s).Sleeps n .outer OuterAsleep := by
  unfold dropSegment
  split
  · exact h
  · refine h.wakeOuter ?_
    split
    · have hskip := undisturbed_skipOrphan { d with orphaned := true }
      exact ⟨hskip.outerWaiter_eq, hskip.innerWaiter_eq, hskip.woken_eq⟩
    · exact ⟨rfl, rfl, rfl⟩

theorem Sleeps.givesUp_outer {d' : Dispenser} {asks : List Ask} {service : Service}
    (h : d.Sleeps n .outer OuterAsleep) (hgives : d.GivesUp s asks d' service)
    (htracks : d.Tracks delimiter taken past) (hs : d.Stands s) :
    d'.Sleeps n .outer OuterAsleep := by
  obtain ⟨answers, left, s', hpolls, -, -, rfl⟩ := hgives
  refine Sleeps.dropSegment_outer ?_ s'
  induction hpolls generalizing taken past with
  | refl d s => exact h
  | @poll d d₁ d' s s₁ s' answer asks answers hpoll hrest ih =>
    cases hdone : s.done with
    | true =>
      rw [pollSegment_of_done hdone] at hpoll
      cases hpoll
      exact ih h htracks hs
    | false =>
      have hnext := h.pollSegment_outer htracks hs hdone .nobody
      obtain ⟨taken₁, past₁, htakes, -⟩ := htracks.pollSegment hs .nobody
      rw [hpoll] at hnext htakes
      exact ih hnext htakes.tracks htakes.stands

theorem Sleeps.supply_outer (h : d.Sleeps n .outer OuterAsleep) (item : Supply) :
    (d.supply item).Sleeps n .outer OuterAsleep := by
  cases hparked : d.source.parked with
  | true =>
    obtain ⟨filled, hsame, hsupply⟩ := supply_of_parked hparked item
    have hinner := filled.wakeOuter.wakesOf_wakeInner .outer
    rw [hsupply]
    refine h.wakes ?_ fun hasleep => ?_ <;> rw [← hsame.wakesOf_eq]
    · exact Nat.le_trans (filled.wakesOf_wakeOuter .outer) hinner
    · exact Nat.lt_of_lt_of_le
        (wakesOf_wakeOuter_of_waiting (hsame.outerWaiter_eq.trans hasleep.waiter_eq)) hinner
  | false =>
    rw [supply_of_not_parked hparked]
    refine h.goesOn (Nat.le_refl _) fun _ hasleep => ⟨hasleep.waiter_eq,
      hasleep.awaits.failure_eq, hasleep.awaits.opened, fun horphaned => ?_⟩
    exact nomatch hparked.symm.trans (hasleep.awaits.orphan horphaned).2

/-! ## The holder of the open segment sleeps -/

theorem Sleeps.wakeInner (h : d.Sleeps n (.inner handle) (InnerAsleep handle)) {left : Dispenser}
    (hsame : d.Undisturbed left) :
    left.wakeInner.Sleeps n (.inner handle) (InnerAsleep handle) := by
  have hcount := hsame.wakesOf_eq (.inner handle)
  refine h.wakes (hcount ▸ left.wakesOf_wakeInner (.inner handle)) fun hasleep => ?_
  rw [← hcount]
  exact wakesOf_wakeInner_of_waiting (hsame.innerWaiter_eq.trans hasleep.waiter_eq)

theorem Sleeps.pollOuter_inner (h : d.Sleeps n (.inner handle) (InnerAsleep handle))
    (htracks : d.Tracks delimiter taken past) (caller : Caller) :
    (d.pollOuter caller).1.Sleeps n (.inner handle) (InnerAsleep handle) := by
  refine (htracks.pollOuter_keeps
    (I := fun _ d => d.Sleeps n (.inner handle) (InnerAsleep handle))
    (Q := fun _ d _ => d.Sleeps n (.inner handle) (InnerAsleep handle)) caller
    ?_ ?_ ?_ ?_ ?_).1
  · exact h.goesOn (Nat.le_refl _) fun _ hasleep =>
      ⟨hasleep.waiter_eq, hasleep.queue_eq, hasleep.failure_eq, hasleep.parked⟩
  · rintro taken d - h
    refine h.goesOn (Nat.le_of_eq (d.undisturbed_skipped.wakesOf_eq _).symm) fun _ hasleep => ?_
    rwa [skipped_of_nil hasleep.queue_eq]
  · rintro taken past d item - - h
    exact h.wakeInner (d.undisturbed_absorb item)
  · rintro taken past d d' answer items - h hturn
    have hskipped := d.undisturbed_skipped.wakesOf_eq (.inner handle)
    cases hturn with
    | knows hfailure htold =>
      exact h.goesOn (Nat.le_refl _) fun _ hasleep =>
        ⟨hasleep.waiter_eq, hasleep.queue_eq, hasleep.failure_eq, hasleep.parked⟩
    | learns hfailure htold =>
      exact h.goesOn (Nat.le_refl _) fun _ hasleep =>
        ⟨hasleep.waiter_eq, hasleep.queue_eq, hasleep.failure_eq, hasleep.parked⟩
    | issues hfailure hclosed =>
      have hissue := d.skipped.undisturbed_issue.wakesOf_eq (.inner handle)
      refine h.goesOn (Nat.le_of_eq (hissue.trans hskipped).symm) fun _ hasleep => ?_
      rw [skipped_of_nil hasleep.queue_eq]
      unfold issue
      split <;> exact ⟨hasleep.waiter_eq, hasleep.queue_eq, hasleep.failure_eq, hasleep.parked⟩
    | lets hfailure =>
      refine h.goesOn (Nat.le_of_eq hskipped.symm) fun _ hasleep => ?_
      rw [skipped_of_nil hasleep.queue_eq]
      exact ⟨hasleep.waiter_eq, hasleep.queue_eq, hasleep.failure_eq, hasleep.parked⟩
    | stops hfailure =>
      refine h.goesOn (Nat.le_of_eq hskipped.symm) fun _ hasleep => ?_
      rw [skipped_of_nil hasleep.queue_eq]
      exact ⟨hasleep.waiter_eq, hasleep.queue_eq, hasleep.failure_eq, hasleep.parked⟩
  · rintro taken past d - hready h
    exact h.goesOn (Nat.le_refl _) fun _ hasleep =>
      ⟨hasleep.waiter_eq, hasleep.queue_eq, hasleep.failure_eq, rfl⟩

theorem Sleeps.supply_inner (h : d.Sleeps n (.inner handle) (InnerAsleep handle))
    (item : Supply) : (d.supply item).Sleeps n (.inner handle) (InnerAsleep handle) := by
  cases hparked : d.source.parked with
  | true =>
    obtain ⟨filled, hsame, hsupply⟩ := supply_of_parked hparked item
    have houter := filled.wakesOf_wakeOuter (.inner handle)
    rw [hsupply]
    refine h.wakes ?_ fun hasleep => ?_ <;> rw [← hsame.wakesOf_eq]
    · exact Nat.le_trans houter (filled.wakeOuter.wakesOf_wakeInner (.inner handle))
    · refine Nat.lt_of_le_of_lt houter (wakesOf_wakeInner_of_waiting ?_)
      rw [innerWaiter_wakeOuter, hsame.innerWaiter_eq, hasleep.waiter_eq]
  | false =>
    rw [supply_of_not_parked hparked]
    exact h.goesOn (Nat.le_refl _) fun _ hasleep => nomatch hparked.symm.trans hasleep.parked

/-! ## Falling asleep -/

theorem outerWaiter_pollOuter (htracks : d.Tracks delimiter taken past) (caller : Caller) :
    (d.pollOuter caller).1.outerWaiter = some caller := by
  refine (htracks.pollOuter_keeps (I := fun _ d => d.outerWaiter = some caller)
    (Q := fun _ d _ => d.outerWaiter = some caller) caller rfl ?_ ?_ ?_ ?_).1
  · rintro taken d - h
    exact d.undisturbed_skipped.outerWaiter_eq.trans h
  · rintro taken past d item - - h
    rw [outerWaiter_wakeInner, (d.undisturbed_absorb item).outerWaiter_eq, h]
  · rintro taken past d d' answer items - h hturn
    have hskipped := d.undisturbed_skipped.outerWaiter_eq.trans h
    cases hturn with
    | knows => exact h
    | learns => exact h
    | issues => exact d.skipped.undisturbed_issue.outerWaiter_eq.trans hskipped
    | lets => exact hskipped
    | stops => exact hskipped
  · rintro taken past d - - h
    exact h

theorem innerWaiter_pollSegment (htracks : d.Tracks delimiter taken past) (hs : d.Stands s)
    (hopen : s.done = false) (caller : Caller) :
    (d.pollSegment caller s).1.innerWaiter = some caller := by
  refine (htracks.pollSegment_keeps (I := fun _ d => d.innerWaiter = some caller)
    (Q := fun _ d _ => d.innerWaiter = some caller) hs hopen caller rfl ?_ ?_ ?_).1
  · rintro taken past d item - - h
    rw [innerWaiter_wakeOuter, (d.undisturbed_absorb item).innerWaiter_eq, h]
  · rintro taken past d d' answer items - - h hturn
    cases hturn with
    | chunk => exact h
    | closes => exact (innerWaiter_wakeOuter _).trans h
    | fails => exact (innerWaiter_wakeOuter _).trans h
    | stops => exact h
  · rintro taken past d - - - h
    exact h

theorem Tracks.outerAsleep (htracks : d.Tracks delimiter taken past)
    (hpending : (d.pollOuter .outer).2 = .pending) : (d.pollOuter .outer).1.OuterAsleep :=
  ⟨outerWaiter_pollOuter htracks .outer, htracks.pollOuter_pending hpending⟩

theorem Tracks.innerAsleep (htracks : d.Tracks delimiter taken past) (hs : d.Stands s)
    (hopen : s.done = false) (hpending : (d.pollSegment (.inner handle) s).2.2 = .pending) :
    (d.pollSegment (.inner handle) s).1.InnerAsleep handle := by
  have hstarves := htracks.pollSegment_pending hs hpending
  exact ⟨innerWaiter_pollSegment htracks hs hopen (.inner handle), hstarves.queue_eq,
    hstarves.failure_eq, hstarves.parked⟩

/-! ## Asking again -/

/-- There is nothing for the outer side when the open segment and the source have nothing. -/
theorem Tracks.pollOuter_of_nothing (h : d.Tracks delimiter taken past)
    (hopen : d.issued = d.ended + 1) (hfailure : d.failure = none) (hqueue : d.queue = [])
    (hsource : d.source.queue = []) (caller : Caller) : (d.pollOuter caller).2 = .pending := by
  have hconnected := h.connected_of_open hfailure hopen hqueue
  have hskipped : skipped { d with outerWaiter := some caller } =
      { d with outerWaiter := some caller } := skipped_of_nil hqueue
  have hturn := outerTurns_outerTurn { d with outerWaiter := some caller }
  rw [Dispenser.pollOuter, hsource, Dispenser.outerLoop]
  generalize Dispenser.outerTurn { d with outerWaiter := some caller } = turn at hturn
  cases hturn with
  | knows hsome => cases hfailure.symm.trans hsome
  | learns hsome => cases hfailure.symm.trans hsome
  | issues _ hclosed =>
    rw [hskipped] at hclosed
    have hclosed : d.issued = d.ended := hclosed
    omega
  | lets => rfl
  | stops _ _ _ hdisconnected =>
    rw [hskipped] at hdisconnected
    cases hconnected.symm.trans hdisconnected
  | reads => rfl

/-- There is nothing for the holder of the open segment when the source has nothing. -/
theorem Tracks.pollSegment_of_nothing (h : d.Tracks delimiter taken past) (hs : d.Stands s)
    (hopen : s.done = false) (hfailure : d.failure = none) (hqueue : d.queue = [])
    (hsource : d.source.queue = []) (caller : Caller) :
    (d.pollSegment caller s).2.2 = .pending := by
  obtain ⟨hindex, hissued, -⟩ := hs.opened hopen
  have hconnected := h.connected_of_open hfailure hissued hqueue
  have hturn := innerTurns_innerTurn { d with innerWaiter := some caller }
  rw [pollSegment_of_held hindex hopen, hsource, Dispenser.innerLoop]
  generalize Dispenser.innerTurn { d with innerWaiter := some caller } = turn at hturn
  cases hturn with
  | chunk hsome => cases hqueue.symm.trans hsome
  | closes hsome => cases hqueue.symm.trans hsome
  | fails _ hsome => cases hfailure.symm.trans hsome
  | stops _ _ hdisconnected => cases hconnected.symm.trans hdisconnected
  | reads => rfl

/-- While somebody holds the open segment, the outer side is not given another one, and is not told
the end. -/
theorem Tracks.pollOuter_of_held (h : d.Tracks delimiter taken past) (hhalts : d.Halts)
    (hheld : d.Held) (hfailure : d.failure = none) (caller : Caller) :
    (d.pollOuter caller).2 = .pending ∨ ∃ error, (d.pollOuter caller).2 = .failed error := by
  obtain ⟨taken', past', -, hoffers⟩ := h.pollOuter caller
  obtain ⟨-, hhears⟩ := h.pollOuter_hears hhalts caller
  have hstep := hoffers.step
  have hopen := hheld.opened
  have hended : (d.pollOuter caller).1.ended = d.ended := by
    rcases hoffers.proceeds.orphan with ⟨hsame, -⟩ | ⟨horphaned, -⟩
    · exact hsame
    · exact nomatch hheld.orphaned_eq.symm.trans horphaned
  generalize d.pollOuter caller = result at *
  obtain ⟨d', answer⟩ := result
  simp only at hended hstep hhears ⊢
  cases hstep with
  | segment hissued hended' => omega
  | failed hissued => exact .inr ⟨_, rfl⟩
  | pending => exact .inl rfl
  | ended hissued hover =>
    cases hhears with
    | knows hsome htold => exact nomatch (hhalts.told_eq hfailure).symm.trans htold
    | nothing hnone =>
      rw [hnone] at hover
      have hclosed := (hover.resolve_left (by simp)).2
      omega

end

end Dispenser

/-! ## Runs -/

namespace Distribution

open Dispenser (Sleeps OuterAsleep InnerAsleep)

section

variable {delimiter : Bytes} {initial : List Supply} {history : History} {taken : List Supply}
  {past : List Entry} {d d' : Distribution} {demand : Demand} {asks : List Dispenser.Ask}
  {service : Service} {n handle : Nat}

/-- The step for the outer side: any demand but its own. -/
theorem Served.sleeps_outer (hserved : d.Served demand asks d' service)
    (haccords : d.Accords delimiter initial history taken past)
    (h : d.dispenser.Sleeps n .outer OuterAsleep) (hagain : demand = .next → service = .gone) :
    d'.dispenser.Sleeps n .outer OuterAsleep := by
  cases hserved with
  | supplies item => exact h.supply_outer item
  | leaves => exact h
  | offers => cases hagain rfl
  | @reads other s s' dispenser answer holding _ hs hpoll =>
    cases hdone : s.done with
    | true =>
      rw [Dispenser.pollSegment_of_done hdone] at hpoll
      cases hpoll
      exact h
    | false =>
      have hnext := h.pollSegment_outer haccords.tracks (haccords.held other s hs).2.1 hdone
        (.inner other)
      rwa [hpoll] at hnext
  | wraps => exact h
  | @releases _ other s _ dispenser _ hdemand hs hgives =>
    exact h.givesUp_outer hgives haccords.tracks (haccords.held other s hs).2.1
  | gone => exact h

/-- Whoever holds a segment under the handle that is unfinished has been woken, or sleeps. -/
structure Slumbers (n handle : Nat) (d : Distribution) : Prop where
  lt_length : handle < d.handles.length
  sleeps : ∀ s, (d.holding handle).segment? = some s → s.done = false →
    d.dispenser.Sleeps n (.inner handle) (InnerAsleep handle)

/-- The step for the holder of a segment: any demand but its own. Only one segment is unfinished, so
that nobody else reads it or gives it up. -/
theorem Served.slumbers (hserved : d.Served demand asks d' service)
    (haccords : d.Accords delimiter initial history taken past) (h : d.Slumbers n handle)
    (hagain : demand = .read handle → service = .gone) : d'.Slumbers n handle := by
  refine ⟨Nat.lt_of_lt_of_le h.lt_length hserved.length_handles_le, fun t ht hopen => ?_⟩
  cases hserved.holds haccords ht with
  | offered _ hhandle => exact absurd hhandle (Nat.ne_of_lt h.lt_length)
  | reads hdemand _ _ _ hservice =>
    rw [hagain hdemand] at hservice
    rcases hservice with hservice | hservice <;> cases hservice
  | still hs₀ hread =>
    have hsleeps := h.sleeps t hs₀ hopen
    cases hserved with
    | supplies item => exact hsleeps.supply_inner item
    | leaves => exact hsleeps
    | offers hheld hpoll =>
      have hnext := hsleeps.pollOuter_inner haccords.tracks .outer
      rwa [hpoll] at hnext
    | @reads other s s' dispenser answer holding _ hs hpoll hholding hservice =>
      have hne : handle ≠ other := by
        rintro rfl
        rw [(hread rfl).1] at hopen
        cases hopen
      rw [Dispenser.pollSegment_of_done (haccords.done_of_other hs hs₀ hne hopen)] at hpoll
      cases hpoll
      exact hsleeps
    | wraps => exact hsleeps
    | @releases _ other s _ dispenser _ hdemand hs hgives =>
      have hne : handle ≠ other := by
        rintro rfl
        rw [holding_update_self (lt_length_of_segment? hs)] at ht
        cases ht
      obtain rfl := hgives.of_done (haccords.done_of_other hs hs₀ hne hopen)
      exact hsleeps
    | gone => exact hsleeps

theorem Accords.sleeps_outer_run (haccords : d.Accords delimiter initial history taken past)
    (h : d.dispenser.Sleeps n .outer OuterAsleep) {demands : List Demand}
    (hagain : ∀ service, (.next, service) ∈ d.history demands → service = .gone) :
    (d.run demands).1.dispenser.Sleeps n .outer OuterAsleep := by
  induction demands generalizing d history taken past with
  | nil => exact h
  | cons demand rest ih =>
    obtain ⟨taken', past', haccords', -⟩ := haccords.serve demand
    refine ih haccords' ((d.served_serve demand).sleeps_outer haccords h ?_)
      fun service hservice => hagain service (List.mem_cons_of_mem _ hservice)
    rintro rfl
    exact hagain _ List.mem_cons_self

theorem Accords.slumbers_run (haccords : d.Accords delimiter initial history taken past)
    (h : d.Slumbers n handle) {demands : List Demand}
    (hagain : ∀ service, (.read handle, service) ∈ d.history demands → service = .gone) :
    (d.run demands).1.Slumbers n handle := by
  induction demands generalizing d history taken past with
  | nil => exact h
  | cons demand rest ih =>
    obtain ⟨taken', past', haccords', -⟩ := haccords.serve demand
    refine ih haccords' ((d.served_serve demand).slumbers haccords h ?_)
      fun service hservice => hagain service (List.mem_cons_of_mem _ hservice)
    rintro rfl
    exact hagain _ List.mem_cons_self

end

/-! ## While they sleep -/

section

variable {delimiter : Bytes} {initial : List Supply} {history : History} {taken : List Supply}
  {past : List Entry} {d : Distribution}

/-- The outer side waits for a holder, or for the source when the open segment is an orphan. -/
theorem Attended.holder_of_asleep (h : d.Attended) (hasleep : d.dispenser.OuterAsleep) :
    (∃ s, (d.holding d.dispenser.ended).segment? = some s ∧ s.done = false) ∨
      (d.dispenser.orphaned = true ∧ d.dispenser.queue = [] ∧
        d.dispenser.source.parked = true) := by
  obtain ⟨-, hfailure, hopened, horphan⟩ := hasleep
  rcases h.holder with (hsome | hclosed | ⟨horphaned, -⟩) | hheld
  · rw [hfailure] at hsome
    cases hsome
  · omega
  · exact .inr ⟨horphaned, horphan horphaned⟩
  · exact .inl hheld

/-- The outer side would be told to wait again, or that the source has failed. -/
theorem Accords.next_of_asleep (h : d.Accords delimiter initial history taken past)
    (hattended : d.Attended) (hhalts : d.dispenser.Halts) (hasleep : d.dispenser.OuterAsleep) :
    (d.serve .next).2 = .gone ∨ (d.serve .next).2 = .outer .pending ∨
      ∃ error, (d.serve .next).2 = .outer (.failed error) := by
  have hholder := hattended.holder_of_asleep hasleep
  obtain ⟨-, hfailure, hopened, -⟩ := hasleep
  rw [Distribution.serve]
  cases hheld : d.outerHeld with
  | false =>
    rw [next_of_left hheld]
    exact .inl rfl
  | true =>
    rw [next_of_held hheld]
    refine .inr ?_
    rcases hholder with ⟨s, hs, hopen⟩ | ⟨-, hqueue, hparked⟩
    · have hstands := (h.held _ s hs).2.1.opened hopen
      rcases h.tracks.pollOuter_of_held hhalts ⟨hopened, hstands.2.2⟩ hfailure .outer with
        hpending | ⟨error, herror⟩
      · exact .inl (congrArg Service.outer hpending)
      · exact .inr ⟨error, congrArg Service.outer herror⟩
    · exact .inl (congrArg Service.outer (h.tracks.pollOuter_of_nothing hopened hfailure hqueue
        (hattended.idles hparked) .outer))

/-- The holder of the open segment would be told to wait again. -/
theorem Accords.read_of_asleep (h : d.Accords delimiter initial history taken past)
    (hattended : d.Attended) {handle : Nat} (hasleep : d.dispenser.InnerAsleep handle)
    {s : Segment} (hs : (d.holding handle).segment? = some s) (hopen : s.done = false) :
    (d.serve (.read handle)).2.tellsToWait = true := by
  obtain ⟨-, hqueue, hfailure, hparked⟩ := hasleep
  have hpending := h.tracks.pollSegment_of_nothing (h.held handle s hs).2.1 hopen hfailure hqueue
    (hattended.idles hparked) (.inner handle)
  have hserved := d.served_serve (.read handle)
  generalize d.serve (.read handle) = result at hserved
  obtain ⟨d', service⟩ := result
  generalize d.asks (.read handle) = asks at hserved
  cases hserved with
  | releases hdemand => cases hdemand
  | gone _ hreads =>
    rw [hreads handle rfl] at hs
    cases hs
  | reads ht hpoll _ hservice =>
    rw [ht, Option.some.injEq] at hs
    subst hs
    rw [hpoll] at hpending
    have hpending : _ = InnerPoll.pending := hpending
    subst hpending
    rcases hservice with rfl | rfl <;> rfl

end

/-! ## Whole runs -/

/-- Whoever makes this demand was told to wait when it made it last, and has not been woken
since. -/
def Asleep (start : Distribution) (demands : List Demand) (demand : Demand) (caller : Caller) :
    Prop :=
  ∃ first last, demands = first ++ demand :: last ∧
    ((start.run first).1.serve demand).2.tellsToWait = true ∧
    (∀ service, (demand, service) ∈ ((start.run first).1.serve demand).1.history last →
      service = .gone) ∧
    (start.run demands).1.dispenser.wakesOf caller =
      ((start.run first).1.serve demand).1.dispenser.wakesOf caller

section

variable {delimiter : Bytes} {splitter : Splitter} {queue : List Supply} {demands : List Demand}

theorem outerAsleep_of_asleep (hsplitter : Splitter.ofDelimiter? delimiter = .ok splitter)
    (h : Asleep (ofSplitter splitter queue) demands .next .outer) :
    ((ofSplitter splitter queue).run demands).1.dispenser.OuterAsleep := by
  obtain ⟨first, last, rfl, hwaits, hagain, hwoken⟩ := h
  obtain ⟨taken, past, haccords, -⟩ := (accords_ofSplitter hsplitter queue).run first
  obtain ⟨taken', past', haccords', -⟩ := haccords.serve .next
  rw [run_append, Distribution.run] at hwoken ⊢
  generalize ((ofSplitter splitter queue).run first).1 = d at *
  have hasleep : (d.serve .next).1.dispenser.OuterAsleep := by
    rw [Distribution.serve] at hwaits ⊢
    cases hheld : d.outerHeld with
    | false =>
      rw [next_of_left hheld] at hwaits
      cases hwaits
    | true =>
      rw [next_of_held hheld] at hwaits ⊢
      refine haccords.tracks.outerAsleep ?_
      generalize (d.dispenser.pollOuter .outer).2 = answer at hwaits
      cases answer with
      | pending => rfl
      | _ => cases hwaits
  exact (haccords'.sleeps_outer_run ⟨Nat.le_refl _, fun _ => hasleep⟩ hagain).asleep_of hwoken

theorem innerAsleep_of_asleep (hsplitter : Splitter.ofDelimiter? delimiter = .ok splitter)
    {handle : Nat} (h : Asleep (ofSplitter splitter queue) demands (.read handle) (.inner handle))
    {s : Segment}
    (hs : (((ofSplitter splitter queue).run demands).1.holding handle).segment? = some s)
    (hopen : s.done = false) :
    ((ofSplitter splitter queue).run demands).1.dispenser.InnerAsleep handle := by
  obtain ⟨first, last, rfl, hwaits, hagain, hwoken⟩ := h
  obtain ⟨taken, past, haccords, -⟩ := (accords_ofSplitter hsplitter queue).run first
  obtain ⟨taken', past', haccords', -⟩ := haccords.serve (.read handle)
  rw [run_append, Distribution.run] at hwoken hs ⊢
  generalize ((ofSplitter splitter queue).run first).1 = d at *
  have hserved := d.served_serve (.read handle)
  have hslumbers : (d.serve (.read handle)).1.Slumbers
      ((d.serve (.read handle)).1.dispenser.wakesOf (.inner handle)) handle := by
    generalize d.serve (.read handle) = result at hserved hwaits
    obtain ⟨d', service⟩ := result
    generalize d.asks (.read handle) = asks at hserved
    cases hserved with
    | releases hdemand => cases hdemand
    | gone => cases hwaits
    | @reads _ t t' dispenser answer holding _ ht hpoll hholding hservice =>
      have hlt := lt_length_of_segment? ht
      refine ⟨by simpa [update] using hlt, fun _ _ _ => ⟨Nat.le_refl _, fun _ => ?_⟩⟩
      have hstands := (haccords.held handle t ht).2.1
      have hpending : answer = .pending := by
        rcases hservice with rfl | rfl <;> cases answer <;> first | rfl | cases hwaits
      subst hpending
      have hunfinished : t.done = false := by
        cases hdone : t.done with
        | false => rfl
        | true =>
          rw [Dispenser.pollSegment_of_done hdone] at hpoll
          cases hpoll
      have htold : (d.dispenser.pollSegment (.inner handle) t).2.2 = .pending := by rw [hpoll]
      have hasleep := haccords.tracks.innerAsleep hstands hunfinished htold
      rwa [hpoll] at hasleep
  exact ((haccords'.slumbers_run hslumbers hagain).sleeps s hs hopen).asleep_of hwoken

end

/-- **Nobody sleeps over anything** after these demands. While the outer side sleeps, no failure is
known and a segment is open, which somebody holds and has not come to its end, or which is an orphan
that waits for the source. While the holder of an unfinished segment sleeps, nothing is queued, no
failure is known, and the source is to wake the dispenser. So they would be told to wait again: the
outer side could only find the source failed, while it waits for the holder. -/
structure Rouses (start : Distribution) (demands : List Demand) : Prop where
  outer_asleep : Asleep start demands .next .outer →
    (start.run demands).1.dispenser.failure = none ∧
      (start.run demands).1.dispenser.issued = (start.run demands).1.dispenser.ended + 1 ∧
      ((∃ s, ((start.run demands).1.holding
          (start.run demands).1.dispenser.ended).segment? = some s ∧ s.done = false) ∨
        ((start.run demands).1.dispenser.orphaned = true ∧
          (start.run demands).1.dispenser.queue = [] ∧
          (start.run demands).1.dispenser.source.parked = true))
  inner_asleep : ∀ handle s, Asleep start demands (.read handle) (.inner handle) →
    ((start.run demands).1.holding handle).segment? = some s → s.done = false →
    (start.run demands).1.dispenser.queue = [] ∧
      (start.run demands).1.dispenser.failure = none ∧
      (start.run demands).1.dispenser.source.parked = true
  next_again : Asleep start demands .next .outer →
    ((start.run demands).1.serve .next).2 = .gone ∨
      ((start.run demands).1.serve .next).2 = .outer .pending ∨
      ∃ error, ((start.run demands).1.serve .next).2 = .outer (.failed error)
  read_again : ∀ handle s, Asleep start demands (.read handle) (.inner handle) →
    ((start.run demands).1.holding handle).segment? = some s → s.done = false →
    ((start.run demands).1.serve (.read handle)).2.tellsToWait = true

/-- **No wake-up is lost**, for every delimiter that is not empty, everything that a source may
give, and every order of demands. -/
theorem rouses_run {delimiter : Bytes} (hd : delimiter ≠ []) :
    ∃ splitter, Splitter.ofDelimiter? delimiter = .ok splitter ∧
      ∀ (queue : List Supply) (demands : List Demand),
        Rouses (ofSplitter splitter queue) demands := by
  obtain ⟨splitter, hsplitter⟩ : ∃ splitter, Splitter.ofDelimiter? delimiter = .ok splitter :=
    ⟨_, if_neg hd⟩
  refine ⟨splitter, hsplitter, fun queue demands => ?_⟩
  obtain ⟨taken, past, haccords, -⟩ := (accords_ofSplitter hsplitter queue).run demands
  have hattended := (attended_ofSplitter splitter queue).run (accords_ofSplitter hsplitter queue)
    demands
  have hinforms := (informs_ofSplitter splitter queue).run (accords_ofSplitter hsplitter queue)
    demands
  have houter := @outerAsleep_of_asleep _ _ queue demands hsplitter
  have hinner := @innerAsleep_of_asleep _ _ queue demands hsplitter
  refine ⟨fun hasleep => ?_, fun handle s hasleep hs hopen => ?_, fun hasleep => ?_,
    fun handle s hasleep hs hopen => ?_⟩
  · obtain ⟨-, hfailure, hopened, -⟩ := houter hasleep
    exact ⟨hfailure, hopened, hattended.holder_of_asleep (houter hasleep)⟩
  · obtain ⟨-, hqueue, hfailure, hparked⟩ := hinner hasleep hs hopen
    exact ⟨hqueue, hfailure, hparked⟩
  · exact haccords.next_of_asleep hattended hinforms.halts (houter hasleep)
  · exact haccords.read_of_asleep hattended (hinner hasleep hs hopen) hs hopen

/-- Both sides sleep while the source has nothing; when the holder drops the segment, the outer side
is woken, and sleeps again when it has asked and skips the orphan. -/
theorem rouses_run_both :
    ([10] : Bytes) ≠ [] ∧ ∃ splitter, Splitter.ofDelimiter? [10] = .ok splitter ∧
      Rouses (ofSplitter splitter []) [.next, .read 0, .next] ∧
      Asleep (ofSplitter splitter []) [.next, .read 0, .next] .next .outer ∧
      Asleep (ofSplitter splitter []) [.next, .read 0, .next] (.read 0) (.inner 0) ∧
      ((ofSplitter splitter []).run [.next, .read 0, .next, .drop 0]).1.dispenser.woken =
        [.outer] ∧
      Rouses (ofSplitter splitter []) [.next, .read 0, .next, .drop 0, .next] ∧
      Asleep (ofSplitter splitter []) [.next, .read 0, .next, .drop 0, .next] .next .outer := by
  obtain ⟨splitter, hsplitter, hrun⟩ := rouses_run (show ([10] : Bytes) ≠ [] by decide)
  refine ⟨by decide, splitter, hsplitter, hrun _ _, ?_, ?_, ?_, hrun _ _, ?_⟩ <;> cases hsplitter
  · exact ⟨[.next, .read 0], [], rfl, rfl, nofun, rfl⟩
  · refine ⟨[.next], [.next], rfl, rfl, fun service hservice => ?_, rfl⟩
    rcases List.mem_cons.mp hservice with hservice | hservice <;> cases hservice
  · rfl
  · exact ⟨[.next, .read 0, .next, .drop 0], [], rfl, rfl, nofun, rfl⟩

end Distribution

end Switchboard
