import Switchboard.Proofs.Segment.Steps
set_option autoImplicit false

/-! # Somebody looks after the open segment

While a segment is open, it is in the hands of somebody who has not come to its end, or it is an
orphan with nothing queued, or the source has failed (`Distribution.Attended`). -/

namespace Switchboard

namespace Dispenser

/-- Nobody has to hold a segment: the source has failed, no segment is open, or the open one is an
orphan with nothing queued. -/
def NeedsNoHolder (d : Dispenser) : Prop :=
  d.failure.isSome = true ∨ d.issued = d.ended ∨ (d.orphaned = true ∧ d.queue = [])

/-- The outer side was told to wait: a segment is open, and if it is an orphan, then the source is
to wake the dispenser. -/
structure Awaits (d : Dispenser) : Prop where
  failure_eq : d.failure = none
  opened : d.issued = d.ended + 1
  orphan : d.orphaned = true → d.queue = [] ∧ d.source.parked = true

section

variable {delimiter : Bytes} {taken : List Supply} {past : List Entry} {d : Dispenser} {s : Segment}

theorem needsNoHolder_of_core {d' : Dispenser} (hcore : d'.core = d.core)
    (h : d.NeedsNoHolder) : d'.NeedsNoHolder := by
  simp only [core, Core.mk.injEq] at hcore
  obtain ⟨-, -, hqueue, -, hfailure, hissued, hended, horphaned⟩ := hcore
  rwa [NeedsNoHolder, hqueue, hfailure, hissued, hended, horphaned]

/-! ## Giving a segment up -/

theorem PollsOn.takes {d' : Dispenser} {s' : Segment} {asks : List Ask} {answers : List InnerPoll}
    (h : PollsOn d s asks answers d' s') (htracks : d.Tracks delimiter taken past)
    (hs : d.Stands s) :
    ∃ chunks taken' past', Takes delimiter taken past d s chunks taken' past' d' s' := by
  induction h generalizing taken past with
  | refl d s => exact ⟨[], taken, past, .refl htracks hs⟩
  | poll hpoll hrest ih =>
    obtain ⟨taken₁, past₁, htakes, -⟩ := htracks.pollSegment hs .nobody
    rw [hpoll] at htakes
    obtain ⟨chunks, taken₂, past₂, htakes'⟩ := ih htakes.tracks htakes.stands
    exact ⟨_, taken₂, past₂, htakes.trans htakes'⟩

/-- When the holder of the open segment has come to its end, nobody has to hold one. -/
theorem Takes.needsNoHolder {chunks : List Bytes} {taken' : List Supply} {past' : List Entry}
    {d' : Dispenser} {s' : Segment}
    (h : Takes delimiter taken past d s chunks taken' past' d' s') (hs : d.Stands s)
    (hopen : s.done = false) (hdone : s'.done = true) : d'.NeedsNoHolder := by
  obtain ⟨hindex, hissued, -⟩ := hs.opened hopen
  have hissued' := h.issued_eq
  have hindex' := h.index_eq
  rcases h.stands.closed hdone with hlt | hfailure
  · refine .inr (.inl ?_)
    rcases h.tracks.issued_eq with hclosed | hopen'
    · exact hclosed
    · omega
  · exact .inl hfailure

theorem Tracks.needsNoHolder_dropSegment (h : d.Tracks delimiter taken past) (hs : d.Stands s)
    (hopen : s.done = false) : (d.dropSegment s).NeedsNoHolder := by
  obtain ⟨hindex, hissued, -⟩ := hs.opened hopen
  cases hfailure : d.failure with
  | some error =>
    have hdrop : d.dropSegment s = d.wakeOuter := by
      rw [Dispenser.dropSegment, if_neg (by simp [hopen]), if_neg (by simp [hfailure])]
    rw [hdrop]
    exact needsNoHolder_of_core (core_wakeOuter d) (.inl (by simp [hfailure]))
  | none =>
    have hdrop : d.dropSegment s =
        (Dispenser.skipOrphan { d with orphaned := true }).wakeOuter := by
      rw [Dispenser.dropSegment, if_neg (by simp [hopen]), if_pos (by simp [hindex, hfailure])]
    obtain ⟨past', -, hskips⟩ := (h.orphan hissued).skipOrphan rfl
    rw [hdrop]
    refine needsNoHolder_of_core (core_wakeOuter _) ?_
    rcases hskips.outcome with ⟨-, hended⟩ | ⟨horphaned, -, hqueue⟩
    · refine .inr (.inl ?_)
      rw [hskips.issued_eq, hended]
      exact hissued
    · exact .inr (.inr ⟨horphaned, hqueue⟩)

theorem GivesUp.needsNoHolder {d' : Dispenser} {asks : List Ask} {service : Service}
    (h : d.GivesUp s asks d' service) (htracks : d.Tracks delimiter taken past) (hs : d.Stands s)
    (hopen : s.done = false) : d'.NeedsNoHolder := by
  obtain ⟨answers, left, s', hpolls, -, -, rfl⟩ := h
  obtain ⟨chunks, taken', past', htakes⟩ := hpolls.takes htracks hs
  cases hdone : s'.done with
  | true =>
    rw [dropSegment_of_done hdone]
    exact htakes.needsNoHolder hs hopen hdone
  | false => exact htakes.tracks.needsNoHolder_dropSegment htakes.stands hdone

/-! ## Asking for the next segment -/

theorem failure_skipped (d : Dispenser) : d.skipped.failure = d.failure := by
  unfold skipped skipOrphan
  split
  · split <;> rfl
  · rfl

theorem Tracks.pollOuter_pending (h : d.Tracks delimiter taken past) {caller : Caller}
    (hpending : (d.pollOuter caller).2 = .pending) : (d.pollOuter caller).1.Awaits := by
  refine (h.pollOuter_keeps (I := fun _ _ => True)
    (Q := fun _ d answer => answer = .pending → d.Awaits) caller trivial
    (fun _ _ => trivial) (fun _ _ _ _ => trivial) ?_ ?_).1 hpending
  · rintro taken past d d' answer items htracks - hturn rfl
    obtain ⟨past', htracks', -⟩ := htracks.skipIfOrphaned rfl
    generalize hanswer : OuterPoll.pending = answer at hturn
    cases hturn with
    | issues hfailure hclosed =>
      unfold Dispenser.issue at hanswer
      split at hanswer <;> cases hanswer
    | lets hfailure hopen hheld hqueue =>
      refine ⟨(failure_skipped d).trans hfailure, htracks'.issued_eq.resolve_left hopen,
        fun horphaned => ?_⟩
      have hnot : d.skipped.orphaned = true := horphaned
      rw [hheld] at hnot
      cases hnot
    | _ => cases hanswer
  · rintro taken past d htracks hready - -
    exact ⟨htracks.failure_of_ready hready, hready.opened, fun _ => ⟨hready.queue_eq, rfl⟩⟩

/-- Nothing is there for whoever holds the open segment, and the source is to wake the dispenser. -/
structure Starves (d : Dispenser) : Prop where
  queue_eq : d.queue = []
  failure_eq : d.failure = none
  connected : d.connected = true
  parked : d.source.parked = true
  source_eq : d.source.queue = []

theorem Tracks.pollSegment_pending (h : d.Tracks delimiter taken past) (hs : d.Stands s)
    {caller : Caller} (hpending : (d.pollSegment caller s).2.2 = .pending) :
    (d.pollSegment caller s).1.Starves := by
  cases hdone : s.done with
  | true =>
    rw [pollSegment_of_done hdone] at hpending
    cases hpending
  | false =>
    refine (h.pollSegment_keeps (I := fun _ _ => True)
      (Q := fun _ d answer => answer.1 = .pending → d.Starves) hs hdone caller trivial
      (fun _ _ _ _ => trivial) ?_ ?_).1 hpending
    · rintro taken past d d' ⟨answer, done⟩ items htracks hheld - hturn rfl
      cases hturn
    · rintro taken past d htracks hready hheld - -
      exact ⟨hready.queue_eq, htracks.failure_of_ready hready, hready.connected, rfl, rfl⟩

end

/-! ## A source that is to wake the dispenser -/

/-- A source that is to wake the dispenser has nothing to give. -/
def Idles (d : Dispenser) : Prop := d.source.parked = true → d.source.queue = []

theorem Idles.pollOuter {d : Dispenser} (h : d.Idles) (caller : Caller) :
    (d.pollOuter caller).1.Idles := by
  have hloop := loops_outerLoop { d with outerWaiter := some caller } d.source.queue
  exact hloop.queue_of_parked source_outerTurn source_wakeInner h

theorem Idles.pollSegment {d : Dispenser} (h : d.Idles) (caller : Caller) (s : Segment) :
    (d.pollSegment caller s).1.Idles := by
  unfold Dispenser.pollSegment
  split
  · exact h
  · dsimp only
    split
    · exact h
    · have hloop := loops_innerLoop { d with innerWaiter := some caller } d.source.queue
      exact hloop.queue_of_parked source_innerTurn source_wakeOuter h

theorem Idles.givesUp {d d' : Dispenser} {s : Segment} {asks : List Ask} {service : Service}
    (h : d.Idles) (hgives : d.GivesUp s asks d' service) : d'.Idles := by
  obtain ⟨answers, left, s', hpolls, -, -, rfl⟩ := hgives
  have hleft : left.Idles := by
    induction hpolls with
    | refl d s => exact h
    | @poll d _ _ s _ _ _ _ _ hpoll hrest ih =>
      have hidles := h.pollSegment .nobody s
      rw [hpoll] at hidles
      exact ih hidles
  rw [Idles, source_dropSegment]
  exact hleft

theorem idles_supply (d : Dispenser) (item : Supply) : (d.supply item).Idles := by
  intro hparked
  unfold supply at hparked
  split at hparked
  · rw [source_wakeInner, source_wakeOuter] at hparked
    cases hparked
  · next hnot => exact absurd hparked hnot

end Dispenser

namespace Distribution

open Dispenser (NeedsNoHolder GivesUp)

/-! ## The invariant -/

/-- **The open segment is looked after**, and the source has nothing to give as long as it is to
wake the dispenser. -/
structure Attended (d : Distribution) : Prop where
  holder : d.dispenser.NeedsNoHolder ∨
    ∃ s, (d.holding d.dispenser.ended).segment? = some s ∧ s.done = false
  idles : d.dispenser.Idles

theorem attended_ofSplitter (splitter : Splitter) (queue : List Supply) :
    (ofSplitter splitter queue).Attended :=
  ⟨.inl (.inr (.inl rfl)), nofun⟩

section

variable {delimiter : Bytes} {initial : List Supply} {history : History} {taken : List Supply}
  {past : List Entry} {d : Distribution}

/-- The dispenser is the same, and whoever held an unfinished segment still does. -/
theorem Attended.update (h : d.Attended) {handle : Nat} {s : Segment}
    (hs : (d.holding handle).segment? = some s) {holding : Holding}
    (hholding : s.done = false → holding.segment? = some s) :
    (d.update d.dispenser handle holding).Attended := by
  refine ⟨h.holder.imp_right ?_, h.idles⟩
  rintro ⟨t, ht, hopen⟩
  refine ⟨t, ?_, hopen⟩
  show ((d.update d.dispenser handle holding).holding d.dispenser.ended).segment? = some t
  by_cases hsame : d.dispenser.ended = handle
  · rw [hsame, hs, Option.some.injEq] at ht
    subst ht
    rw [hsame, holding_update_self (lt_length_of_segment? hs), hholding hopen]
  · rwa [holding_update_ne hsame]

/-- Asking for the next segment when nobody had to hold one: it is handed out, or still nobody has
to. -/
theorem Accords.attended_of_needsNoHolder
    (haccords : d.Accords delimiter initial history taken past)
    (hneeds : d.dispenser.NeedsNoHolder) {dispenser : Dispenser} {answer : OuterPoll}
    (hpoll : d.dispenser.pollOuter .outer = (dispenser, answer)) :
    dispenser.NeedsNoHolder ∨ (answer = .segment ⟨d.dispenser.issued, false⟩ ∧
      dispenser.ended = d.dispenser.issued) := by
  obtain ⟨taken', past', -, hoffers⟩ := haccords.tracks.pollOuter .outer
  have hpending := @Dispenser.Tracks.pollOuter_pending _ _ _ _ haccords.tracks .outer
  rw [hpoll] at hoffers hpending
  have hstep : Dispenser.OuterStep d.dispenser.issued past' answer dispenser := hoffers.step
  cases hstep with
  | segment hissued hended hnot hcontent => exact .inr ⟨rfl, hended⟩
  | failed hissued hfailure => exact .inl (.inl (Option.isSome_iff_exists.mpr ⟨_, hfailure⟩))
  | ended hissued hover =>
    rcases hover with hfailure | ⟨-, hclosed⟩
    · exact .inl (.inl hfailure)
    · exact .inl (.inr (.inl hclosed))
  | pending hissued hopen =>
    -- Only an orphan can be open when nobody had to hold a segment.
    obtain ⟨hnone, -, hqueue⟩ := hpending rfl
    have hgrows : d.dispenser.Grows past dispenser past' := hoffers.proceeds.grows
    rcases hneeds with hfailure | hclosed | ⟨horphaned, -⟩
    · obtain ⟨error, herror⟩ := Option.isSome_iff_exists.mp hfailure
      have hkept := hgrows.failure_mono error herror
      rw [show dispenser.failure = none from hnone] at hkept
      cases hkept
    · have hmono := hgrows.ended_le
      omega
    · have horphan : (dispenser.ended = d.dispenser.ended ∧
          dispenser.orphaned = d.dispenser.orphaned) ∨ (d.dispenser.orphaned = true ∧
          dispenser.orphaned = false ∧ dispenser.ended = d.dispenser.ended + 1) :=
        hoffers.proceeds.orphan
      rcases horphan with ⟨-, hsame⟩ | ⟨-, -, hended⟩
      · have hstill := hsame.trans horphaned
        exact .inl (.inr (.inr ⟨hstill, (hqueue hstill).1⟩))
      · have hbefore := haccords.tracks.issued_of_orphaned horphaned
        omega

/-- Asking for the next segment. -/
theorem Attended.offers (h : d.Attended) (haccords : d.Accords delimiter initial history taken past)
    {dispenser : Dispenser} {answer : OuterPoll}
    (hpoll : d.dispenser.pollOuter .outer = (dispenser, answer)) :
    Attended { d with dispenser := dispenser,
                      handles := d.handles ++
                        (Service.outer answer).segment?.toList.map .segment } := by
  have hidles := h.idles.pollOuter .outer
  rw [hpoll] at hidles
  refine ⟨?_, hidles⟩
  rcases h.holder with hneeds | ⟨s, hs, hopen⟩
  · refine (haccords.attended_of_needsNoHolder hneeds hpoll).imp_right ?_
    rintro ⟨rfl, hended⟩
    refine ⟨⟨d.dispenser.issued, false⟩, ?_, rfl⟩
    show Holding.segment? ((_ : List Holding)[dispenser.ended]?.getD .released) = _
    rw [hended, ← haccords.length_handles]
    simp [Service.segment?, Holding.segment?]
  · obtain ⟨taken', past', -, hoffers⟩ := haccords.tracks.pollOuter .outer
    rw [hpoll] at hoffers
    obtain ⟨-, -, hnot⟩ := (haccords.held _ s hs).2.1.opened hopen
    have hended : dispenser.ended = d.dispenser.ended := by
      rcases hoffers.proceeds.orphan with ⟨hsame, -⟩ | ⟨horphaned, -, -⟩
      · exact hsame
      · rw [hnot] at horphaned
        cases horphaned
    refine .inr ⟨s, ?_, hopen⟩
    show Holding.segment? ((_ : List Holding)[dispenser.ended]?.getD .released) = _
    rw [hended, List.getElem?_append_left (lt_length_of_segment? hs)]
    exact hs

/-- The step: every demand. -/
theorem Attended.served (h : d.Attended) (haccords : d.Accords delimiter initial history taken past)
    {demand : Demand} {asks : List Dispenser.Ask} {d' : Distribution} {service : Service}
    (hserved : d.Served demand asks d' service) : d'.Attended := by
  cases hserved with
  | supplies item =>
    have hcore := Dispenser.core_supply d.dispenser item
    refine ⟨h.holder.imp (Dispenser.needsNoHolder_of_core hcore) ?_,
      d.dispenser.idles_supply item⟩
    rw [show (d.dispenser.supply item).ended = d.dispenser.ended from
      congrArg Dispenser.Core.ended hcore]
    exact id
  | leaves => exact ⟨h.holder, h.idles⟩
  | offers hheld hpoll => exact h.offers haccords hpoll
  | @reads handle s s' dispenser answer holding _ hs hpoll hholding hservice =>
    obtain ⟨rfl, hstands, -⟩ := haccords.held handle s hs
    cases hdone : s.done with
    | true =>
      rw [Dispenser.pollSegment_of_done hdone] at hpoll
      cases hpoll
      exact h.update hs fun _ => hholding
    | false =>
      obtain ⟨taken', past', htakes, -⟩ := haccords.tracks.pollSegment hstands (.inner s.index)
      have hidles := h.idles.pollSegment (.inner s.index) s
      rw [hpoll] at htakes hidles
      refine ⟨?_, hidles⟩
      cases hdone' : s'.done with
      | true => exact .inl (htakes.needsNoHolder hstands hdone hdone')
      | false =>
        have hended := (htakes.stands.opened hdone').1
        refine .inr ⟨s', ?_, hdone'⟩
        show ((d.update dispenser s.index holding).holding dispenser.ended).segment? = some s'
        rw [← hended, htakes.index_eq, holding_update_self (lt_length_of_segment? hs), hholding]
  | wraps hs => exact h.update hs fun _ => rfl
  | @releases _ handle s _ dispenser _ hdemand hs hgives =>
    cases hdone : s.done with
    | true =>
      obtain rfl := hgives.of_done hdone
      exact h.update hs fun hopen => by simp [hdone] at hopen
    | false =>
      exact ⟨.inl (hgives.needsNoHolder haccords.tracks (haccords.held handle s hs).2.1 hdone),
        h.idles.givesUp hgives⟩
  | gone => exact h

/-- **Every run.** -/
theorem Attended.run (h : d.Attended) (haccords : d.Accords delimiter initial history taken past)
    (demands : List Demand) : (d.run demands).1.Attended := by
  induction demands generalizing d history taken past with
  | nil => exact h
  | cons demand rest ih =>
    obtain ⟨taken', past', haccords', -⟩ := haccords.serve demand
    exact ih (h.served haccords (d.served_serve demand)) haccords'

end

end Distribution

end Switchboard
