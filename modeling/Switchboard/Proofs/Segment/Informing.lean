import Switchboard.Proofs.Segment.Steps
set_option autoImplicit false

/-! # Who is told that the source has failed

Whichever side finds that the source has failed, both are to be told, each once. The dispenser keeps
the failure, the holder of the open segment is told when everything queued is read, and the outer
side when it asks next (`Dispenser.OuterHears`). `Distribution.Informs` compares what the dispenser
knows with what the history tells. -/

namespace Switchboard

namespace Dispenser

/-! ## Who is told of a failure -/

/-- Nobody can have been told of a failure, or one is known, and the segment is open that it has cut
off. -/
inductive Halts (d : Dispenser) : Prop where
  | running (hfailure : d.failure = none) (htold : d.failureTold = false)
  | halted (hfailure : d.failure.isSome = true) (hopen : d.issued = d.ended + 1)

theorem Halts.told_eq {d : Dispenser} (h : d.Halts) (hfailure : d.failure = none) :
    d.failureTold = false := by
  cases h with
  | running _ htold => exact htold
  | halted hsome => rw [hfailure] at hsome; cases hsome

theorem Halts.of_core {d d' : Dispenser} (h : d.Halts) (hcore : d'.core = d.core)
    (htold : d'.failureTold = d.failureTold) : d'.Halts := by
  simp only [core, Core.mk.injEq] at hcore
  obtain ⟨-, -, -, -, hfailure, hissued, hended, -⟩ := hcore
  cases h with
  | running hnone hnot => exact .running (hfailure.trans hnone) (htold.trans hnot)
  | halted hsome hopen => exact .halted (by rwa [hfailure]) (by omega)

theorem failureTold_wakeOuter (d : Dispenser) : d.wakeOuter.failureTold = d.failureTold := by
  unfold wakeOuter
  split <;> rfl

theorem failureTold_wakeInner (d : Dispenser) : d.wakeInner.failureTold = d.failureTold := by
  unfold wakeInner
  split <;> rfl

theorem failureTold_supply (d : Dispenser) (item : Supply) :
    (d.supply item).failureTold = d.failureTold := by
  unfold supply
  split
  · rw [failureTold_wakeInner, failureTold_wakeOuter]
  · rfl

theorem failureTold_absorb (d : Dispenser) (item : Supply) :
    (d.absorb item).failureTold = d.failureTold := by
  cases item <;> rfl

/-- What an orphan leaves alone. -/
theorem told_skipOrphan (d : Dispenser) :
    d.skipOrphan.failure = d.failure ∧ d.skipOrphan.failureTold = d.failureTold := by
  unfold skipOrphan
  split <;> exact ⟨rfl, rfl⟩

theorem told_skipped (d : Dispenser) :
    d.skipped.failure = d.failure ∧ d.skipped.failureTold = d.failureTold := by
  unfold skipped
  split
  · exact told_skipOrphan d
  · exact ⟨rfl, rfl⟩

theorem told_issue (d : Dispenser) :
    d.issue.1.failure = d.failure ∧ d.issue.1.failureTold = d.failureTold := by
  unfold issue
  split <;> exact ⟨rfl, rfl⟩

section

variable {delimiter : Bytes} {taken : List Supply} {past : List Entry} {d : Dispenser} {s : Segment}

theorem Tracks.halts_absorb (h : d.Tracks delimiter taken past) (hready : d.Ready)
    (hhalts : d.Halts) (item : Supply) : (d.absorb item).Halts := by
  have hnone := h.failure_of_ready hready
  have htold := hhalts.told_eq hnone
  cases item with
  | chunk bytes => exact .running hnone htold
  | failure cause => exact .halted rfl hready.opened
  | done => exact .running hnone htold

/-- What the outer side hears of a failure, when it was told of one before or not. -/
inductive OuterHears (told : Bool) (d : Dispenser) : OuterPoll → Prop where
  | nothing {answer : OuterPoll} (hfailure : d.failure = none)
      (hanswer : ∀ error, answer ≠ .failed error) : OuterHears told d answer
  | learns {error : SplitError} (hfailure : d.failure = some error) (hbefore : told = false)
      (htold : d.failureTold = true) : OuterHears told d (.failed error)
  | knows (hfailure : d.failure.isSome = true) (hbefore : told = true)
      (htold : d.failureTold = true) : OuterHears told d .ended

theorem Tracks.pollOuter_hears (h : d.Tracks delimiter taken past) (hhalts : d.Halts)
    (caller : Caller) : (d.pollOuter caller).1.Halts ∧
      OuterHears d.failureTold (d.pollOuter caller).1 (d.pollOuter caller).2 := by
  refine (h.pollOuter_keeps (I := fun _ e => e.Halts ∧ e.failureTold = d.failureTold)
    (Q := fun _ e answer => e.Halts ∧ OuterHears d.failureTold e answer) caller
    ⟨hhalts.of_core rfl rfl, rfl⟩ ?_ ?_ ?_ ?_).1
  · rintro taken e hfailure ⟨hhalts, htold⟩
    have hskipped := e.told_skipped
    exact ⟨.running (hskipped.1.trans hfailure) (hskipped.2.trans (hhalts.told_eq hfailure)),
      hskipped.2.trans htold⟩
  · rintro taken past e item htracks hready ⟨hhalts, htold⟩
    have hsame := failureTold_wakeInner (e.absorb item)
    exact ⟨(htracks.halts_absorb hready hhalts item).of_core (core_wakeInner _) hsame,
      hsame.trans ((e.failureTold_absorb item).trans htold)⟩
  · rintro taken past e e' answer items htracks ⟨hhalts, htold⟩ hturn
    have hskipped := e.told_skipped
    cases hturn with
    | knows hfailure hknown =>
      exact ⟨hhalts.of_core rfl rfl,
        .knows (Option.isSome_iff_exists.mpr ⟨_, hfailure⟩) (htold.symm.trans hknown) hknown⟩
    | learns hfailure hunknown =>
      refine ⟨?_, .learns hfailure (htold.symm.trans hunknown) rfl⟩
      cases hhalts with
      | running hnone => rw [hfailure] at hnone; cases hnone
      | halted hsome hopen => exact .halted hsome hopen
    | issues hfailure hclosed =>
      have hissue := e.skipped.told_issue
      have hnone := hissue.1.trans (hskipped.1.trans hfailure)
      refine ⟨.running hnone (hissue.2.trans (hskipped.2.trans (hhalts.told_eq hfailure))),
        .nothing hnone ?_⟩
      unfold Dispenser.issue
      split <;> nofun
    | lets hfailure =>
      have hnone := hskipped.1.trans hfailure
      exact ⟨.running hnone (hskipped.2.trans (hhalts.told_eq hfailure)), .nothing hnone nofun⟩
    | stops hfailure =>
      have hnone := hskipped.1.trans hfailure
      exact ⟨.running hnone (hskipped.2.trans (hhalts.told_eq hfailure)), .nothing hnone nofun⟩
  · rintro taken past e htracks hready ⟨hhalts, htold⟩
    exact ⟨hhalts.of_core rfl rfl, .nothing (htracks.failure_of_ready hready) nofun⟩

/-- What the holder of the open segment hears of a failure: whenever one is known, this. -/
theorem Tracks.pollSegment_hears (h : d.Tracks delimiter taken past) (hs : d.Stands s)
    (hopen : s.done = false) (hhalts : d.Halts) (caller : Caller) :
    (d.pollSegment caller s).1.Halts ∧
      (d.pollSegment caller s).1.failureTold = d.failureTold ∧
      ∀ error, (d.pollSegment caller s).1.failure = some error →
        (d.pollSegment caller s).2.2 = .failed error ∧
          (d.pollSegment caller s).2.1.done = true := by
  refine (h.pollSegment_keeps (I := fun _ e => e.Halts ∧ e.failureTold = d.failureTold)
    (Q := fun _ e answer => e.Halts ∧ e.failureTold = d.failureTold ∧
      ∀ error, e.failure = some error → answer.1 = .failed error ∧ answer.2 = true) hs hopen
    caller ⟨hhalts.of_core rfl rfl, rfl⟩ ?_ ?_ ?_).1
  · rintro taken past e item htracks hready ⟨hhalts, htold⟩
    have hsame := failureTold_wakeOuter (e.absorb item)
    exact ⟨(htracks.halts_absorb hready hhalts item).of_core (core_wakeOuter _) hsame,
      hsame.trans ((e.failureTold_absorb item).trans htold)⟩
  · rintro taken past e e' answer items htracks hheld ⟨hhalts, htold⟩ hturn
    cases hturn with
    | chunk hqueue =>
      have hnone := htracks.failure_of_queue (by simp [hqueue])
      exact ⟨.running hnone (hhalts.told_eq hnone), htold,
        fun _ herror => nomatch hnone.symm.trans herror⟩
    | @closes rest hqueue =>
      have hnone := htracks.failure_of_queue (by simp [hqueue])
      have hcore := core_wakeOuter { e with queue := rest, ended := e.ended + 1 }
      have hsame := failureTold_wakeOuter { e with queue := rest, ended := e.ended + 1 }
      have hnone' := (congrArg Core.failure hcore).trans hnone
      exact ⟨.running hnone' (hsame.trans (hhalts.told_eq hnone)), hsame.trans htold,
        fun _ herror => nomatch hnone'.symm.trans herror⟩
    | fails hqueue hfailure =>
      have hsame := failureTold_wakeOuter e
      have hfailure' := (congrArg Core.failure (core_wakeOuter e)).trans hfailure
      refine ⟨hhalts.of_core (core_wakeOuter e) hsame, hsame.trans htold, fun error herror => ?_⟩
      have hsame := Option.some.inj (hfailure'.symm.trans herror)
      exact ⟨congrArg _ hsame, rfl⟩
    | stops hqueue hnone =>
      exact ⟨hhalts.of_core rfl rfl, htold, fun _ herror => nomatch hnone.symm.trans herror⟩
  · rintro taken past e htracks hready - ⟨hhalts, htold⟩
    exact ⟨hhalts.of_core rfl rfl, htold,
      fun _ herror => nomatch (htracks.failure_of_ready hready).symm.trans herror⟩

theorem Halts.dropSegment (h : d.Halts) (s : Segment) :
    (d.dropSegment s).Halts ∧ (d.dropSegment s).failure = d.failure ∧
      (d.dropSegment s).failureTold = d.failureTold := by
  have hwake : ∀ left : Dispenser, left.Halts → left.failure = d.failure →
      left.failureTold = d.failureTold → left.wakeOuter.Halts ∧
        left.wakeOuter.failure = d.failure ∧ left.wakeOuter.failureTold = d.failureTold :=
    fun left hleft hfailure htold =>
      ⟨hleft.of_core (core_wakeOuter left) (failureTold_wakeOuter left),
        (congrArg Core.failure (core_wakeOuter left)).trans hfailure,
        (failureTold_wakeOuter left).trans htold⟩
  unfold Dispenser.dropSegment
  split
  · exact ⟨h, rfl, rfl⟩
  · split
    · next hskip =>
      -- There is nothing to skip to after a failure.
      have hnone : d.failure = none := by simp_all
      obtain ⟨hfailure, htold⟩ := told_skipOrphan { d with orphaned := true }
      exact hwake _ (.running (hfailure.trans hnone) (htold.trans (h.told_eq hnone))) hfailure htold
    · exact hwake d h rfl rfl

/-- Who polls on hears of a failure that was not known before. -/
structure Listens (d : Dispenser) (answers : List InnerPoll) (d' : Dispenser) : Prop where
  halts : d'.Halts
  told_eq : d'.failureTold = d.failureTold
  failure_mono : ∀ error, d.failure = some error → d'.failure = some error
  failure_eq : ∀ error, .failed error ∈ answers → d'.failure = some error
  failed_of_known : d'.failure.isSome = true →
    d.failure.isSome = true ∨ ∃ error, .failed error ∈ answers

theorem PollsOn.listens {d' : Dispenser} {s' : Segment} {asks : List Ask}
    {answers : List InnerPoll} (h : PollsOn d s asks answers d' s')
    (htracks : d.Tracks delimiter taken past) (hs : d.Stands s) (hhalts : d.Halts) :
    Listens d answers d' := by
  induction h generalizing taken past with
  | refl d s => exact ⟨hhalts, rfl, fun _ h => h, by simp, .inl⟩
  | @poll d d₁ d' s s₁ s' answer asks answers hpoll hrest ih =>
    cases hdone : s.done with
    | true =>
      rw [pollSegment_of_done hdone] at hpoll
      cases hpoll
      obtain ⟨hhalts', htold, hmono, hfailed, hknown⟩ := ih htracks hs hhalts
      exact ⟨hhalts', htold, hmono, fun error herror => hfailed error (by simpa using herror),
        by simpa using hknown⟩
    | false =>
      obtain ⟨taken₁, past₁, htakes, -, -, hfailed₁⟩ := htracks.pollSegment hs .nobody
      obtain ⟨hhalts₁, htold₁, hhears⟩ := htracks.pollSegment_hears hs hdone hhalts .nobody
      rw [hpoll] at htakes hfailed₁ hhalts₁ htold₁ hhears
      obtain ⟨hhalts', htold, hmono, hfailed, hknown⟩ := ih htakes.tracks htakes.stands hhalts₁
      refine ⟨hhalts', htold.trans htold₁,
        fun error herror => hmono error (htakes.grows.failure_mono error herror),
        fun error herror => ?_, fun hsome => ?_⟩
      · rcases List.mem_cons.mp herror with hnow | hlater
        · exact hmono error (hfailed₁ error hnow.symm)
        · exact hfailed error hlater
      · rcases hknown hsome with hbefore | ⟨error, herror⟩
        · obtain ⟨error, herror⟩ := Option.isSome_iff_exists.mp hbefore
          exact .inr ⟨error, List.mem_cons.mpr (.inl (hhears error herror).1.symm)⟩
        · exact .inr ⟨error, List.mem_cons_of_mem _ herror⟩

end

end Dispenser

namespace Distribution

/-! ## What a demand tells -/

/-- What a demand has to do with what is known of a failure. -/
structure Passes (d : Distribution) (demand : Demand) (d' : Distribution) (service : Service) :
    Prop where
  halts : d'.dispenser.Halts
  failure_mono : ∀ error, d.dispenser.failure = some error → d'.dispenser.failure = some error
  tells_of_known : d'.dispenser.failure.isSome = true →
    d.dispenser.failure.isSome = true ∨ service.tellsFailure = true
  failure_eq : service.tellsFailure = true →
    ∃ error, d'.dispenser.failure = some error ∧ service.failure? = some error
  told_iff : d'.dispenser.failureTold = true ↔
    d.dispenser.failureTold = true ∨ (demand = .next ∧ service.tellsFailure = true)

section

variable {delimiter : Bytes} {initial : List Supply} {history : History} {taken : List Supply}
  {past : List Entry} {d d' : Distribution} {demand : Demand} {asks : List Dispenser.Ask}
  {service : Service}

/-- A demand that tells nobody anything and leaves the dispenser as it was. -/
theorem passes_of_core (hhalts : d.dispenser.Halts)
    (hcore : d'.dispenser.core = d.dispenser.core)
    (htold : d'.dispenser.failureTold = d.dispenser.failureTold)
    (hservice : service.tellsFailure = false) : Passes d demand d' service where
  halts := hhalts.of_core hcore htold
  failure_mono := fun _ herror => (congrArg Dispenser.Core.failure hcore).trans herror
  tells_of_known := fun hsome => .inl (by
    rwa [← show d'.dispenser.failure = d.dispenser.failure from
      congrArg Dispenser.Core.failure hcore])
  failure_eq := by simp [hservice]
  told_iff := by simp [htold, hservice]

/-- The outer side asks. -/
theorem Accords.passes_offers (h : d.Accords delimiter initial history taken past)
    (hhalts : d.dispenser.Halts) {dispenser : Dispenser} {answer : OuterPoll}
    (hpoll : d.dispenser.pollOuter .outer = (dispenser, answer))
    (hdispenser : d'.dispenser = dispenser) : Passes d .next d' (.outer answer) := by
  obtain ⟨taken', past', -, hoffers⟩ := h.tracks.pollOuter .outer
  obtain ⟨hhalts', hhears⟩ := h.tracks.pollOuter_hears hhalts .outer
  rw [hpoll] at hoffers hhalts' hhears
  subst hdispenser
  have hmono : ∀ error, d.dispenser.failure = some error → d'.dispenser.failure = some error :=
    hoffers.proceeds.grows.failure_mono
  cases hhears with
  | nothing hfailure hanswer =>
    have hbefore : d.dispenser.failure = none :=
      Option.eq_none_iff_forall_ne_some.mpr fun error herror => by
        cases hfailure.symm.trans (hmono error herror)
    have hquiet : (Service.outer answer).tellsFailure = false := by
      cases answer with
      | failed error => exact absurd rfl (hanswer error)
      | _ => rfl
    refine ⟨hhalts', hmono, fun hsome => ?_, by simp [hquiet], ?_⟩
    · rw [show d'.dispenser.failure = none from hfailure] at hsome
      cases hsome
    · simp [hhalts.told_eq hbefore, hquiet,
        show d'.dispenser.failureTold = false from hhalts'.told_eq hfailure]
  | @learns error hfailure hbefore htold =>
    exact ⟨hhalts', hmono, fun _ => .inr rfl, fun _ => ⟨error, hfailure, rfl⟩,
      iff_of_true htold (.inr ⟨rfl, rfl⟩)⟩
  | knows hfailure hbefore htold =>
    refine ⟨hhalts', hmono, fun _ => .inl ?_, by rintro ⟨⟩, iff_of_true htold (.inl hbefore)⟩
    cases hhalts with
    | running hnone hnot => rw [hbefore] at hnot; cases hnot
    | halted hsome => exact hsome

/-- The holder of an unfinished segment reads. -/
theorem Accords.passes_reads (h : d.Accords delimiter initial history taken past)
    (hhalts : d.dispenser.Halts) {handle : Nat} {s s' : Segment} {dispenser : Dispenser}
    {answer : InnerPoll} (hs : (d.holding handle).segment? = some s) (hopen : s.done = false)
    (hpoll : d.dispenser.pollSegment (.inner handle) s = (dispenser, s', answer))
    (hservice : service = .chunk answer ∨ service = .frame (polledAs answer))
    (hdispenser : d'.dispenser = dispenser) : Passes d (.read handle) d' service := by
  have hstands := (h.held handle s hs).2.1
  obtain ⟨taken', past', htakes, -, -, hfailed⟩ := h.tracks.pollSegment hstands (.inner handle)
  obtain ⟨hhalts', htold, hhears⟩ :=
    h.tracks.pollSegment_hears hstands hopen hhalts (.inner handle)
  rw [hpoll] at htakes hfailed hhalts' htold hhears
  subst hdispenser
  have htells : ∀ error, answer = .failed error →
      service.tellsFailure = true ∧ service.failure? = some error := by
    rintro error rfl
    rcases hservice with rfl | rfl <;> exact ⟨rfl, rfl⟩
  refine ⟨hhalts', htakes.grows.failure_mono, fun hsome => ?_, fun hservice' => ?_, ?_⟩
  · obtain ⟨error, herror⟩ := Option.isSome_iff_exists.mp hsome
    exact .inr (htells error (hhears error herror).1).1
  · cases answer with
    | failed error => exact ⟨error, hfailed error rfl, (htells error rfl).2⟩
    | _ => rcases hservice with rfl | rfl <;> cases hservice'
  · simp [show d'.dispenser.failureTold = _ from htold]

/-- Somebody gives a segment up. -/
theorem Accords.passes_releases (h : d.Accords delimiter initial history taken past)
    (hhalts : d.dispenser.Halts) {handle : Nat} {s : Segment} {dispenser : Dispenser}
    (hdemand : demand.givesUp? = some handle) (hs : (d.holding handle).segment? = some s)
    (hgives : d.dispenser.GivesUp s asks dispenser service)
    (hdispenser : d'.dispenser = dispenser) : Passes d demand d' service := by
  obtain ⟨answers, left, s', hpolls, hfailed, hanswers, rfl⟩ := hgives
  obtain ⟨hhalts', htold, hmono, hfailure, hknown⟩ :=
    hpolls.listens h.tracks (h.held handle s hs).2.1 hhalts
  obtain ⟨hhalts'', hsame, htold'⟩ := hhalts'.dropSegment s'
  have hnext : demand ≠ .next := by rintro rfl; cases hdemand
  rw [← hdispenser] at hhalts'' hsame htold'
  refine ⟨hhalts'', fun error herror => hsame.trans (hmono error herror), fun hsome => ?_,
    fun htells => ?_, ?_⟩
  · rw [hsame] at hsome
    refine (hknown hsome).imp_right ?_
    rintro ⟨error, herror⟩
    exact Service.tellsFailure_of_failure? (hfailed error herror)
  · obtain ⟨error, herror⟩ := hanswers htells
    exact ⟨error, hsame.trans (hfailure error herror), hfailed error herror⟩
  · simp [hnext, htold', htold]

/-- **What every demand has to do with a failure.** -/
theorem Accords.passes (h : d.Accords delimiter initial history taken past)
    (hhalts : d.dispenser.Halts) (hserved : d.Served demand asks d' service) :
    Passes d demand d' service := by
  cases hserved with
  | supplies item =>
    exact passes_of_core hhalts (Dispenser.core_supply _ _) (Dispenser.failureTold_supply _ _) rfl
  | leaves => exact passes_of_core hhalts rfl rfl rfl
  | wraps hs => exact passes_of_core hhalts rfl rfl rfl
  | gone => exact passes_of_core hhalts rfl rfl rfl
  | offers hheld hpoll => exact h.passes_offers hhalts hpoll rfl
  | @reads handle s s' dispenser answer holding _ hs hpoll hholding hservice =>
    cases hdone : s.done with
    | false => exact h.passes_reads hhalts hs hdone hpoll hservice rfl
    | true =>
      rw [Dispenser.pollSegment_of_done hdone] at hpoll
      cases hpoll
      exact passes_of_core hhalts rfl rfl (by rcases hservice with rfl | rfl <;> rfl)
  | releases hdemand hs hgives => exact h.passes_releases hhalts hdemand hs hgives rfl

end

/-! ## Who was told -/

/-- Somebody was told that the source has failed. -/
def KnowsFailure (history : History) : Prop := ∃ event ∈ history, event.2.tellsFailure = true

/-- Whoever makes this demand was told that the source has failed. -/
def ToldFailure (demand : Demand) (history : History) : Prop :=
  ∃ service, (demand, service) ∈ history ∧ service.tellsFailure = true

theorem knowsFailure_concat {history : History} {event : Demand × Service} :
    KnowsFailure (history ++ [event]) ↔ KnowsFailure history ∨ event.2.tellsFailure = true := by
  simp only [KnowsFailure, List.mem_append, List.mem_singleton, or_and_right, exists_or,
    exists_eq_left]

theorem toldFailure_concat {history : History} {demand : Demand} {event : Demand × Service} :
    ToldFailure demand (history ++ [event]) ↔
      ToldFailure demand history ∨ (event.1 = demand ∧ event.2.tellsFailure = true) := by
  obtain ⟨demand', service⟩ := event
  simp only [ToldFailure, List.mem_append, List.mem_singleton, or_and_right, exists_or,
    Prod.mk.injEq]
  refine or_congr_right ⟨?_, ?_⟩
  · rintro ⟨_, ⟨rfl, rfl⟩, htells⟩
    exact ⟨rfl, htells⟩
  · rintro ⟨rfl, htells⟩
    exact ⟨service, ⟨rfl, rfl⟩, htells⟩

/-- **What is known of a failure, and who was told.** The dispenser knows of it when somebody was
told. A segment has come to its end, or its holder was told of the failure, and then it is over for
the holder. -/
structure Informs (history : History) (d : Distribution) : Prop where
  halts : d.dispenser.Halts
  known_iff : d.dispenser.failure.isSome = true ↔ KnowsFailure history
  failure_eq : ∀ event ∈ history, event.2.tellsFailure = true →
    event.2.failure? = d.dispenser.failure
  told_iff : d.dispenser.failureTold = true ↔ ToldFailure .next history
  told_of_done : ∀ handle s, (d.holding handle).segment? = some s → s.done = true →
    handle < d.dispenser.ended ∨ ToldFailure (.read handle) history
  done_of_told : ∀ handle, ToldFailure (.read handle) history → handle < d.handles.length ∧
    ∀ s, (d.holding handle).segment? = some s → s.done = true

theorem informs_ofSplitter (splitter : Splitter) (queue : List Supply) :
    (ofSplitter splitter queue).Informs [] where
  halts := .running rfl rfl
  known_iff := by simp [KnowsFailure, ofSplitter, Dispenser.ofSplitter]
  failure_eq := by simp
  told_iff := by simp [ToldFailure, ofSplitter, Dispenser.ofSplitter]
  told_of_done := by simp [ofSplitter, holding, Holding.segment?]
  done_of_told := by simp [ToldFailure]

section

variable {delimiter : Bytes} {initial : List Supply} {history : History} {taken : List Supply}
  {past : List Entry} {d d' : Distribution} {demand : Demand} {asks : List Dispenser.Ask}
  {service : Service}

theorem Served.length_handles_le (hserved : d.Served demand asks d' service) :
    d.handles.length ≤ d'.handles.length := by
  cases hserved with
  | offers => simp
  | reads => simp [update]
  | wraps => simp [update]
  | releases => simp [update]
  | _ => exact Nat.le_refl _

theorem Served.lt_of_tells {handle : Nat} (hserved : d.Served (.read handle) asks d' service)
    (htells : service.tellsFailure = true) : handle < d.handles.length := by
  cases hserved with
  | reads hs => exact lt_length_of_segment? hs
  | releases hdemand => cases hdemand
  | gone => cases htells

/-- A segment that has come to its end, or whose holder was told. -/
theorem Informs.told_of_done_served (h : d.Informs history)
    (haccords : d.Accords delimiter initial history taken past)
    (hserved : d.Served demand asks d' service) (hended : d.dispenser.ended ≤ d'.dispenser.ended)
    {handle : Nat} {s' : Segment} (hs' : (d'.holding handle).segment? = some s')
    (hdone : s'.done = true) :
    handle < d'.dispenser.ended ∨ ToldFailure (.read handle) (history ++ [(demand, service)]) := by
  rw [toldFailure_concat]
  cases hserved.holds haccords hs' with
  | still hs hread =>
    exact (h.told_of_done handle s' hs hdone).imp (Nat.lt_of_lt_of_le · hended) .inl
  | reads hdemand hs hopen hpoll hservice =>
    subst hdemand
    obtain ⟨hindex, hstands, -⟩ := haccords.held handle _ hs
    obtain ⟨taken', past', htakes, -⟩ := haccords.tracks.pollSegment hstands (.inner handle)
    obtain ⟨-, -, hhears⟩ :=
      haccords.tracks.pollSegment_hears hstands hopen h.halts (.inner handle)
    rw [hpoll] at htakes hhears
    rcases htakes.stands.closed hdone with hlt | hsome
    · exact .inl (by rwa [htakes.index_eq, hindex] at hlt)
    · obtain ⟨error, herror⟩ := Option.isSome_iff_exists.mp hsome
      obtain ⟨rfl, -⟩ := hhears error herror
      exact .inr (.inr ⟨rfl, by rcases hservice with rfl | rfl <;> rfl⟩)
  | offered hdemand hhandle hopen =>
    rw [hopen] at hdone
    cases hdone

/-- It stays over for a holder that was told before. -/
theorem Informs.done_of_told_before (h : d.Informs history)
    (haccords : d.Accords delimiter initial history taken past)
    (hserved : d.Served demand asks d' service) {handle : Nat}
    (htold : ToldFailure (.read handle) history) {s' : Segment}
    (hs' : (d'.holding handle).segment? = some s') : s'.done = true := by
  obtain ⟨hlt, hdone⟩ := h.done_of_told handle htold
  cases hserved.holds haccords hs' with
  | still hs hread => exact hdone s' hs
  | reads hdemand hs hopen hpoll hservice =>
    rw [hdone _ hs] at hopen
    cases hopen
  | offered hdemand hhandle hopen => omega

/-- It is over for a holder that is told now. -/
theorem Informs.done_of_told_now (h : d.Informs history)
    (haccords : d.Accords delimiter initial history taken past) {handle : Nat}
    (hserved : d.Served (.read handle) asks d' service) (htells : service.tellsFailure = true)
    {s' : Segment} (hs' : (d'.holding handle).segment? = some s') : s'.done = true := by
  cases hserved.holds haccords hs' with
  | still hs hread =>
    rw [(hread rfl).2] at htells
    cases htells
  | @reads s answer hdemand hs hopen hpoll hservice =>
    have hstands := (haccords.held handle _ hs).2.1
    obtain ⟨-, -, -, -, -, hfailed⟩ := haccords.tracks.pollSegment hstands (.inner handle)
    obtain ⟨-, -, hhears⟩ :=
      haccords.tracks.pollSegment_hears hstands hopen h.halts (.inner handle)
    rw [hpoll] at hfailed hhears
    cases answer with
    | failed error => exact (hhears error (hfailed error rfl)).2
    | _ => rcases hservice with rfl | rfl <;> cases htells
  | offered hdemand => cases hdemand

/-- The step: every demand. -/
theorem Informs.served (h : d.Informs history)
    (haccords : d.Accords delimiter initial history taken past)
    (hserved : d.Served demand asks d' service) (hended : d.dispenser.ended ≤ d'.dispenser.ended) :
    d'.Informs (history ++ [(demand, service)]) := by
  obtain ⟨hhalts, hmono, hknown, hfailure, htold⟩ := haccords.passes h.halts hserved
  refine ⟨hhalts, ?_, fun event hevent htells => ?_, ?_,
    fun handle s' => h.told_of_done_served haccords hserved hended, fun handle htells => ?_⟩
  · rw [knowsFailure_concat, ← h.known_iff]
    refine ⟨hknown, ?_⟩
    rintro (hbefore | htells)
    · obtain ⟨error, herror⟩ := Option.isSome_iff_exists.mp hbefore
      rw [hmono error herror, Option.isSome_some]
    · obtain ⟨error, herror, -⟩ := hfailure htells
      rw [herror, Option.isSome_some]
  · rcases List.mem_append.mp hevent with hold | hnew
    · have hsame := h.failure_eq event hold htells
      obtain ⟨error, herror⟩ := Option.isSome_iff_exists.mp (h.known_iff.mpr ⟨event, hold, htells⟩)
      rw [hsame, herror, hmono error herror]
    · rw [List.mem_singleton] at hnew
      subst hnew
      obtain ⟨error, herror, hservice⟩ := hfailure htells
      rw [hservice, herror]
  · rw [htold, toldFailure_concat, h.told_iff]
  · rcases toldFailure_concat.mp htells with hbefore | ⟨hdemand, hnow⟩
    · exact ⟨Nat.lt_of_lt_of_le (h.done_of_told handle hbefore).1 hserved.length_handles_le,
        fun s' => h.done_of_told_before haccords hserved hbefore⟩
    · have hdemand : demand = .read handle := hdemand
      subst hdemand
      exact ⟨Nat.lt_of_lt_of_le (hserved.lt_of_tells hnow) hserved.length_handles_le,
        fun s' => h.done_of_told_now haccords hserved hnow⟩

/-- **Every run.** -/
theorem Informs.run (h : d.Informs history)
    (haccords : d.Accords delimiter initial history taken past) (demands : List Demand) :
    (d.run demands).1.Informs (history ++ d.history demands) := by
  induction demands generalizing d history taken past with
  | nil => simpa [Distribution.history, Distribution.run] using h
  | cons demand rest ih =>
    obtain ⟨taken', past', haccords', hgrows⟩ := haccords.serve demand
    have hnext := h.served haccords (d.served_serve demand) hgrows.ended_le
    have hrun := ih hnext haccords'
    rwa [List.append_assoc, List.singleton_append] at hrun

end

end Distribution

end Switchboard
