import Switchboard.Proofs.Segment.Asking
set_option autoImplicit false

/-! # What a demand does

However a segment is given up, this comes down to polls of it and a drop (`Dispenser.GivesUp`).
`Distribution.Served` says of every demand what serving it does to the dispenser and to the handles,
and which questions to the source come of it, so that what holds of a run is shown by its few
cases. -/

namespace Switchboard

/-- The failure of the source that somebody is told of. -/
def Service.failure? : Service → Option SplitError
  | .outer (.failed error) => some error
  | .chunk (.failed error) => some error
  | .frame (.failed (.split error)) => some error
  | .measured (.failed error) => some error
  | .skimmed (.error (.split error)) => some error
  | _ => none

theorem Service.tellsFailure_of_failure? {service : Service} {error : SplitError}
    (h : service.failure? = some error) : service.tellsFailure = true := by
  unfold failure? at h
  split at h <;> first | rfl | cases h

/-- Somebody is told to wait. -/
def Service.tellsToWait : Service → Bool
  | .outer .pending => true
  | .chunk .pending => true
  | .frame .pending => true
  | .measured .pending => true
  | _ => false

namespace Dispenser

/-! ## Polling on -/

/-- A segment is polled any number of times by somebody who does not come back, with these
answers. -/
inductive PollsOn :
    Dispenser → Segment → List Ask → List InnerPoll → Dispenser → Segment → Prop where
  | refl (d : Dispenser) (s : Segment) : PollsOn d s [] [] d s
  | poll {d d₁ d' : Dispenser} {s s₁ s' : Segment} {answer : InnerPoll} {asks : List Ask}
      {answers : List InnerPoll} (hpoll : d.pollSegment .nobody s = (d₁, s₁, answer))
      (hrest : PollsOn d₁ s₁ asks answers d' s') :
      PollsOn d s (d.asksOfSegment .nobody s ++ asks) (answer :: answers) d' s'

theorem pollsOn_measureWithin (bound : Nat) (d : Dispenser) (s : Segment) (size : Nat) :
    ∃ answers, PollsOn d s (asksOfMeasure bound d s) answers (measureWithin bound d s size).1
        (measureWithin bound d s size).2.1 ∧
      ∀ error, .failed error ∈ answers ↔ (measureWithin bound d s size).2.2 = .failed error := by
  induction bound generalizing d s size with
  | zero => exact ⟨[], .refl d s, by simp [measureWithin]⟩
  | succ bound ih =>
    rw [measureWithin, asksOfMeasure]
    generalize hpoll : d.pollSegment .nobody s = result
    obtain ⟨d₁, s₁, answer⟩ := result
    cases answer with
    | chunk bytes =>
      obtain ⟨answers, hpolls, hfailed⟩ := ih d₁ s₁ (size + bytes.length)
      exact ⟨.chunk bytes :: answers, .poll hpoll hpolls, by simpa using hfailed⟩
    | failed error => exact ⟨_, .poll hpoll (.refl d₁ s₁), by simp [eq_comm]⟩
    | pending => exact ⟨_, .poll hpoll (.refl d₁ s₁), by simp⟩
    | ended => exact ⟨_, .poll hpoll (.refl d₁ s₁), by simp⟩

theorem pollsOn_skimWithin (limit fuel : Nat) (d : Dispenser) (s : Segment) (size : Nat)
    {result : Except BodyError Nat} {d' : Dispenser} {s' : Segment}
    (hskim : Body.skimWithin (pollAsBody .nobody) limit fuel size (d, s) = some (result, d', s')) :
    ∃ answers, PollsOn d s (asksOfSkim limit fuel size d s) answers d' s' ∧
      (∀ error, .failed error ∈ answers → result = .error (.split error)) ∧
      ∀ error, result = .error error → ∃ error, .failed error ∈ answers := by
  induction fuel generalizing d s size with
  | zero =>
    rw [Body.skimWithin] at hskim
    split at hskim
    · next hlimit =>
      cases hskim
      rw [asksOfSkim, if_pos hlimit]
      exact ⟨[], .refl _ _, by simp⟩
    · cases hskim
  | succ fuel ih =>
    rw [Body.skimWithin, pollAsBody] at hskim
    rw [asksOfSkim]
    split at hskim
    · next hlimit =>
      cases hskim
      rw [if_pos hlimit]
      exact ⟨[], .refl _ _, by simp⟩
    · next hlimit =>
      rw [if_neg hlimit]
      generalize hpoll : d.pollSegment .nobody s = polled at hskim ⊢
      obtain ⟨d₁, s₁, answer⟩ := polled
      cases answer with
      | chunk bytes =>
        obtain ⟨answers, hpolls, hfailed⟩ := ih d₁ s₁ (size + bytes.length) hskim
        exact ⟨.chunk bytes :: answers, .poll hpoll hpolls, by simpa using hfailed⟩
      | failed error =>
        cases hskim
        exact ⟨_, .poll hpoll (.refl _ _), by simp⟩
      | pending =>
        cases hskim
        exact ⟨_, .poll hpoll (.refl _ _), by simp⟩
      | ended =>
        cases hskim
        exact ⟨_, .poll hpoll (.refl _ _), by simp⟩

/-! ## Giving a segment up -/

/-- A segment is polled any number of times and dropped, for this service. It tells of a failure
what the polls were told. -/
def GivesUp (d : Dispenser) (s : Segment) (asks : List Ask) (d' : Dispenser) (service : Service) :
    Prop :=
  ∃ answers left s', PollsOn d s asks answers left s' ∧
    (∀ error, .failed error ∈ answers → service.failure? = some error) ∧
    (service.tellsFailure = true → ∃ error, .failed error ∈ answers) ∧ d' = left.dropSegment s'

theorem givesUp_measureSegment (d : Dispenser) (s : Segment) :
    d.GivesUp s (asksOfMeasure (d.chunkBound + 1) d s) (d.measureSegment s).1
      (.measured (d.measureSegment s).2) := by
  obtain ⟨answers, hpolls, hfailed⟩ := pollsOn_measureWithin (d.chunkBound + 1) d s 0
  replace hfailed : ∀ error, .failed error ∈ answers ↔ (d.measureSegment s).2 = .failed error :=
    hfailed
  refine ⟨answers, _, _, hpolls, fun error herror => ?_, fun htells => ?_, rfl⟩
  · rw [(hfailed error).mp herror, Service.failure?]
  · cases hmeasured : (d.measureSegment s).2 with
    | failed error => exact ⟨error, (hfailed error).mpr hmeasured⟩
    | size n =>
      rw [hmeasured] at htells
      cases htells
    | pending =>
      rw [hmeasured] at htells
      cases htells

theorem givesUp_skimSegment (d : Dispenser) (s : Segment) (limit : Nat) :
    d.GivesUp s (d.asksOfSkimming s limit) (d.skimSegment s limit).1
      (.skimmed (d.skimSegment s limit).2) := by
  rw [skimSegment, asksOfSkimming]
  cases hskim : Body.skimWithin (pollAsBody .nobody) limit (d.chunkBound + 1) 0 (d, s) with
  | none => exact ⟨[], d, s, .refl d s, by simp, by rintro ⟨⟩, rfl⟩
  | some result =>
    obtain ⟨result, left, s'⟩ := result
    obtain ⟨answers, hpolls, hfailed, herrors⟩ := pollsOn_skimWithin limit _ d s 0 hskim
    refine ⟨answers, left, s', hpolls, fun error herror => ?_, fun htells => ?_, rfl⟩
    · simp only [hfailed error herror, Service.failure?]
    · cases result with
      | error error => exact herrors error rfl
      | ok n => cases htells

theorem givesUp_dropSegment (d : Dispenser) (s : Segment) :
    d.GivesUp s [] (d.dropSegment s) .nothing :=
  ⟨[], d, s, .refl d s, by simp, nofun, rfl⟩

/-! ## A segment that has ended -/

section

variable {d d' : Dispenser} {s s' : Segment} {asks : List Ask} {answers : List InnerPoll}

theorem pollSegment_of_done (hdone : s.done = true) (caller : Caller) :
    d.pollSegment caller s = (d, s, .ended) := by
  rw [pollSegment, if_pos hdone]

theorem dropSegment_of_done (hdone : s.done = true) : d.dropSegment s = d := by
  rw [dropSegment, if_pos hdone]

theorem PollsOn.of_done (h : PollsOn d s asks answers d' s') (hdone : s.done = true) :
    d' = d ∧ s' = s := by
  induction h with
  | refl d s => exact ⟨rfl, rfl⟩
  | poll hpoll hrest ih =>
    rw [pollSegment_of_done hdone] at hpoll
    cases hpoll
    exact ih hdone

theorem GivesUp.of_done {service : Service} (h : d.GivesUp s asks d' service)
    (hdone : s.done = true) : d' = d := by
  obtain ⟨answers, left, s', hpolls, -, -, rfl⟩ := h
  obtain ⟨rfl, rfl⟩ := hpolls.of_done hdone
  exact dropSegment_of_done hdone

end

end Dispenser

/-! ## The demands of a distribution -/

namespace Distribution

open Dispenser (Ask)

/-- The questions to the source when a demand is served. -/
def asks (d : Distribution) : Demand → List Ask
  | .supply _ => []
  | .next => if d.outerHeld then d.dispenser.asksOfOuter .outer else []
  | .leave => []
  | .read handle =>
    match (d.holding handle).segment? with
    | some s => d.dispenser.asksOfSegment (.inner handle) s
    | none => []
  | .measure handle =>
    match (d.holding handle).segment? with
    | some s => Dispenser.asksOfMeasure (d.dispenser.chunkBound + 1) d.dispenser s
    | none => []
  | .skim handle limit =>
    match (d.holding handle).segment? with
    | some s => d.dispenser.asksOfSkimming s limit
    | none => []
  | .toBody _ => []
  | .drop _ => []

/-- The questions to the source in a run. -/
def asksIn : Distribution → List Demand → List Ask
  | _, [] => []
  | d, demand :: rest => d.asks demand ++ (d.serve demand).1.asksIn rest

/-- **What serving a demand does**, and which questions to the source come of it. -/
inductive Served (d : Distribution) : Demand → List Ask → Distribution → Service → Prop where
  | supplies (item : Supply) :
      Served d (.supply item) [] { d with dispenser := d.dispenser.supply item } .nothing
  | leaves : Served d .leave [] { d with outerHeld := false } .nothing
  | offers {dispenser : Dispenser} {answer : OuterPoll} (hheld : d.outerHeld = true)
      (hpoll : d.dispenser.pollOuter .outer = (dispenser, answer)) :
      Served d .next (d.dispenser.asksOfOuter .outer)
        { d with dispenser := dispenser,
                 handles := d.handles ++ (Service.outer answer).segment?.toList.map .segment }
        (.outer answer)
  | reads {handle : Nat} {s s' : Segment} {dispenser : Dispenser} {answer : InnerPoll}
      {holding : Holding} {service : Service} (hs : (d.holding handle).segment? = some s)
      (hpoll : d.dispenser.pollSegment (.inner handle) s = (dispenser, s', answer))
      (hholding : holding.segment? = some s')
      (hservice : service = .chunk answer ∨ service = .frame (polledAs answer)) :
      Served d (.read handle) (d.dispenser.asksOfSegment (.inner handle) s)
        (d.update dispenser handle holding) service
  | wraps {handle : Nat} {s : Segment} (hs : (d.holding handle).segment? = some s) :
      Served d (.toBody handle) [] (d.update d.dispenser handle (.body s)) .nothing
  | releases {demand : Demand} {handle : Nat} {s : Segment} {asks : List Ask}
      {dispenser : Dispenser} {service : Service} (hdemand : demand.givesUp? = some handle)
      (hs : (d.holding handle).segment? = some s)
      (hgives : d.dispenser.GivesUp s asks dispenser service) :
      Served d demand asks (d.update dispenser handle .released) service
  /-- Whoever makes the demand is not there any more. -/
  | gone {demand : Demand} (hdemand : suppliedIn [demand] = [])
      (hreads : ∀ handle, demand = .read handle → (d.holding handle).segment? = none) :
      Served d demand [] d .gone

theorem served_serve (d : Distribution) (demand : Demand) :
    Served d demand (d.asks demand) (d.serve demand).1 (d.serve demand).2 := by
  cases demand with
  | supply item => exact .supplies item
  | leave => exact .leaves
  | next =>
    rw [serve, asks]
    cases hheld : d.outerHeld with
    | false =>
      rw [next_of_left hheld, if_neg Bool.false_ne_true]
      exact .gone rfl (by rintro _ ⟨⟩)
    | true =>
      rw [next_of_held hheld, if_pos rfl]
      exact .offers hheld rfl
  | read handle =>
    rw [serve, asks, read]
    cases hholding : d.holding handle with
    | released => exact .gone rfl (by rintro _ ⟨⟩; rw [hholding]; rfl)
    | segment s => exact .reads (by rw [hholding]; rfl) rfl rfl (.inl rfl)
    | body s =>
      simp only [pollAsBody_eq]
      exact .reads (by rw [hholding]; rfl) rfl rfl (.inr rfl)
  | toBody handle =>
    rw [serve, asks]
    cases hs : (d.holding handle).segment? with
    | none => exact .gone rfl (by rintro _ ⟨⟩)
    | some s => exact .wraps hs
  | measure handle =>
    rw [serve, asks, consume]
    cases hs : (d.holding handle).segment? with
    | none => exact .gone rfl (by rintro _ ⟨⟩)
    | some s => exact .releases rfl hs (d.dispenser.givesUp_measureSegment s)
  | skim handle limit =>
    rw [serve, asks, consume]
    cases hs : (d.holding handle).segment? with
    | none => exact .gone rfl (by rintro _ ⟨⟩)
    | some s => exact .releases rfl hs (d.dispenser.givesUp_skimSegment s limit)
  | drop handle =>
    rw [serve, asks, consume]
    cases hs : (d.holding handle).segment? with
    | none => exact .gone rfl (by rintro _ ⟨⟩)
    | some s => exact .releases rfl hs (d.dispenser.givesUp_dropSegment s)

/-! ## Who holds what -/

/-- Where a segment comes from that is held under a handle after a demand: it was held before, and
maybe read, or it was handed out. -/
inductive Holds (d : Distribution) (demand : Demand) (d' : Distribution) (service : Service)
    (handle : Nat) (s' : Segment) : Prop where
  | still (hs : (d.holding handle).segment? = some s')
      (hread : demand = .read handle → s'.done = true ∧ service.tellsFailure = false)
  | reads {s : Segment} {answer : InnerPoll} (hdemand : demand = .read handle)
      (hs : (d.holding handle).segment? = some s) (hopen : s.done = false)
      (hpoll : d.dispenser.pollSegment (.inner handle) s = (d'.dispenser, s', answer))
      (hservice : service = .chunk answer ∨ service = .frame (polledAs answer))
  | offered (hdemand : demand = .next) (hhandle : handle = d.handles.length)
      (hopen : s'.done = false)

section

variable {delimiter : Bytes} {initial : List Supply} {history : History} {taken : List Supply}
  {past : List Entry} {d d' : Distribution} {demand : Demand} {asks : List Ask} {service : Service}

theorem Served.holds (hserved : d.Served demand asks d' service)
    (haccords : d.Accords delimiter initial history taken past) {handle : Nat} {s' : Segment}
    (hs' : (d'.holding handle).segment? = some s') : Holds d demand d' service handle s' := by
  cases hserved with
  | supplies item => exact .still hs' (by rintro ⟨⟩)
  | leaves => exact .still hs' (by rintro ⟨⟩)
  | @offers dispenser answer hheld hpoll =>
    obtain ⟨taken', past', -, hoffers⟩ := haccords.tracks.pollOuter .outer
    rw [hpoll] at hoffers
    rcases Nat.lt_or_ge handle d.handles.length with hlt | hge
    · rw [holding, List.getElem?_append_left hlt] at hs'
      exact .still hs' (by rintro ⟨⟩)
    · rw [holding, List.getElem?_append_right hge] at hs'
      rcases issued_of_step hoffers.step with ⟨hnothing, -⟩ | ⟨hnext, -⟩
      · simp [hnothing, Holding.segment?] at hs'
      · rw [hnext] at hs'
        cases hoffset : handle - d.handles.length with
        | succ offset => simp [hoffset, Holding.segment?] at hs'
        | zero =>
          have hs' : ⟨d.dispenser.issued, false⟩ = s' := by
            simpa [hoffset, Holding.segment?] using hs'
          exact .offered rfl (by omega) (by rw [← hs'])
  | @reads other s t dispenser answer holding _ hs hpoll hholding hservice =>
    by_cases hhandle : handle = other
    · subst hhandle
      rw [holding_update_self (lt_length_of_segment? hs), hholding, Option.some.injEq] at hs'
      subst hs'
      cases hdone : s.done with
      | false => exact .reads rfl hs hdone hpoll hservice
      | true =>
        rw [Dispenser.pollSegment_of_done hdone] at hpoll
        cases hpoll
        refine .still hs fun _ => ⟨hdone, ?_⟩
        rcases hservice with rfl | rfl <;> rfl
    · rw [holding_update_ne hhandle] at hs'
      exact .still hs' fun hread => absurd (Demand.read.inj hread).symm hhandle
  | @wraps other s hs =>
    by_cases hhandle : handle = other
    · subst hhandle
      rw [holding_update_self (lt_length_of_segment? hs)] at hs'
      cases hs'
      exact .still hs (by rintro ⟨⟩)
    · rw [holding_update_ne hhandle] at hs'
      exact .still hs' (by rintro ⟨⟩)
  | @releases _ other s _ dispenser _ hdemand hs hgives =>
    by_cases hhandle : handle = other
    · subst hhandle
      rw [holding_update_self (lt_length_of_segment? hs)] at hs'
      cases hs'
    · rw [holding_update_ne hhandle] at hs'
      exact .still hs' fun hread => by rw [hread] at hdemand; cases hdemand
  | gone hdemand hreads =>
    exact .still hs' fun hread => by rw [hreads handle hread] at hs'; cases hs'

end

end Distribution

end Switchboard
