import Switchboard.Proofs.Delivery.Threads
set_option autoImplicit false

/-! # What a broadcast makes of its lanes

A broadcast with a policy that is a function of the head, seen from the runs of its lanes. The
connection is given one response at most, the choice over what the lanes report, and the main task
comes to its end only after that (`Run.Fulfils.delivered_eq`, `Run.Fulfils.delivered_of_ending`).
When everything has come to rest and each lane has let something be seen, all slots have reported,
and so the response was given (`Run.Fulfils.allTold_of_rests`). All of that holds under every
schedule, and whatever the connection does.

The broadcast is a `GroupResponse` that is being sent; what its lanes report is what its
`Aggregator` hears. -/

namespace Switchboard

open Contest (tell? tellFirst AllTold)
open Race (Completes Chooses chosen)

/-! ## The response -/

theorem Policy.answers_ofBool (accepts : ResponseHead → Bool) (told : List (Option Report)) :
    (Policy.ofBool accepts).Answers told := fun reply _ => ⟨accepts reply.head, rfl⟩

section

variable {accepts : ResponseHead → Bool} {told : List (Option Report)} {delivered : List Reply}
  {ending : Option Ending} {c c' : Contest} {lanes : List Sending}

/-- The connection was given nothing while the race is undecided, and the choice after that. -/
theorem Underway.delivered_eq (h : Underway (Policy.ofBool accepts) told delivered ending c lanes) :
    (c.race.undecided = true ∧ c.replay = none ∧ c.verdict = .open ∧ delivered = []) ∨
      (c.race.undecided = false ∧ ∃ winner, delivered = [chosen winner] ∧
        ∀ results, Completes told results → Chooses accepts results winner (chosen winner)) := by
  have hcourse := h.holds.course
  have hpolicy := h.policy_eq
  generalize c.race.undecided = undecided at hcourse ⊢
  generalize c.replay = replay at hcourse ⊢
  generalize c.verdict = verdict at hcourse ⊢
  cases hcourse with
  | racing hopen => exact .inl ⟨rfl, rfl, rfl, rfl⟩
  | replaying hchooses hlosers => exact .inr ⟨rfl, _, rfl, hchooses accepts hpolicy⟩
  | done hverdict hchooses => exact .inr ⟨rfl, _, rfl, hchooses accepts hpolicy⟩

/-- A response that is on its way or over was given to the connection. -/
theorem Underway.delivered_ne_nil
    (h : Underway (Policy.ofBool accepts) told delivered ending c lanes)
    (hgiven : c.replay ≠ none ∨ c.verdict ≠ .open ∨ c.race.undecided = false) :
    delivered ≠ [] := by
  rcases h.delivered_eq with ⟨hundecided, hreplay, hverdict, -⟩ | ⟨-, winner, hdelivered, -⟩
  · rcases hgiven with hne | hne | hdecided
    · exact absurd hreplay hne
    · exact absurd hverdict hne
    · rw [hundecided] at hdecided
      cases hdecided
  · rw [hdelivered]
    exact List.cons_ne_nil _ _

theorem Underway.delivered_of_allTold
    (h : Underway (Policy.ofBool accepts) told delivered ending c lanes) (hall : AllTold told) :
    delivered ≠ [] := by
  refine h.delivered_ne_nil (.inr (.inr (h.holds.decided_of_answers hall ?_)))
  rw [h.policy_eq]
  exact Policy.answers_ofBool accepts told

/-! ## The main task -/

/-- The main task comes near its end only after the connection has been given a response. -/
def MainPhase.Earned (delivered : List Reply) : MainPhase → Prop
  | .spawning panic => panic = none
  | .leaving => delivered ≠ []
  | .panicking _ => delivered ≠ []
  | .gone => delivered ≠ []
  | _ => True

theorem MainPhase.Earned.mono {main : MainPhase} (h : main.Earned delivered) (more : List Reply) :
    main.Earned (delivered ++ more) := by
  have hne : delivered ≠ [] → delivered ++ more ≠ [] := by
    intro hne hnil
    exact hne (List.append_eq_nil_iff.mp hnil).1
  cases main with
  | leaving => exact hne h
  | panicking message => exact hne h
  | gone => exact hne h
  | _ => exact h

/-- Nothing panics when the slot of a lane is closed. -/
theorem Contest.Holds.closeSlot_ne_unwinds (h : c.Holds told delivered)
    (hpolicy : c.policy = Policy.ofBool accepts) (owner : Option Nat) {index : Nat}
    (hlt : index < c.lanes.length) (result : Delivery) (message : String) :
    (c.closeSlot owner index result).2.2 ≠ .answers (.unwinds message) := by
  unfold Contest.closeSlot
  split
  · exact nofun
  · next hreported =>
    have hindex := h.told_eq_none hlt (eq_false_of_ne_true hreported)
    obtain ⟨htakes, -⟩ := h.takes hindex owner (.error (Contest.failureOf result))
    intro hunwinds
    rw [hunwinds] at htakes
    cases htakes with
    | breaks hbefore hafter hreplay hpanicked =>
      rw [hpolicy] at hpanicked
      exact Race.standingFrom_ne_panicked (Policy.answers_ofBool accepts _) 0 message hpanicked

/-- **Each move keeps it.** -/
theorem MainPhase.Earned.moves
    (h : Underway (Policy.ofBool accepts) told delivered ending c lanes)
    (hearned : c.main.Earned delivered) {choice : Choice} {going : Option (Nat × List Choice)}
    {report : Option (Nat × Report)} {gives : List Reply} {ends : Option Ending}
    (hmoves : Moves c lanes choice going report gives ends c') :
    c'.main.Earned (delivered ++ gives) := by
  have hkept := hearned.mono gives
  cases hmoves with
  | mainRests hrests => exact hkept
  | laneRests hrests => exact hkept
  | ignores hreplay => exact hkept
  | runs hfree hlane hdelivered hending => exact hkept
  | panics hfree hlane hsignal => exact hkept
  | main hgoes =>
    rw [List.append_nil]
    cases hgoes with
    | spawns hmain =>
      unfold Contest.afterSpawning
      split <;> trivial
    | breaks hmain =>
      rw [hmain] at hearned
      cases hearned
    | notices hmain hverdict => exact h.delivered_ne_nil (.inr (.inl hverdict))
    | leaves hmain =>
      rw [hmain] at hearned
      exact hearned
    | panics hmain =>
      rw [hmain] at hearned
      exact hearned
    | _ => trivial
  | @closes index message cause closed hmain hown hlt hphase hclosed =>
    have hsame := Contest.sameTasks_of_closeSlot hclosed
    have hholds : Contest.Holds told delivered { c with main := .closing (index + 1) } :=
      h.holds.congr rfl rfl rfl rfl rfl
    have hpanics := hholds.closeSlot_ne_unwinds h.policy_eq none (h.length_eq ▸ hlt) (.error cause)
    rw [hclosed] at hpanics
    have hmain' : closed.1.main.Earned (delivered ++ closed.2.2.delivered) := by
      rw [hsame.main_eq]
      trivial
    obtain ⟨c', notes, reaction⟩ := closed
    rcases reaction with (_ | message | _) | _
    · exact hmain'
    · exact absurd rfl (hpanics message)
    · exact hmain'
    · exact hmain'
  | @delivers index path lane reply received hfree hlane hsignal hreceived =>
    have hsame := Contest.sameTasks_of_receive hreceived
    rw [hsame.main_eq]
    exact hkept
  | @returns index lane result closed hfree hlane hsignal hclosed =>
    have hsame := Contest.sameTasks_of_closeSlot hclosed
    have hmain : (closed.1.laneTold index closed.2.2).main = closed.1.main := by
      rcases closed.2.2 with (_ | _ | _) | _ <;> rfl
    rw [hmain, hsame.main_eq]
    exact hkept
  | @answersMain response losers concluded hreplay hconcluded =>
    have hconcludes := Contest.concludes_of_conclude hconcluded
    rw [← hconcludes.main_eq] at hkept
    obtain ⟨c', notes, answer⟩ := concluded
    cases answer with
    | unwinds message =>
      rw [List.append_nil]
      exact h.delivered_ne_nil (.inl (by simp [hreplay]))
    | result result => exact hkept
    | never => exact hkept
  | @answersReplay response index losers concluded hreplay hconcluded hphase =>
    have hconcludes := Contest.concludes_of_conclude hconcluded
    rw [← hconcludes.main_eq] at hkept
    obtain ⟨c', notes, answer⟩ := concluded
    cases answer <;> exact hkept
  | @answersLane response index losers concluded hreplay hconcluded hphase =>
    have hconcludes := Contest.concludes_of_conclude hconcluded
    rw [hconcludes.main_eq]
    exact hkept

end

/-! ## Runs -/

/-- **A run of a broadcast of these sendings**, each of which has gone on by these choices of its
own, when the slots have told this. -/
def Run.Fulfils (accepts : ResponseHead → Bool) (starts : List Sending) (own : Nat → List Choice)
    (told : List (Option Report)) (r : Run) : Prop :=
  ∃ c lanes, r.sending = .broadcast c lanes ∧
    Underway (Policy.ofBool accepts) told r.delivered r.ending c lanes ∧
    Threads starts own told c.phaseOf lanes ∧ c.main.Earned r.delivered ∧
    told.length = starts.length

section

variable {accepts : ResponseHead → Bool} {starts : List Sending} {own : Nat → List Choice}
  {told : List (Option Report)} {r : Run}

/-- The broadcast of all sendings when it begins. -/
theorem Run.fulfils_start (accepts : ResponseHead → Bool) {starts : List Sending} {race : Race}
    (hrace : Race.ofSlots? starts.length = .ok race) (notes : List Note) :
    Run.Fulfils accepts starts (fun _ => []) (List.replicate starts.length none)
      ⟨.broadcast (.start (Policy.ofBool accepts) race starts.length none) starts, notes, [],
        none⟩ := by
  have hphase : ∀ index < starts.length,
      (Contest.start (Policy.ofBool accepts) race starts.length none).phaseOf index = .running :=
    fun index hlt => Contest.phaseOf_start _ race hlt
  refine ⟨_, starts, rfl, ?_, threads_start starts hphase, rfl, List.length_replicate⟩
  refine ⟨Contest.holds_start _ (Nat.le_refl _) hrace none, ⟨fun index hindex => ?_, nofun⟩,
    .spawning fun _ => ?_, ?_, rfl⟩
  · by_cases hlt : index < starts.length
    · rw [hphase index hlt] at hindex
      cases hindex
    · rw [Contest.phaseOf, List.getElem?_eq_none (by simp [Contest.start]; omega)] at hindex
      cases hindex
  · simp [Contest.start]
  · simp [Contest.start]

/-- **Each choice keeps it.** -/
theorem Run.Fulfils.choose (h : r.Fulfils accepts starts own told) (choice : Choice) :
    (r.choose choice).Fulfils accepts starts
      (fun index => own index ++ r.sending.goingOf choice index)
      (tell? told (r.sending.slotReport? choice)) := by
  obtain ⟨c, lanes, hsending, hunderway, hthreads, hearned, hlength⟩ := h
  obtain ⟨c', hnext, hmoves⟩ := Sending.moves_after c lanes choice
  refine ⟨c', _, by rw [Run.sending_choose, hsending, hnext], ?_, ?_, ?_,
    (Contest.length_tell? _ _).trans hlength⟩
  · rw [Run.delivered_choose, Run.ending_choose, hsending]
    exact hunderway.moves hmoves
  · rw [hsending]
    exact hthreads.moves hunderway.length_eq hmoves
  · rw [Run.delivered_choose, hsending]
    exact hearned.moves hunderway hmoves

/-- **Each run keeps it**, whatever its choices. -/
theorem Run.Fulfils.choices (h : r.Fulfils accepts starts own told) (list : List Choice) :
    (r.choices list).Fulfils accepts starts
      (fun index => own index ++ r.sending.ownIn list index)
      ((Sending.reportsIn r.sending list).foldl tellFirst told) := by
  -- On the choices, with what was told and how the lanes have gone on so far.
  induction list generalizing r told own with
  | nil => simpa [Sending.ownIn, Sending.reportsIn, Run.choices] using h
  | cons choice rest ih =>
    have hnext := ih (h.choose choice)
    rw [Sending.foldl_reportsIn_cons, ← Run.sending_choose]
    simp only [Sending.ownIn, ← List.append_assoc]
    rw [← Run.sending_choose]
    exact hnext

/-- **The connection is given one response at most**, the choice over what the lanes report. -/
theorem Run.Fulfils.delivered_eq (h : r.Fulfils accepts starts own told) :
    r.delivered = [] ∨ ∃ winner, r.delivered = [chosen winner] ∧
      ∀ results, Completes told results → Chooses accepts results winner (chosen winner) := by
  obtain ⟨c, lanes, hsending, hunderway, -⟩ := h
  rcases hunderway.delivered_eq with ⟨-, -, -, hdelivered⟩ | ⟨-, hdelivered⟩
  · exact .inl hdelivered
  · exact .inr hdelivered

/-- The main task comes to its end only after that. -/
theorem Run.Fulfils.delivered_of_ending (h : r.Fulfils accepts starts own told)
    (hending : r.ending ≠ none) : r.delivered ≠ [] := by
  obtain ⟨c, lanes, hsending, hunderway, -, hearned, -⟩ := h
  have hmain : c.main = .gone :=
    Classical.byContradiction fun hmain => hending (hunderway.main.ending_eq hmain)
  rw [hmain] at hearned
  exact hearned

/-! ## At rest -/

/-- The main task of a broadcast at rest has started its lanes. -/
theorem Contest.MainRests.ne_spawning {c : Contest} (h : c.MainRests) (panic : Option String) :
    c.main ≠ .spawning panic := by
  intro hmain
  cases h with
  | lanes hmain' hseen hover => rw [hmain] at hmain'; cases hmain'
  | replay hmain' hown => rw [hmain] at hmain'; cases hmain'
  | verdict hmain' hverdict => rw [hmain] at hmain'; cases hmain'
  | gone hmain' => rw [hmain] at hmain'; cases hmain'

/-- A lane that runs is at rest with its broadcast. -/
theorem Sending.Rests.running {c : Contest} {lanes : List Sending}
    (h : (broadcast c lanes).Rests) {index : Nat} {lane : Sending}
    (hlane : lanes[index]? = some lane) (hphase : c.phaseOf index = .running) : lane.Rests := by
  refine h.lane hlane fun path => ?_
  have hstarted := h.main.ne_spawning
  unfold laneBlocks
  split
  · next panic hmain => exact absurd hmain (hstarted panic)
  · rw [hphase]

theorem Run.Fulfils.delivered_of_allTold (h : r.Fulfils accepts starts own told)
    (hall : AllTold told) : r.delivered ≠ [] := by
  obtain ⟨c, lanes, hsending, hunderway, -⟩ := h
  exact hunderway.delivered_of_allTold hall

/-- **At rest each slot has reported**, if each lane that is at rest or has come to its end has let
something be seen. -/
theorem Run.Fulfils.allTold_of_rests (h : r.Fulfils accepts starts own told)
    (hrests : r.sending.Rests)
    (hreports : ∀ (index : Nat) (start : Sending), starts[index]? = some start →
      (start.afterAll (own index)).Rests ∨ ((Run.start start).choices (own index)).ending ≠ none →
        start.reportIn (own index) ≠ none)
    (hends : ∀ (index : Nat) (start : Sending), starts[index]? = some start →
      ¬ start.EndsUntold (own index)) : AllTold told := by
  obtain ⟨c, lanes, hsending, hunderway, hthreads, -, hlength⟩ := h
  rw [hsending] at hrests
  intro index hnone
  have hlt : index < starts.length := hlength ▸ (List.getElem?_eq_some_iff.mp hnone).1
  have hstart : starts[index]? = some starts[index] := List.getElem?_eq_getElem hlt
  obtain ⟨htold, hrunning⟩ := hthreads.thread index _ hstart
  have hlane := hthreads.lane_eq index
  rw [hstart, Option.map_some] at hlane
  -- The lane is at rest, or it is over.
  have hstate : (starts[index].afterAll (own index)).Rests ∨
      ((Run.start starts[index]).choices (own index)).ending ≠ none := by
    by_cases hphase : c.phaseOf index = .running
    · exact .inl (hrests.running hlane hphase)
    · exact .inr fun hending => hphase (hrunning.mpr hending)
  rcases htold with htold | huntold
  · rw [hnone, Option.some.injEq] at htold
    exact hreports index _ hstart hstate htold.symm
  · exact hends index _ hstart huntold

end

end Switchboard
