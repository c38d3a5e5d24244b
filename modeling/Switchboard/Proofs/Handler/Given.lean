import Switchboard.Proofs.Handler.Compound
set_option autoImplicit false

/-! # What the lanes of a broadcast give

A lane gives its slot a response, or none: it may return without one, or panic before it has one.
All that the connection can tell of a lane is which of these it is. `Sending.MayGive` says what a
lane may still come to give, and a broadcast owes its connection the best of what its lanes give
(`Sending.serves_opening`), whatever the schedule.

A lane that panics is heard of later than one that returns: its slot is closed for it when all lanes
have come to their ends. So it is only then that the connection is certain to be given a response
(`Run.Fulfils.delivered_of_ends`). -/

namespace Switchboard

open Contest (toldAfter LosersCancel)
open Race (Completes Chooses losers pick)

/-! ## The best response -/

namespace Race

/-- The first of these responses that the policy accepts, or the canonical 404. -/
def best (accepts : ResponseHead → Bool) (given : List (Option Reply)) : Reply :=
  (given.findSome? (·.filter fun reply => accepts reply.head)).getD Reply.notFound

/-- The choice over all results is the best of the responses among them. -/
theorem pick_eq_best (accepts : ResponseHead → Bool) (results : List Report) :
    pick accepts results = best accepts (results.map (·.toOption)) := by
  have hsame : acceptedOf? accepts =
      (fun reply => reply.filter fun reply => accepts reply.head) ∘ (·.toOption) := by
    funext result
    cases result with
    | error cause => rfl
    | ok reply =>
      rw [acceptedOf?, Function.comp_apply, Except.toOption, Option.filter_some]
  rw [pick, best, List.findSome?_map, hsame]

/-- The place where nothing is given, and what is left without it. -/
theorem exists_split_of_none {given : List (Option Reply)} {index : Nat}
    (h : given[index]? = some none) :
    ∃ before later, given = before ++ none :: later ∧ given.eraseIdx index = before ++ later := by
  obtain ⟨hlt, hnone⟩ := List.getElem?_eq_some_iff.mp h
  refine ⟨given.take index, given.drop (index + 1), ?_, List.eraseIdx_eq_take_drop_succ given index⟩
  rw [← hnone, List.getElem_cons_drop, List.take_append_drop]

/-- **Where nothing is given nothing is looked at.** -/
theorem best_eraseIdx (accepts : ResponseHead → Bool) {given : List (Option Reply)} {index : Nat}
    (h : given[index]? = some none) :
    best accepts (given.eraseIdx index) = best accepts given := by
  obtain ⟨before, later, hgiven, herased⟩ := exists_split_of_none h
  rw [herased, hgiven, best, best, List.findSome?_append, List.findSome?_append,
    List.findSome?_cons]
  rfl

/-- Where nothing is given nothing loses. -/
theorem losers_eraseIdx (accepts : ResponseHead → Bool) {given : List (Option Reply)} {index : Nat}
    (h : given[index]? = some none) :
    losers accepts (given.eraseIdx index) = losers accepts given := by
  obtain ⟨before, later, hgiven, herased⟩ := exists_split_of_none h
  rw [herased, hgiven, losers_append, losers_append]
  rfl

/-- **What was told is among what is given.** -/
structure Accords (told : List (Option Report)) (given : List (Option Reply)) : Prop where
  length_eq : told.length = given.length
  toOption_eq : ∀ (index : Nat) (result : Report) (reply : Option Reply),
    told[index]? = some (some result) → given[index]? = some reply → result.toOption = reply

/-- The result of a slot, from what was told and what is given. -/
def resultOf : Option Report → Option Reply → Report
  | some result, _ => result
  | none, some reply => .ok reply
  | none, none => .error (.closed "")

/-- There are results of which this was told and among which this is given. -/
theorem Accords.exists_results {told : List (Option Report)} {given : List (Option Reply)}
    (h : Accords told given) :
    ∃ results, Completes told results ∧ results.map (·.toOption) = given := by
  refine ⟨List.zipWith resultOf told given, ⟨?_, fun index result htold => ?_⟩, ?_⟩
  · rw [List.length_zipWith, ← h.length_eq, Nat.min_self]
  · have hlt : index < given.length :=
      h.length_eq ▸ (List.getElem?_eq_some_iff.mp htold).1
    rw [List.getElem?_zipWith, htold, List.getElem?_eq_getElem hlt]
    rfl
  · refine List.ext_getElem? fun index => ?_
    rw [List.getElem?_map, List.getElem?_zipWith]
    cases hgiven : given[index]? with
    | none => cases told[index]? <;> rfl
    | some reply =>
      have hlt : index < told.length :=
        h.length_eq ▸ (List.getElem?_eq_some_iff.mp hgiven).1
      cases htold : told[index] with
      | some result =>
        rw [List.getElem?_eq_getElem hlt, htold, Option.map_some, ← h.toOption_eq index result reply
          (by rw [List.getElem?_eq_getElem hlt, htold]) hgiven]
        rfl
      | none =>
        rw [List.getElem?_eq_getElem hlt, htold]
        cases reply <;> rfl

/-- A response that was told and loses is among the losers. -/
theorem Accords.losersCancel {accepts : ResponseHead → Bool} {told : List (Option Report)}
    {given : List (Option Reply)} (h : Accords told given)
    (hcancel : ∀ reply ∈ losers accepts given, (HeldReply.cancel [] reply).size.isSome = true) :
    LosersCancel accepts told := by
  intro index reply hloses
  refine hcancel reply (hloses.mem_losers fun other held hheld => ?_)
  have hlt := h.length_eq ▸ (List.getElem?_eq_some_iff.mp hheld).1
  rw [List.getElem?_eq_getElem hlt, ← h.toOption_eq other _ _ hheld (List.getElem?_eq_getElem hlt)]
  rfl

end Race

open Race (Accords best)

/-! ## Lanes -/

/-- **What a lane may come to give its slot**, when it has gone on by these choices of its own:
anything as long as it has neither reported nor come to its end, and after that the response that it
has reported, or none if it has returned or panicked before it had one. -/
inductive Sending.MayGive (s : Sending) (own : List Choice) : Option Reply → Prop where
  | pending (hreport : s.reportIn own = none) (hending : ((Run.start s).choices own).ending = none)
      (given : Option Reply) : MayGive s own given
  | delivered {reply : Reply} (hreport : s.reportIn own = some (.ok reply))
      (hfirst : ¬ s.EndsUntold own) : MayGive s own (some reply)
  | returned {cause : SendError} {value : Delivery} (hreport : s.reportIn own = some (.error cause))
      (hending : ((Run.start s).choices own).ending = some (.returned value)) : MayGive s own none
  | panicked {message : String} (hreport : s.reportIn own = none)
      (hending : ((Run.start s).choices own).ending = some (.panicked message)) :
      MayGive s own none

/-- What the lanes of a broadcast may come to give, by these choices of their own. -/
structure Sending.AllGive (starts : List Sending) (own : Nat → List Choice)
    (given : List (Option Reply)) : Prop where
  length_eq : starts.length = given.length
  mayGive : ∀ (index : Nat) (start : Sending) (reply : Option Reply), starts[index]? = some start →
    given[index]? = some reply → start.MayGive (own index) reply

/-- All lanes have come to their ends. -/
def Sending.AllEnd (starts : List Sending) (own : Nat → List Choice) : Prop :=
  ∀ (index : Nat) (start : Sending), starts[index]? = some start →
    ((Run.start start).choices (own index)).ending ≠ none

theorem Sending.EndsUntold.ending_ne_none {s : Sending} {own : List Choice}
    (h : s.EndsUntold own) : ((Run.start s).choices own).ending ≠ none := by
  obtain ⟨first, ⟨rest, rfl⟩, -, hending⟩ := h
  have hboth := (((Run.start s).choices first).seen_choices rest).2
  rw [Run.choices_append, hboth]
  cases hfirst : ((Run.start s).choices first).ending with
  | none => exact absurd hfirst hending
  | some ending => exact Option.some_ne_none ending

/-- A response that is told to a slot is reported by its lane. -/
theorem Moves.reportIn_ne_none {c c' : Contest} {lanes : List Sending} {choice : Choice}
    {going : Option (Nat × List Choice)} {index : Nat} {reply : Reply} {gives : List Reply}
    {ends : Option Ending} {lane : Sending}
    (h : Moves c lanes choice going (some (index, .ok reply)) gives ends c')
    (hlane : lanes[index]? = some lane) : lane.reportIn (Sending.ownOf going index) ≠ none := by
  generalize hreport : some (index, (Except.ok reply : Report)) = report at h
  cases h with
  | delivers hfree hget hsignal hreceived =>
    cases hreport
    cases hlane.symm.trans hget
    rw [Sending.ownOf, if_pos rfl, Sending.reportIn, Sending.tells?, hsignal]
    exact Option.some_ne_none _
  | _ => cases hreport

/-- **A response that a slot has told was reported by its lane.** The main task tells nothing but
failures. -/
theorem Sending.reportIn_ne_none_of_mem {choices : List Choice} {c : Contest}
    {lanes : List Sending} {index : Nat} {reply : Reply} {lane : Sending}
    (hmem : (index, .ok reply) ∈ (broadcast c lanes).reportsIn choices)
    (hlane : lanes[index]? = some lane) :
    lane.reportIn ((broadcast c lanes).ownIn choices index) ≠ none := by
  -- On the choices, with the lanes as far as they have gone on.
  induction choices generalizing c lanes lane with
  | nil => cases hmem
  | cons choice rest ih =>
    obtain ⟨c', hnext, hmoves⟩ := moves_after c lanes choice
    rw [reportsIn, hnext, List.mem_append, Option.mem_toList] at hmem
    rw [ownIn, hnext, reportIn_append]
    rcases hmem with hnow | hlater
    · rw [hnow] at hmoves
      have hreport : lane.reportIn ((broadcast c lanes).goingOf choice index) ≠ none :=
        hmoves.reportIn_ne_none hlane
      obtain ⟨report, hreport⟩ := Option.ne_none_iff_exists'.mp hreport
      rw [hreport]
      exact Option.some_ne_none report
    · have hgoes : (goOn lanes ((broadcast c lanes).going choice))[index]? =
          some (lane.afterAll ((broadcast c lanes).goingOf choice index)) := by
        rw [getElem?_goOn, hlane]
        rfl
      have hrest := ih hlater hgoes
      cases hreport : lane.reportIn ((broadcast c lanes).goingOf choice index) with
      | none => exact hrest
      | some report => exact Option.some_ne_none report

/-! ## Broadcasts -/

/-- **What a run owes to its connection** when its lanes give these responses. It is given one
response at most, the best of them, and the main task returns nothing but the answer to it. Once all
lanes have come to their ends and everything is at rest, the response was given; and the answer was
returned, if the connection answers with results and each of the responses that lose can be
cancelled. -/
structure Run.Serves (accepts : ResponseHead → Bool) (given : List (Option Reply))
    (ended calm plain : Prop) (answer : Option Delivery) (r : Run) : Prop where
  once : r.delivered = [] ∨ r.delivered = [best accepts given]
  first : r.ending ≠ none → r.delivered ≠ []
  returned : calm → ∀ ending, r.ending = some ending →
    ∃ result, answer = some result ∧ ending = .returned result
  rests : ended → r.sending.Rests → r.delivered ≠ []
  returns : plain →
    (∀ reply ∈ losers accepts given, (HeldReply.cancel [] reply).size.isSome = true) →
    ended → r.sending.Rests → r.ending = answer.map .returned

section

variable {accepts : ResponseHead → Bool} {given : List (Option Reply)} {ended calm plain : Prop}
  {answer : Option Delivery} {r : Run}

/-- At rest, with all lanes at their ends, it was given the best response. -/
theorem Run.Serves.delivered_eq (h : r.Serves accepts given ended calm plain answer) (hover : ended)
    (hrests : r.sending.Rests) : r.delivered = [best accepts given] :=
  h.once.resolve_left (h.rests hover hrests)

/-- **A lane that gives nothing** may as well be left out. -/
theorem Run.Serves.eraseIdx (h : r.Serves accepts given ended calm plain answer) {index : Nat}
    (hnone : given[index]? = some none) :
    r.Serves accepts (given.eraseIdx index) ended calm plain answer := by
  obtain ⟨honce, hfirst, hreturned, hrests, hreturns⟩ := h
  rw [← Race.best_eraseIdx accepts hnone] at honce
  rw [← Race.losers_eraseIdx accepts hnone] at hreturns
  exact ⟨honce, hfirst, hreturned, hrests, hreturns⟩

end

section

variable {accepts : ResponseHead → Bool} {starts : List Sending} {own : Nat → List Choice}
  {told : List (Option Report)} {given : List (Option Reply)} {race : Race} {r : Run}

/-- **At rest a response was given** if all lanes have come to their ends, in whatever way. -/
theorem Run.Fulfils.delivered_of_ends (h : r.Fulfils accepts starts own told)
    (hrests : r.sending.Rests) (hends : Sending.AllEnd starts own) : r.delivered ≠ [] := by
  obtain ⟨c, lanes, hsending, hunderway, hthreads, hearned, -⟩ := h
  rw [hsending] at hrests
  cases hrests.main with
  | replay hmain hown =>
    refine hunderway.delivered_ne_nil (.inl fun hreplay => ?_)
    rw [Contest.replaysItself, hreplay] at hown
    cases hown
  | verdict hmain hverdict =>
    have hcourse := hunderway.main
    rw [hmain] at hcourse
    exact hunderway.delivered_of_allTold hcourse.allTold
  | gone hmain =>
    rw [hmain] at hearned
    exact hearned
  | lanes hmain hseen hover =>
    -- Some lane is not over. As it has come to its end, it replays the chosen response.
    intro hnil
    refine Bool.eq_false_iff.mp hover (c.allOver_iff.mpr fun index => ?_)
    cases hphase : c.phaseOf index with
    | ended panic => exact ⟨panic, rfl⟩
    | replaying =>
      obtain ⟨losers, hreplay⟩ := hunderway.owned.replay_of_phase index hphase
      have hsome : c.replay ≠ none := by
        rw [hreplay]
        exact Option.some_ne_none _
      exact absurd hnil (hunderway.delivered_ne_nil (.inl hsome))
    | running =>
      have hlane := hthreads.lane_eq index
      cases hstart : starts[index]? with
      | none =>
        rw [hstart, Option.map_none, List.getElem?_eq_none_iff, hunderway.length_eq] at hlane
        rw [Contest.phaseOf, List.getElem?_eq_none hlane] at hphase
        cases hphase
      | some start =>
        exact absurd ((hthreads.thread index start hstart).running_iff.mp hphase)
          (hends index start hstart)

/-- **What the slots of a broadcast have told is among what its lanes give.** -/
theorem Sending.accords_opening (hrace : Race.ofSlots? starts.length = .ok race)
    {choices : List Choice}
    (h : AllGive starts ((opening accepts race starts).ownIn choices) given) :
    Accords (toldAfter starts.length ((opening accepts race starts).reportsIn choices)) given := by
  have hfulfils : Run.Fulfils accepts _ _ _ _ := fulfils_opening hrace choices
  obtain ⟨c, lanes, -, -, hthreads, -, hlength⟩ := hfulfils
  refine ⟨hlength.trans h.length_eq, fun index result reply htold hgiven => ?_⟩
  have hlt : index < starts.length := hlength ▸ (List.getElem?_eq_some_iff.mp htold).1
  have hstart := List.getElem?_eq_getElem hlt
  have hthread := (hthreads.thread index _ hstart).told_eq
  rw [htold, Option.some.injEq] at hthread
  cases h.mayGive index _ reply hstart hgiven with
  | pending hreport hending =>
    rcases hthread with heq | huntold
    · rw [hreport] at heq
      cases heq
    · exact absurd hending huntold.ending_ne_none
  | delivered hreport hfirst =>
    have heq := hthread.resolve_right hfirst
    rw [hreport, Option.some.injEq] at heq
    rw [heq]
    rfl
  | returned hreport hending =>
    have heq := hthread.resolve_right (not_endsUntold hending)
    rw [hreport, Option.some.injEq] at heq
    rw [heq]
    rfl
  | panicked hreport hending =>
    cases result with
    | error cause => rfl
    | ok response =>
      -- The slot cannot have told a response, as the lane has not reported any.
      rw [toldAfter, Contest.getElem?_foldl_tellFirst, List.getElem?_replicate, if_pos hlt,
        Option.map_some, Option.some.injEq] at htold
      obtain ⟨⟨other, report⟩, hfound, rfl⟩ := Option.map_eq_some_iff.mp htold
      obtain rfl : other = index := by simpa using List.find?_some hfound
      exact absurd hreport (reportIn_ne_none_of_mem (List.mem_of_find?_eq_some hfound) hstart)

/-- **A broadcast serves its connection** with the best of what its lanes give, under every
schedule. -/
theorem Sending.serves_opening (hrace : Race.ofSlots? starts.length = .ok race)
    {choices : List Choice}
    (h : AllGive starts ((opening accepts race starts).ownIn choices) given) :
    ((Run.start (opening accepts race starts)).choices choices).Serves accepts given
      (AllEnd starts ((opening accepts race starts).ownIn choices))
      (∀ choice ∈ choices, choice.Calm) (∀ choice ∈ choices, choice.Plain)
      ((Run.start (opening accepts race starts)).answerAfter none choices) := by
  have hfulfils : Run.Fulfils accepts _ _ _ _ := fulfils_opening hrace choices
  have haccords := accords_opening hrace h
  have hreturned : (∀ choice ∈ choices, choice.Calm) → ∀ ending,
      ((Run.start (opening accepts race starts)).choices choices).ending = some ending →
        ∃ result, (Run.start (opening accepts race starts)).answerAfter none choices = some result ∧
          ending = .returned result :=
    fun hcalm ending hending => ((contends_opening hrace hcalm).settles.returned ending hending).2
  refine ⟨?_, hfulfils.delivered_of_ending, hreturned,
    fun hover hrests => hfulfils.delivered_of_ends hrests hover,
    fun hplain hcancel hover hrests => ?_⟩
  · rcases hfulfils.delivered_eq with hnil | ⟨winner, hone, hchosen⟩
    · exact .inl hnil
    · obtain ⟨results, hcompletes, rfl⟩ := haccords.exists_results
      rw [← Race.pick_eq_best, ← (hchosen results hcompletes).eq_pick]
      exact .inr hone
  · have hcalm : ∀ choice ∈ choices, choice.Calm := fun choice hmem => (hplain choice hmem).calm
    cases hanswer : (Run.start (opening accepts race starts)).answerAfter none choices with
    | none =>
      rw [Option.map_none]
      refine Option.eq_none_iff_forall_ne_some.mpr fun ending hending => ?_
      obtain ⟨result, hsome, -⟩ := hreturned hcalm ending hending
      rw [hanswer] at hsome
      cases hsome
    | some result =>
      have hcontends : Run.Contends accepts _ _ _ _ := contends_opening hrace hcalm
      rw [hanswer] at hcontends
      refine hfulfils.returned_of_rests hcontends (haccords.losersCancel hcancel) hrests
        fun index start hstart _ _ => hover index start hstart

end

end Switchboard
