import Switchboard.Proofs.Delivery.Calls
import Switchboard.Proofs.Handler.Lineup
set_option autoImplicit false

/-! # What the race of a group hears

A group that could be built has a primary backend, and a slot for each of its backends. In every run
of a broadcast the race hears the first thing that happens at each slot, when that slot is empty,
and nothing else; so it refuses nothing (`Group.slots_hear_once`). -/

namespace Switchboard

open Contest (toldAfter tell? tellFirst)

namespace Sending

/-- What the race hears with a choice. -/
def hears? (s : Sending) (choice : Choice) : Option (Nat × Report) :=
  match s with
  | .broadcast c _ => (s.slotReport? choice).filter fun report => !c.hasReported report.1
  | _ => none

/-- What the race hears while a sending makes choices. -/
def hearsIn : Sending → List Choice → List (Nat × Report)
  | _, [] => []
  | s, choice :: rest => (s.hears? choice).toList ++ (s.after choice).hearsIn rest

/-- **What the race of a broadcast hears** in any run: of each slot the first thing that happens
there, and then that slot is empty. -/
structure HearsOnce (s : Sending) (slots : Nat) : Prop where
  first : ∀ choices, ∀ index < slots, (s.hearsIn choices).filter (·.1 == index) =
    ((s.reportsIn choices).filter (·.1 == index)).take 1
  empty : ∀ choices choice c lanes index report,
    ((Run.start s).choices choices).sending = .broadcast c lanes →
      (Sending.broadcast c lanes).hears? choice = some (index, report) →
        c.race.slots[index]? = some .empty

theorem slotReport?_of_ne {s : Sending} (h : ∀ c lanes, s ≠ .broadcast c lanes) (choice : Choice) :
    s.slotReport? choice = none ∧ s.hears? choice = none := by
  cases s with
  | broadcast c lanes => exact absurd rfl (h c lanes)
  | _ => exact ⟨by cases choice <;> rfl, rfl⟩

end Sending

section

variable {policy : Policy} {c c' : Contest} {lanes : List Sending} {choice : Choice}
  {told : List (Option Report)}
  {delivered : List Reply} {ending : Option Ending} {index : Nat} {result : Report}

/-- The race hears what happens at a slot that has told nothing yet, and nothing else. -/
theorem Underway.hears?_eq (h : Underway policy told delivered ending c lanes) (choice : Choice)
    (index : Nat) :
    (told[index]? = some none →
        ((Sending.broadcast c lanes).hears? choice).toList.filter (·.1 == index) =
          ((Sending.broadcast c lanes).slotReport? choice).toList.filter (·.1 == index)) ∧
      (told[index]? ≠ some none →
        ((Sending.broadcast c lanes).hears? choice).toList.filter (·.1 == index) = []) := by
  obtain ⟨c', -, hmoves⟩ := Sending.moves_after c lanes choice
  rw [Sending.hears?]
  cases hreport : (Sending.broadcast c lanes).slotReport? choice with
  | none => exact ⟨fun _ => rfl, fun _ => rfl⟩
  | some report =>
    obtain ⟨other, result⟩ := report
    rw [hreport] at hmoves
    have hlt : other < c.lanes.length := h.length_eq ▸ hmoves.lt_of_report
    have hreported := h.holds.reported_iff other hlt
    by_cases hsame : other = index
    · subst hsame
      constructor
      · intro hnone
        simp [Option.filter, hreported.mpr hnone]
      · intro hsome
        simp [Option.filter, eq_true_of_ne_false fun hfalse => hsome (hreported.mp hfalse)]
    · constructor <;> intro _ <;> cases hmark : c.hasReported other <;>
        simp [Option.filter, hsame, hmark]

end

/-! ## Runs -/

section

variable {policy : Policy} {slots : Nat} {told : List (Option Report)} {r : Run}

theorem Run.Attends.underway_of_broadcast (h : r.Attends policy slots told) {c : Contest}
    {lanes : List Sending} (hsending : r.sending = .broadcast c lanes) :
    Underway policy told r.delivered r.ending c lanes := by
  cases h with
  | prepares hprepares htold hdelivered hending =>
    rw [hsending] at hprepares
    rw [htold, hdelivered, hending]
    cases hprepares with
    | broadcast hunderway => exact hunderway
  | underway hunderway =>
    obtain ⟨c', lanes', hsending', hunderway⟩ := hunderway
    rw [hsending] at hsending'
    cases hsending'
    exact hunderway
  | done hended hdelivered =>
    rw [hended] at hsending
    cases hsending

theorem Run.Attends.hears?_eq (h : r.Attends policy slots told) (choice : Choice) (index : Nat) :
    (told[index]? = some none → (r.sending.hears? choice).toList.filter (·.1 == index) =
        (r.sending.slotReport? choice).toList.filter (·.1 == index)) ∧
      (told[index]? ≠ some none →
        (r.sending.hears? choice).toList.filter (·.1 == index) = []) := by
  by_cases hbroadcast : ∃ c lanes, r.sending = .broadcast c lanes
  · obtain ⟨c, lanes, hsending⟩ := hbroadcast
    have hunderway := h.underway_of_broadcast hsending
    rw [hsending]
    exact hunderway.hears?_eq choice index
  · obtain ⟨hreport, hhears⟩ := Sending.slotReport?_of_ne
      (fun c lanes hsending => hbroadcast ⟨c, lanes, hsending⟩) choice
    rw [hreport, hhears]
    exact ⟨fun _ => rfl, fun _ => rfl⟩

/-- **The race hears the first thing that happens at a slot**, and nothing more of it. -/
theorem Run.Attends.hearsIn_eq (h : r.Attends policy slots told) (choices : List Choice)
    (index : Nat) :
    (told[index]? = some none → (r.sending.hearsIn choices).filter (·.1 == index) =
        ((r.sending.reportsIn choices).filter (·.1 == index)).take 1) ∧
      (told[index]? ≠ some none → (r.sending.hearsIn choices).filter (·.1 == index) = []) := by
  -- On the choices, with what was told before them.
  induction choices generalizing r told with
  | nil => exact ⟨fun _ => rfl, fun _ => rfl⟩
  | cons choice rest ih =>
    obtain ⟨hnow, hnever⟩ := h.hears?_eq choice index
    obtain ⟨hfirst, hlater⟩ := ih (h.choose choice)
    rw [Run.sending_choose] at hfirst hlater
    rw [Sending.hearsIn, Sending.reportsIn, List.filter_append, List.filter_append]
    refine ⟨fun hnone => ?_, fun hsome => ?_⟩
    · rw [hnow hnone]
      cases hreport : r.sending.slotReport? choice with
      | none =>
        rw [hreport] at hfirst
        exact hfirst hnone
      | some report =>
        rw [hreport] at hfirst hlater
        by_cases hsame : report.1 = index
        · rw [hlater (hsame ▸ Contest.tellFirst_self_ne_none told report.1 report.2)]
          simp [hsame]
        · rw [hfirst ((Contest.getElem?_tellFirst_ne told (Ne.symm hsame)).trans hnone)]
          simp [hsame]
    · rw [hnever hsome, hlater (Contest.tell?_ne_none _ hsome)]
      rfl

end

/-! ## Groups -/

namespace Handler

/-- **The race of a group that broadcasts hears of each backend once**, whatever the backends, the
policy, the request and the connection do. -/
theorem group_hearsOnce {backends : List Handler} (hbackends : backends ≠ []) (primary : Nat)
    (policy : Policy) {head : RequestHead} (hmethod : head.method.goesToAll = true) (body : Body) :
    ∃ s, (Handler.group backends primary policy).respond head body = .quiet s ∧
      s.HearsOnce backends.length := by
  obtain ⟨s, hrespond, hprepares⟩ := prepares_group hbackends primary policy hmethod body
  have hstart : (Run.start s).Attends policy backends.length
      (List.replicate backends.length none) :=
    .prepares hprepares rfl rfl rfl
  refine ⟨s, hrespond, fun choices index hlt => ?_, ?_⟩
  · exact (hstart.hearsIn_eq choices index).1 (by rw [List.getElem?_replicate, if_pos hlt])
  · intro choices choice c lanes index report hsending hhears
    have hunderway := (hstart.choices choices).underway_of_broadcast hsending
    rw [hunderway.holds.empty_iff]
    refine Classical.byContradiction fun hsome => ?_
    have hnever := (hunderway.hears?_eq choice index).2 hsome
    simp [hhears] at hnever

/-- The primary backend answers what is not sent to all. -/
theorem respondNth_of_getElem? {backends : List Handler} {primary : Nat} {backend : Handler}
    (h : backends[primary]? = some backend) (head : RequestHead) (body : Body) :
    respondNth backends primary head body = backend.respond head body := by
  induction backends generalizing primary with
  | nil => cases h
  | cons first rest ih =>
    cases primary with
    | zero =>
      rw [List.getElem?_cons_zero, Option.some.injEq] at h
      rw [respondNth, h]
    | succ primary => exact ih h

end Handler

namespace Group

/-- A group that could be built has its primary backend, if it has backends at all. -/
theorem build_eq_ok {plan group : Group} (h : plan.build = .ok group) :
    group = plan ∧ (plan.backends ≠ [] → plan.primary < plan.backends.length) := by
  unfold build at h
  split at h
  · next hprimary =>
    cases h
    refine ⟨rfl, fun hbackends => ?_⟩
    simpa [hbackends] using hprimary
  · cases h

/-- **A group hears of each backend once, and refuses nothing.** The steps of any calls at a slot
may interleave in any order: the race hears of it once, from the call that sets the mark, and a
response that finds the mark is cancelled. Calls may come to any of its slots in any order: the race
hears of each slot once, when that slot is empty. In every run of a request that is sent to all
backends this is so as well; and any other request finds the primary backend, unless there are no
backends at all. -/
theorem slots_hear_once {plan group : Group} (h : plan.build = .ok group) :
    (∀ calls : List SlotCall, (∀ call ∈ calls, call.report? ≠ none) → ∀ schedule,
        SlotMark.HearsOnce calls ((SlotMark.start calls).claimant? schedule)
          ((SlotMark.start calls).run schedule)) ∧
      (group.backends ≠ [] → ∃ race, Race.ofSlots? group.backends.length = .ok race ∧
        ∀ deeds, (∀ deed ∈ deeds, deed.1 < group.backends.length) →
          (Contest.start group.policy race group.backends.length none).HearsOnce deeds) ∧
      ∀ (head : RequestHead) (body : Body),
        (group.backends = [] → group.toHandler.respond head body =
            ⟨[.log (.emptyGroup head.method.token head.path)], .ok (.deliver Reply.notFound)⟩) ∧
          (group.backends ≠ [] → head.method.goesToAll = true →
            ∃ s, group.toHandler.respond head body = .quiet s ∧
              s.HearsOnce group.backends.length) ∧
          (group.backends ≠ [] → head.method.goesToAll = false →
            ∃ backend, group.backends[group.primary]? = some backend ∧
              group.toHandler.respond head body =
                (backend.respond head body).after
                  [.log (.toPrimary head.method.token group.primary)]) := by
  refine ⟨fun calls hcalls schedule => SlotMark.hears_once hcalls schedule, fun hbackends => ?_,
    fun head body => ⟨fun hempty => ?_, fun hbackends hmethod => ?_, fun hbackends hmethod => ?_⟩⟩
  · obtain ⟨race, hrace⟩ := Handler.ofSlots?_length hbackends
    exact ⟨race, hrace, fun deeds hin => Contest.hears_once group.policy hrace hin⟩
  · rw [toHandler, Handler.respond, hempty]
    rfl
  · exact Handler.group_hearsOnce hbackends group.primary group.policy hmethod body
  · obtain ⟨rfl, hprimary⟩ := build_eq_ok h
    have hlt := hprimary hbackends
    refine ⟨_, List.getElem?_eq_getElem hlt, ?_⟩
    have hempty : group.backends.isEmpty = false := by simpa using hbackends
    rw [toHandler, Handler.respond, hempty, hmethod, if_neg Bool.false_ne_true,
      if_neg Bool.false_ne_true, Handler.respondNth_of_getElem? (List.getElem?_eq_getElem hlt)]

/-- A backend ends without a response, and a response of its own comes after that: the race hears of
a failure. -/
theorem slots_hear_once_late :
    (⟨[.silent 0 (.ok ()), .fixed (Reply.ofStatus 200)], 1, Policy.successOrRedirect⟩ :
        Group).build =
      .ok ⟨[.silent 0 (.ok ()), .fixed (Reply.ofStatus 200)], 1, Policy.successOrRedirect⟩ ∧
      (∃ race, Race.ofSlots? 2 = .ok race ∧
        ((Contest.start Policy.successOrRedirect race 2 none).heardIn
          [(0, .settles (some 0) (.ok ())), (0, .accepts (Reply.ofStatus 200))]).filter (·.1 == 0) =
            [(0, .error (.closed "backend finished without a response"))]) ∧
      ∃ s, (⟨[.silent 0 (.ok ()), .fixed (Reply.ofStatus 200)], 1, Policy.successOrRedirect⟩ :
          Group).toHandler.respond
            (RequestHead.ofLine ⟨.get, ⟨none, none, "/", none⟩, .http11⟩) .empty = .quiet s ∧
        s.HearsOnce 2 := by
  have hbuild : (⟨[.silent 0 (.ok ()), .fixed (Reply.ofStatus 200)], 1,
      Policy.successOrRedirect⟩ : Group).build = .ok _ := rfl
  obtain ⟨-, hcontest, hrequest⟩ := slots_hear_once hbuild
  refine ⟨rfl, ?_, ?_⟩
  · obtain ⟨race, hrace, hdeeds⟩ := hcontest (List.cons_ne_nil _ _)
    exact ⟨race, hrace, (hdeeds [(0, .settles (some 0) (.ok ())),
      (0, .accepts (Reply.ofStatus 200))] (by simp)).first 0⟩
  · exact (hrequest _ .empty).2.1 (List.cons_ne_nil _ _) (by decide +kernel)

end Group

end Switchboard
