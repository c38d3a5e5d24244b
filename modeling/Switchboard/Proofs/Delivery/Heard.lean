import Switchboard.Proofs.Delivery.Broadcast
import Switchboard.Proofs.Delivery.Fulfilment
set_option autoImplicit false

/-! # Lanes that are answered

A lane that has delivered its response waits for its slot to answer. Mostly it does so at once.
Where the response is the one that decides the race, the lane replays the chosen response, and waits
for the connection; whoever else replays it lets the lanes go on. So when the connection answers
with results and each response that loses can be cancelled, a lane that has delivered is answered
unless it is the one that waits (`Run.Fulfils.heard`). When everything has come to rest after that
and the answered lanes have come to their ends, the main task has returned what the connection has
answered (`Run.Fulfils.returned_of_rests`).

To be answered is to get past `accept` of a `SlotConnection`. -/

namespace Switchboard

open Contest (tell? tellFirst AllTold LosersCancel)

/-! ## A lane -/

/-- A connection that answers with a result, if it answers at all. -/
def Choice.Plain (choice : Choice) : Prop :=
  ∀ response, choice = .answer response → ∃ result, response = .result result

/-- A sending that delivers once at most, and not after it has come to its end. -/
def Sending.DeliversFirst (s : Sending) : Prop :=
  ∀ choices, ((Run.start s).choices choices).delivered.length ≤ 1 ∧
    (((Run.start s).choices choices).ending ≠ none →
      ((Run.start s).choices choices).delivered ≠ [])

/-- A lane has delivered the chosen response, and waits for the connection to answer it. -/
def Contest.Waits (c : Contest) (index : Nat) : Prop :=
  (∃ losers, c.replay = some ⟨some index, losers⟩) ∧ c.phaseOf index ≠ .replaying

/-- **A lane is answered with a result** once it has delivered, unless it waits for the
connection. -/
structure Heard (start : Sending) (own : List Choice) (waits : Prop) : Prop where
  plain : ∀ choice ∈ own, choice.Plain
  answered : ((Run.start start).choices own).delivered ≠ [] →
    (∃ result, (Run.start start).answerAfter none own = some result) ∨ waits

section

variable {start : Sending} {own : List Choice} {waits waits' : Prop}

theorem Run.answerAfter_append (r : Run) (answer : Option Delivery) (first next : List Choice) :
    r.answerAfter answer (first ++ next) =
      (r.choices first).answerAfter (r.answerAfter answer first) next := by
  induction first generalizing r answer with
  | nil => rfl
  | cons choice rest ih => exact ih (r.choose choice) _

theorem Heard.mono (h : Heard start own waits) (hwaits : waits → waits') :
    Heard start own waits' :=
  ⟨h.plain, fun hdelivered => (h.answered hdelivered).imp id hwaits⟩

/-- The lane does something, and delivers nothing by that. -/
theorem Heard.task (h : Heard start own waits) {path : Path}
    (hquiet : Run.deliveredBy ((start.afterAll own).step path).signal = [])
    (hwaits : waits → waits') : Heard start (own ++ [.task path]) waits' where
  plain := by
    intro choice hchoice
    rcases List.mem_append.mp hchoice with hmem | hmem
    · exact h.plain choice hmem
    · rw [List.mem_singleton.mp hmem]
      exact nofun
  answered := by
    intro hdelivered
    rw [Run.choices_append] at hdelivered
    rw [Run.answerAfter_append]
    refine (h.answered ?_).imp id hwaits
    intro hnil
    refine hdelivered ?_
    rw [Run.choices, List.foldl_cons, List.foldl_nil, Run.choose, Run.sending_choices, hnil]
    exact hquiet

/-- The lane is answered. -/
theorem Heard.answer (h : ∀ choice ∈ own, choice.Plain) (result : Delivery) :
    Heard start (own ++ [.answer (.result result)]) waits where
  plain := by
    intro choice hchoice
    rcases List.mem_append.mp hchoice with hmem | hmem
    · exact h choice hmem
    · rw [List.mem_singleton.mp hmem]
      rintro response ⟨⟩
      exact ⟨result, rfl⟩
  answered := by
    intro hdelivered
    rw [Run.choices_append] at hdelivered
    have hgiven : ((Run.start start).choices own).delivered ≠ [] := hdelivered
    refine .inl ?_
    rw [Run.answerAfter_append, Run.answerAfter, Run.answerAfter, answerNext]
    cases hnil : ((Run.start start).choices own).delivered with
    | nil => exact absurd hnil hgiven
    | cons reply rest =>
      cases (Run.start start).answerAfter none own with
      | none => exact ⟨result, rfl⟩
      | some first => exact ⟨first, rfl⟩

end

section

variable {start : Sending}

/-- A run that reports a failure has come to its end with it, and has delivered nothing by then. -/
theorem Sending.reportIn_error {s : Sending} {own : List Choice} {cause : SendError}
    (h : s.reportIn own = some (.error cause)) :
    ∃ first, ((Run.start s).choices first).delivered = [] ∧
      ((Run.start s).choices first).ending ≠ none := by
  induction own generalizing s with
  | nil => cases h
  | cons choice rest ih =>
    rw [Sending.reportIn] at h
    cases choice with
    | answer response =>
      obtain ⟨first, hdelivered, hending⟩ := ih h
      obtain ⟨hseen, hended⟩ := ((Run.start s).choose (.answer response)).seen_choices first
      exact ⟨.answer response :: first, hseen.trans hdelivered,
        fun hnone => hending (hended.symm.trans hnone)⟩
    | task path =>
      rw [Sending.tells?] at h
      cases hsignal : (s.step path).signal with
      | delivers reply =>
        rw [hsignal] at h
        cases h
      | returned result =>
        refine ⟨[.task path], congrArg Run.deliveredBy hsignal, ?_⟩
        rw [Run.ending_step s path [] (by simp), hsignal]
        simp [Run.endingBy]
      | _ =>
        rw [hsignal] at h
        obtain ⟨first, hdelivered, hending⟩ := ih h
        obtain ⟨hseen, hended⟩ := ((Run.start s).choose (.task path)).seen_choices first
        refine ⟨.task path :: first, ?_, fun hnone => ?_⟩
        · rw [Run.delivered_choose, Sending.gives, Run.start, hsignal] at hseen
          exact hseen.trans hdelivered
        · rw [Run.choices, List.foldl_cons] at hnone
          have hboth := hended.symm.trans hnone
          cases hfirst : ((Run.start s).choose (.task path)).ending with
          | none => rw [hfirst] at hboth; exact hending hboth
          | some ending => rw [hfirst] at hboth; cases hboth

/-- A sending that delivers first reports no failure. -/
theorem Sending.DeliversFirst.reportIn_ne_error (h : start.DeliversFirst) (own : List Choice)
    (cause : SendError) : start.reportIn own ≠ some (.error cause) := by
  intro herror
  obtain ⟨first, hdelivered, hending⟩ := Sending.reportIn_error herror
  exact (h first).2 hending hdelivered

/-- **What a sending that delivers first reports** is the response that it delivers. -/
theorem Sending.DeliversFirst.reportIn_eq (h : start.DeliversFirst) (own : List Choice) :
    start.reportIn own = (((Run.start start).choices own).delivered.head?).map .ok := by
  obtain ⟨phase, haccounts⟩ := start.accounts_reportIn own
  cases hreport : start.reportIn own with
  | none =>
    rw [(haccounts.quiet hreport).1]
    rfl
  | some result =>
    cases result with
    | ok reply =>
      rw [haccounts.first reply hreport]
      rfl
    | error cause => exact absurd hreport (h.reportIn_ne_error own cause)

theorem Sending.DeliversFirst.not_endsUntold (h : start.DeliversFirst) (own : List Choice) :
    ¬ start.EndsUntold own := by
  rintro ⟨first, -, hreport, hending⟩
  obtain ⟨phase, haccounts⟩ := start.accounts_reportIn first
  exact (h first).2 hending (haccounts.quiet hreport).1

/-- A lane that delivers first has not reported before it delivers. -/
theorem Thread.told_of_delivers {own : List Choice} {told : Option (Option Report)}
    {phase : LanePhase} (h : Thread start own told phase) (hfirst : start.DeliversFirst)
    {path : Path} {reply : Reply}
    (hsignal : ((start.afterAll own).step path).signal = .delivers reply) : told = some none := by
  obtain ⟨hle, -⟩ := hfirst (own ++ [.task path])
  rw [Run.choices_append, Run.choices, List.foldl_cons, List.foldl_nil, Run.delivered_choose,
    Run.sending_choices, Sending.gives, List.length_append] at hle
  have hgives : Run.deliveredBy ((((Run.start start).sending.afterAll own).step path).signal) =
      [reply] := by
    rw [Run.start, hsignal]
    rfl
  rw [hgives, List.length_singleton] at hle
  have hnil := List.eq_nil_of_length_eq_zero (Nat.le_zero.mp (Nat.le_of_succ_le_succ hle))
  rcases h.told_eq with htold | huntold
  · rw [htold, hfirst.reportIn_eq, hnil]
    rfl
  · exact absurd huntold (hfirst.not_endsUntold own)

end

/-! ## Slots that answer -/

section

variable {accepts : ResponseHead → Bool} {starts lanes : List Sending} {own : Nat → List Choice}
  {told : List (Option Report)} {delivered : List Reply} {ending : Option Ending} {c c' : Contest}
  {index : Nat} {start : Sending}

/-- The first response of a lane is answered at once, or it is the one that decides the race. -/
theorem Underway.receive_first
    (h : Underway (Policy.ofBool accepts) told delivered ending c lanes)
    (hindex : told[index]? = some none) (hlt : index < lanes.length) {reply : Reply}
    (hcancel : LosersCancel accepts (tellFirst told (index, .ok reply))) :
    (c.receive index reply).2.2 = .answers (.result (.ok ())) ∨
      (∃ chosen, (c.receive index reply).2.2 = .replays chosen) ∧
        (c.receive index reply).1.Waits index := by
  have hlane : index < c.lanes.length := h.length_eq ▸ hlt
  have hsame := Contest.sameTasks_receive c index reply
  have hdelivered := h.delivered_eq
  unfold Contest.receive at hsame ⊢
  rw [(h.holds.reported_iff index hlane).mpr hindex, if_neg Bool.false_ne_true] at hsame ⊢
  obtain ⟨htakes, -⟩ := h.holds.takes hindex (some index) (.ok reply)
  generalize (c.reportSlot (some index) index (.ok reply)).1 = c' at htakes hsame ⊢
  generalize (c.reportSlot (some index) index (.ok reply)).2.2 = reaction at htakes ⊢
  cases htakes with
  | waits hbefore hafter hreplay hopen => exact .inl rfl
  | breaks hbefore hafter hreplay hpanicked =>
    rw [h.policy_eq] at hpanicked
    exact absurd hpanicked (Race.standingFrom_ne_panicked (Policy.answers_ofBool accepts _) 0 _)
  | late hbefore hafter hreplay =>
    rcases hdelivered with ⟨hundecided, -⟩ | ⟨-, winner, -, hchooses⟩
    · rw [hundecided] at hbefore
      cases hbefore
    · rw [Contest.tellFirst_of_none hindex] at hcancel
      have hfinished := hcancel index reply (Contest.loses_of_late hchooses hindex reply)
      refine .inl ?_
      rw [Race.responseOf?, Race.cancelLate, HeldReply.cancelAll_singleton_snd, hfinished]
      rfl
  | decides hbefore hafter hreplay hlosers hchooses =>
    rcases hdelivered with ⟨-, hnone, -, -⟩ | ⟨hdecided, -⟩
    · refine .inr ⟨⟨_, rfl⟩, ⟨_, hreplay⟩, ?_⟩
      rw [hsame.phaseOf_eq]
      exact h.owned.not_replaying hnone index
    · rw [hbefore] at hdecided
      cases hdecided

/-- Whatever happens at a slot, a lane that waits for the connection still does, and nothing is
decided. -/
theorem Contest.Holds.waits_hears (h : c.Holds told delivered) {owner : Option Nat} {other : Nat}
    (hlt : other < c.lanes.length) {result : Report} {heard : Contest × List Note × Reaction}
    (hhears : c.Hears owner other result heard) (hsame : c.SameTasks heard.1)
    (hwaits : c.Waits index) :
    heard.1.Waits index ∧ ∀ reply, heard.2.2 ≠ .replays reply := by
  obtain ⟨⟨losers, hreplay⟩, hwaiting⟩ := hwaits
  obtain ⟨hanswers, hreplays⟩ := h.replay_hears hlt hhears
  have hnever : ∀ reply, heard.2.2 ≠ .replays reply := by
    intro reply hreaction
    obtain ⟨hnone, -⟩ := hreplays reply hreaction
    rw [hreplay] at hnone
    cases hnone
  refine ⟨⟨⟨losers, ?_⟩, by rwa [hsame.phaseOf_eq]⟩, hnever⟩
  cases hreaction : heard.2.2 with
  | answers response => rw [hanswers response hreaction, hreplay]
  | replays reply => exact absurd hreaction (hnever reply)

/-- A lane that is over keeps nobody from waiting. -/
theorem Contest.Waits.setPhase (h : c.Waits index) (other : Nat) {phase : LanePhase}
    (hphase : phase ≠ .replaying) : (c.setPhase other phase).Waits index := by
  refine ⟨h.1, ?_⟩
  by_cases hsame : index = other
  · subst hsame
    by_cases hlt : index < c.lanes.length
    · rwa [phaseOf_setPhase_self c hlt]
    · rw [phaseOf, List.getElem?_eq_none (by simp [Contest.setPhase]; omega)]
      simp
  · rw [phaseOf_setPhase_ne c hsame]
    exact h.2

theorem Contest.Waits.laneTold (h : c.Waits index) (other : Nat) {reaction : Reaction}
    (hreaction : ∀ reply, reaction ≠ .replays reply) :
    (c.laneTold other reaction).Waits index := by
  rcases reaction with (result | message | _) | reply
  · exact h.setPhase other nofun
  · exact h.setPhase other nofun
  · exact h
  · exact absurd rfl (hreaction reply)

theorem Contest.Waits.mainTold (h : c.Waits index) (reaction : Reaction) :
    (c.mainTold reaction).Waits index := by
  refine ⟨?_, by rw [phaseOf_mainTold]; exact h.2⟩
  rcases reaction with (_ | _ | _) | _ <;> exact h.1

/-- The connection answers with a result, and no loser keeps whoever cancels it busy. -/
theorem Underway.concludes_plain
    (h : Underway (Policy.ofBool accepts) told delivered ending c lanes)
    (hcancel : LosersCancel accepts told) {replay : ReplayState} (hreplay : c.replay = some replay)
    {response answer : Response}
    (hplain : ∃ result, response = .result result)
    (hconcludes : c.Concludes replay response c' answer) : answer = .result (.ok ()) := by
  obtain ⟨result, rfl⟩ := hplain
  cases hconcludes with
  | answers hfinished hverdict => rfl
  | busy hbusy =>
    have hcourse := h.holds.course
    rw [hreplay] at hcourse
    generalize c.race.undecided = undecided at hcourse
    generalize c.verdict = verdict at hcourse
    cases hcourse with
    | replaying hchooses hlosers =>
      exact absurd (hcancel.finished (hlosers accepts h.policy_eq)) (Bool.eq_false_iff.mp hbusy)

/-- The lane delivers: it is answered, or waits for the connection. -/
theorem Heard.delivers (h : Heard start (own index) (c.Waits index))
    (hunderway : Underway (Policy.ofBool accepts) told delivered ending c lanes)
    (hthreads : Threads starts own told c.phaseOf lanes) (hstart : starts[index]? = some start)
    (hfirst : start.DeliversFirst) (hlt : index < lanes.length) {path : Path} {reply : Reply}
    (hsignal : ((start.afterAll (own index)).step path).signal = .delivers reply)
    {received : Contest × List Note × Reaction} (hreceived : c.receive index reply = received)
    (hcancel : LosersCancel accepts (tellFirst told (index, .ok reply))) :
    Heard start (own index ++ .task path :: received.2.2.choices) (received.1.Waits index) := by
  have htold := (hthreads.thread index start hstart).told_of_delivers hfirst hsignal
  have hown : ∀ choice ∈ own index ++ [.task path], choice.Plain := by
    intro choice hchoice
    rcases List.mem_append.mp hchoice with hmem | hmem
    · exact h.plain choice hmem
    · rw [List.mem_singleton.mp hmem]
      simp [Choice.Plain]
  have hreceives := hunderway.receive_first htold hlt hcancel
  rw [hreceived] at hreceives
  rcases hreceives with hanswers | ⟨⟨chosen, hreplays⟩, hwaits⟩
  · rw [hanswers, Reaction.choices, List.append_cons]
    exact .answer hown _
  · rw [hreplays]
    exact ⟨hown, fun _ => .inr hwaits⟩

/-- **Each move keeps it.** -/
theorem Heard.moves (h : Heard start (own index) (c.Waits index))
    (hunderway : Underway (Policy.ofBool accepts) told delivered ending c lanes)
    (hthreads : Threads starts own told c.phaseOf lanes) (hstart : starts[index]? = some start)
    (hfirst : start.DeliversFirst) {choice : Choice} (hplain : choice.Plain)
    {going : Option (Nat × List Choice)} {report : Option (Nat × Report)} {gives : List Reply}
    {ends : Option Ending} (hcancel : LosersCancel accepts (tell? told report))
    (hmoves : Moves c lanes choice going report gives ends c') :
    Heard start (own index ++ Sending.ownOf going index) (c'.Waits index) := by
  have hlane : lanes[index]? = some (start.afterAll (own index)) := by
    rw [hthreads.lane_eq, hstart]
    rfl
  have hstay : ∀ {waits : Prop}, (c.Waits index → waits) → ∀ other more, other ≠ index →
      Heard start (own index ++ Sending.ownOf (some (other, more)) index) waits := by
    intro waits hwaits other more hne
    rw [Sending.ownOf, if_neg hne, List.append_nil]
    exact h.mono hwaits
  have hstill : ∀ {waits : Prop}, (c.Waits index → waits) →
      Heard start (own index ++ Sending.ownOf none index) waits := by
    intro waits hwaits
    rw [Sending.ownOf, List.append_nil]
    exact h.mono hwaits
  cases hmoves with
  | mainRests hrests => exact hstill id
  | laneRests hrests => exact hstill id
  | ignores hreplay => exact hstill id
  | main hgoes => exact hstill id
  | @closes other message cause closed hmain hown hlt hphase hclosed =>
    refine hstill fun hwaits => ?_
    have hholds : Contest.Holds told delivered { c with main := .closing (other + 1) } :=
      hunderway.holds.congr rfl rfl rfl rfl rfl
    obtain ⟨hkept, -⟩ := hholds.waits_hears (hunderway.length_eq ▸ hlt)
      (Contest.hears_of_closeSlot hclosed) (Contest.sameTasks_of_closeSlot hclosed) hwaits
    exact hkept.mainTold _
  | @runs other path lane hfree hother hdelivered hending =>
    by_cases hsame : other = index
    · subst hsame
      rw [hlane, Option.some.injEq] at hother
      rw [Sending.ownOf, if_pos rfl]
      exact h.task (by rw [hother]; exact hdelivered) id
    · exact hstay id other _ hsame
  | @delivers other path lane reply received hfree hother hsignal hreceived =>
    have hlt := (List.getElem?_eq_some_iff.mp hother).1
    by_cases hsame : other = index
    · subst hsame
      rw [hlane, Option.some.injEq] at hother
      subst hother
      rw [Sending.ownOf, if_pos rfl]
      exact h.delivers hunderway hthreads hstart hfirst hlt hsignal hreceived hcancel
    · refine hstay (fun hwaits => ?_) other _ hsame
      obtain ⟨hkept, -⟩ := hunderway.holds.waits_hears (hunderway.length_eq ▸ hlt)
        (Contest.hears_receive c other reply) (Contest.sameTasks_receive ..) hwaits
      rwa [hreceived] at hkept
  | @returns other lane result closed hfree hother hsignal hclosed =>
    have hlt := (List.getElem?_eq_some_iff.mp hother).1
    have hwaits : c.Waits index → (closed.1.laneTold other closed.2.2).Waits index := by
      intro hwaits
      obtain ⟨hkept, hreaction⟩ := hunderway.holds.waits_hears (hunderway.length_eq ▸ hlt)
        (Contest.hears_of_closeSlot hclosed) (Contest.sameTasks_of_closeSlot hclosed) hwaits
      exact hkept.laneTold other hreaction
    by_cases hsame : other = index
    · subst hsame
      rw [hlane, Option.some.injEq] at hother
      rw [Sending.ownOf, if_pos rfl]
      exact h.task (by rw [hother, hsignal]; rfl) hwaits
    · exact hstay hwaits other _ hsame
  | @panics other lane message hfree hother hsignal =>
    have hwaits : c.Waits index → (c.setPhase other (.ended (some message))).Waits index :=
      fun hwaits => hwaits.setPhase other (by simp)
    by_cases hsame : other = index
    · subst hsame
      rw [hlane, Option.some.injEq] at hother
      rw [Sending.ownOf, if_pos rfl]
      exact h.task (by rw [hother, hsignal]; rfl) hwaits
    · exact hstay hwaits other _ hsame
  | @answersMain response losers concluded hreplay hconcluded =>
    refine hstill fun hwaits => ?_
    obtain ⟨⟨losers', hreplay'⟩, -⟩ := hwaits
    rw [hreplay] at hreplay'
    cases hreplay'
  | @answersReplay response other losers concluded hreplay hconcluded hphase =>
    refine hstill fun hwaits => ?_
    obtain ⟨⟨losers', hreplay'⟩, hwaiting⟩ := hwaits
    rw [hreplay] at hreplay'
    cases hreplay'
    have hconcludes := Contest.concludes_of_conclude hconcluded
    rw [hconcludes.phaseOf_eq] at hphase
    exact absurd hphase hwaiting
  | @answersLane response other losers concluded hreplay hconcluded hphase =>
    by_cases hsame : other = index
    · subst hsame
      have hconcludes := Contest.concludes_of_conclude hconcluded
      rw [Sending.ownOf, if_pos rfl,
        hunderway.concludes_plain hcancel hreplay (hplain response rfl) hconcludes]
      exact .answer h.plain _
    · refine hstay (fun hwaits => ?_) other _ hsame
      obtain ⟨⟨losers', hreplay'⟩, -⟩ := hwaits
      rw [hreplay] at hreplay'
      cases hreplay'
      exact absurd rfl hsame

variable {r : Run}

/-- **A lane that delivers first is answered**, in each run in which the connection answers with
results, and in which each response that was told and loses can be cancelled. -/
theorem Run.Fulfils.heard (h : r.Fulfils accepts starts own told)
    (hstart : starts[index]? = some start) (hfirst : start.DeliversFirst)
    (hheard : ∀ c lanes, r.sending = .broadcast c lanes → Heard start (own index) (c.Waits index))
    {list : List Choice} (hplain : ∀ choice ∈ list, choice.Plain)
    (hcancel : LosersCancel accepts ((Sending.reportsIn r.sending list).foldl tellFirst told)) :
    ∀ c lanes, (r.choices list).sending = .broadcast c lanes →
      Heard start (own index ++ r.sending.ownIn list index) (c.Waits index) := by
  -- On the choices: each of them is a move that keeps it.
  induction list generalizing r told own with
  | nil =>
    rw [Sending.ownIn, List.append_nil]
    exact hheard
  | cons choice rest ih =>
    have hnext := h.choose choice
    rw [Sending.foldl_reportsIn_cons, ← Run.sending_choose] at hcancel
    have hafter := ih hnext ?_ (fun other hother => hplain other (List.mem_cons_of_mem _ hother))
      hcancel
    · rw [Sending.ownIn, ← List.append_assoc, ← Run.sending_choose]
      exact hafter
    · intro c' lanes' hsending'
      obtain ⟨c, lanes, hsending, hunderway, hthreads, -⟩ := h
      obtain ⟨c'', hafter, hmoves⟩ := Sending.moves_after c lanes choice
      rw [Run.sending_choose, hsending, hafter] at hsending'
      cases hsending'
      have hnow := hcancel.of_foldl
      rw [hsending] at hnow ⊢
      exact (hheard c lanes hsending).moves hunderway hthreads hstart hfirst
        (hplain choice List.mem_cons_self) hnow hmoves

/-- **At rest the main task has returned what the connection has answered**, if each response that
was told and loses can be cancelled, and if each lane that is at rest, and does not wait for the
connection, has come to its end. -/
theorem Run.Fulfils.returned_of_rests {result : Delivery} (h : r.Fulfils accepts starts own told)
    (hcontends : r.Contends accepts starts told (some result))
    (hcancel : LosersCancel accepts told) (hrests : r.sending.Rests)
    (hends : ∀ (index : Nat) (start : Sending), starts[index]? = some start →
      (start.afterAll (own index)).Rests →
        (∀ c lanes, r.sending = .broadcast c lanes → ¬ c.Waits index) →
          ((Run.start start).choices (own index)).ending ≠ none) :
    r.ending = some (.returned result) := by
  obtain ⟨c, lanes, hsending, hunderway, hthreads, -⟩ := h
  obtain ⟨c', lanes', hsending', hraces⟩ := hcontends
  cases hsending.symm.trans hsending'
  rw [hsending] at hrests
  obtain ⟨hreplay, hverdict⟩ := hraces.keeps.stage.announced_of_answer (.inr hcancel)
  have hquiet : c.replaysItself = false := by
    rw [Contest.replaysItself, hreplay]
    rfl
  cases hrests.main with
  | replay hmain hown =>
    rw [hquiet] at hown
    cases hown
  | verdict hmain hopen =>
    rw [hverdict] at hopen
    cases hopen
  | gone hmain =>
    have hstage := hraces.main
    rw [hmain, hverdict] at hstage
    generalize r.ending = ending at hstage
    cases hstage
    rfl
  | lanes hmain hseen hover =>
    -- Some lane is not over. Nobody replays the response any more, so that lane runs, and is at
    -- rest.
    exfalso
    refine Bool.eq_false_iff.mp hover (c.allOver_iff.mpr fun index => ?_)
    cases hphase : c.phaseOf index with
    | ended panic => exact ⟨panic, rfl⟩
    | replaying => exact absurd hphase (hunderway.owned.not_replaying hreplay index)
    | running =>
      have hlt : index < c.lanes.length := by
        refine Decidable.byContradiction fun hge => ?_
        rw [Contest.phaseOf, List.getElem?_eq_none (Nat.le_of_not_lt hge)] at hphase
        cases hphase
      have hlane := List.getElem?_eq_getElem (hunderway.length_eq ▸ hlt : index < lanes.length)
      have heq := hthreads.lane_eq index
      cases hstart : starts[index]? with
      | none =>
        rw [hlane, hstart] at heq
        cases heq
      | some start =>
        rw [hstart, Option.map_some] at heq
        have hended := hends index start hstart (hrests.running heq hphase) ?_
        · exact absurd ((hthreads.thread index start hstart).running_iff.mp hphase) hended
        · rintro c'' lanes'' hsending'' ⟨⟨losers, hwaiting⟩, -⟩
          rw [hsending] at hsending''
          cases hsending''
          rw [hreplay] at hwaiting
          cases hwaiting

end

end Switchboard
