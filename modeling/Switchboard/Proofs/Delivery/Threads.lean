import Switchboard.Proofs.Delivery.Rest
set_option autoImplicit false

/-! # The lanes of a broadcast as runs of their own

Whatever happens to a broadcast, each of its lanes goes on by choices of its own (`Sending.ownIn`),
as if it were a sending by itself. `Threads` says so of all lanes at once, and that a slot reports
what such a run lets be seen first (`Sending.reportIn`). So what is known of the runs of a sending
is known of the lane that it goes on in.

When the tasks of a broadcast have come to rest, so have those of its lanes, and if each lane has
reported by then, the connection has been given the chosen response (`Threads.delivered_ne_nil`).

The lanes are the tasks that a `GroupResponse` spawns, one for each backend. -/

namespace Switchboard

open Contest (tell? tellFirst AllTold)

/-! ## What a lane reports -/

namespace Sending

/-- What a choice of a lane reports to its slot. -/
def tells? (s : Sending) : Choice → Option Report
  | .task path => laneReport? path.isEmpty (s.step path).signal
  | .answer _ => none

/-- The first thing that a lane reports to its slot with these choices. -/
def reportIn : Sending → List Choice → Option Report
  | _, [] => none
  | s, choice :: rest => s.tells? choice <|> (s.after choice).reportIn rest

theorem reportIn_append (s : Sending) (first next : List Choice) :
    s.reportIn (first ++ next) = (s.reportIn first <|> (s.afterAll first).reportIn next) := by
  induction first generalizing s with
  | nil => simp [reportIn]
  | cons choice rest ih =>
    rw [List.cons_append, reportIn, reportIn, ih, afterAll_cons]
    cases s.tells? choice <;> rfl

/-- The lane comes to its end without having reported anything. -/
def EndsUntold (s : Sending) (own : List Choice) : Prop :=
  ∃ first, first <+: own ∧ s.reportIn first = none ∧ ((Run.start s).choices first).ending ≠ none

theorem EndsUntold.append {s : Sending} {own : List Choice} (h : s.EndsUntold own)
    (more : List Choice) : s.EndsUntold (own ++ more) := by
  obtain ⟨first, hprefix, huntold⟩ := h
  exact ⟨first, hprefix.trans (List.prefix_append own more), huntold⟩

end Sending

/-- A run and what it reports account for each other. -/
theorem Accounts.choices {run : Run} {told : Option Report} {phase : LanePhase}
    (h : Accounts run told phase) (own : List Choice) :
    ∃ phase', Accounts (run.choices own) (told <|> run.sending.reportIn own) phase' := by
  induction own generalizing run told phase with
  | nil =>
    have htold : (told <|> run.sending.reportIn []) = told := by cases told <;> rfl
    rw [htold]
    exact ⟨phase, h⟩
  | cons choice rest ih =>
    have hnext : ∃ phase', Accounts (run.choose choice) (told <|> run.sending.tells? choice)
        phase' := by
      cases choice with
      | answer response =>
        have htold : (told <|> run.sending.tells? (.answer response)) = told := by
          cases told <;> rfl
        rw [htold]
        exact ⟨phase, h.answer response⟩
      | task path =>
        by_cases hrunning :
            phase = .running ∧ Run.endingBy (run.sending.step path).signal = none
        · exact ⟨.running, h.step path (iff_of_true rfl hrunning)⟩
        · exact ⟨.ended none, h.step path (iff_of_false (by simp) hrunning)⟩
    obtain ⟨phase', hphase'⟩ := hnext
    obtain ⟨last, hlast⟩ := ih hphase'
    have htold : (told <|> run.sending.reportIn (choice :: rest)) =
        ((told <|> run.sending.tells? choice) <|> (run.choose choice).sending.reportIn rest) := by
      rw [Sending.reportIn, Run.sending_choose]
      cases told <;> rfl
    rw [htold]
    exact ⟨last, hlast⟩

/-- **What the first report of a run says of it.** -/
theorem Sending.accounts_reportIn (s : Sending) (own : List Choice) :
    ∃ phase, Accounts ((Run.start s).choices own) (s.reportIn own) phase :=
  (accounts_start s).choices own

/-! ## Lanes -/

/-- **A lane as a run of its own**, when its slot has told this: the slot reports what the run lets
be seen first, unless that ended before it had reported anything. -/
structure Thread (start : Sending) (own : List Choice) (told : Option (Option Report))
    (phase : LanePhase) : Prop where
  told_eq : told = some (start.reportIn own) ∨ start.EndsUntold own
  running_iff : phase = .running ↔ ((Run.start start).choices own).ending = none

/-- **The lanes of a broadcast as runs of their own**, by these choices. -/
structure Threads (starts : List Sending) (own : Nat → List Choice) (told : List (Option Report))
    (phaseOf : Nat → LanePhase) (lanes : List Sending) : Prop where
  lane_eq : ∀ index : Nat, lanes[index]? = (starts[index]?).map (·.afterAll (own index))
  thread : ∀ (index : Nat) (start : Sending), starts[index]? = some start →
    Thread start (own index) told[index]? (phaseOf index)

section

variable {start : Sending} {own more : List Choice} {told : Option (Option Report)}
  {phase phase' : LanePhase}

/-- The lane goes on, and its slot is told what it reports. -/
theorem Thread.goOn (h : Thread start own told phase) {report : Option Report}
    (hreport : (start.afterAll own).reportIn more = report)
    (hphase : phase' = .running ↔ phase = .running ∧
      ((Run.start (start.afterAll own)).choices more).ending = none) :
    Thread start (own ++ more) (told.map (· <|> report)) phase' where
  told_eq := by
    rcases h.told_eq with htold | huntold
    · refine .inl ?_
      rw [htold, Sending.reportIn_append, hreport]
      rfl
    · exact .inr (huntold.append more)
  running_iff := by
    have hending := (((Run.start start).choices own).seen_choices more).2
    rw [Run.sending_choices] at hending
    rw [hphase, h.running_iff, Run.choices_append, hending]
    cases ((Run.start start).choices own).ending with
    | none => exact ⟨And.right, fun hnone => ⟨rfl, hnone⟩⟩
    | some ending => exact iff_of_false (fun hboth => by cases hboth.1) nofun

/-- The main task reports in the name of a lane that is over without a report. -/
theorem Thread.abort (h : Thread start own told phase) (hphase : phase ≠ .running)
    (result : Report) : Thread start own (told.map (· <|> some result)) phase where
  told_eq := by
    rcases h.told_eq with htold | huntold
    · cases hreport : start.reportIn own with
      | none =>
        exact .inr ⟨own, List.prefix_rfl, hreport, fun hnone => hphase (h.running_iff.mpr hnone)⟩
      | some first => exact .inl (by rw [htold, hreport]; rfl)
    · exact .inr huntold
  running_iff := h.running_iff

theorem Thread.setPhase (h : Thread start own told phase) (hphase : phase ≠ .running)
    (hphase' : phase' ≠ .running) : Thread start own told phase' :=
  ⟨h.told_eq, iff_of_false hphase' fun hnone => hphase (h.running_iff.mpr hnone)⟩

end

section

variable {starts lanes : List Sending} {own : Nat → List Choice} {told : List (Option Report)}
  {phaseOf phaseOf' : Nat → LanePhase} {c c' : Contest}

theorem threads_start (starts : List Sending) {phaseOf : Nat → LanePhase}
    (hphase : ∀ index < starts.length, phaseOf index = .running) :
    Threads starts (fun _ => []) (List.replicate starts.length none) phaseOf starts where
  lane_eq := by
    intro index
    cases starts[index]? <;> rfl
  thread := by
    intro index start hstart
    have hlt := (List.getElem?_eq_some_iff.mp hstart).1
    refine ⟨.inl ?_, iff_of_true (hphase index hlt) rfl⟩
    rw [List.getElem?_replicate, if_pos hlt]
    rfl

/-- A lane goes on by choices of its own. -/
theorem Threads.goOn (h : Threads starts own told phaseOf lanes) {index : Nat} {lane : Sending}
    (hlane : lanes[index]? = some lane) {more : List Choice} {report : Option Report}
    (hreport : lane.reportIn more = report)
    (hother : ∀ other, other ≠ index → phaseOf' other = phaseOf other)
    (hphase : phaseOf' index = .running ↔ phaseOf index = .running ∧
      ((Run.start lane).choices more).ending = none) :
    Threads starts (fun other => own other ++ Sending.ownOf (some (index, more)) other)
      (tell? told (report.map (index, ·))) phaseOf' (Sending.goOn lanes (some (index, more))) where
  lane_eq := by
    intro other
    rw [Sending.getElem?_goOn, h.lane_eq]
    cases starts[other]? with
    | none => rfl
    | some start => simp only [Option.map_some, Sending.afterAll_append]
  thread := by
    intro other start hstart
    have hthread := h.thread other start hstart
    dsimp only [Sending.ownOf]
    by_cases hsame : index = other
    · subst hsame
      have hlane' := h.lane_eq index
      rw [hlane, hstart, Option.map_some, Option.some.injEq] at hlane'
      subst hlane'
      rw [if_pos rfl, Contest.getElem?_tell?_self]
      exact hthread.goOn hreport hphase
    · rw [if_neg hsame, List.append_nil, Contest.getElem?_tell?_ne _ _ (Ne.symm hsame),
        hother other (Ne.symm hsame)]
      exact hthread

/-- A lane that does not exist does not go on. -/
theorem Threads.goOn_of_none (h : Threads starts own told phaseOf lanes) {index : Nat}
    (hlane : lanes[index]? = none) (more : List Choice) :
    Threads starts (fun other => own other ++ Sending.ownOf (some (index, more)) other) told phaseOf
      (Sending.goOn lanes (some (index, more))) := by
  rw [h.lane_eq, Option.map_eq_none_iff] at hlane
  have hown : ∀ other, starts[other]? ≠ none →
      own other ++ Sending.ownOf (some (index, more)) other = own other := by
    intro other hsome
    have hne : index ≠ other := by
      rintro rfl
      exact hsome hlane
    rw [Sending.ownOf, if_neg hne, List.append_nil]
  refine ⟨fun other => ?_, fun other start hstart => ?_⟩
  · rw [Sending.getElem?_goOn, h.lane_eq]
    cases hstart : starts[other]? with
    | none => rfl
    | some start =>
      rw [Option.map_some, Option.map_some, Option.map_some, Sending.afterAll_append]
  · rw [hown other (by simp [hstart])]
    exact h.thread other start hstart

/-- No lane goes on. -/
theorem Threads.congr (h : Threads starts own told phaseOf lanes) {told' : List (Option Report)}
    (hthread : ∀ (index : Nat) (start : Sending),
      Thread start (own index) told[index]? (phaseOf index) →
        Thread start (own index) told'[index]? (phaseOf' index)) :
    Threads starts (fun other => own other ++ Sending.ownOf none other) told' phaseOf' lanes := by
  simp only [Sending.ownOf, List.append_nil]
  exact ⟨h.lane_eq, fun index start hstart => hthread index start (h.thread index start hstart)⟩

/-! ## Moves -/

/-- Nobody waits for ever for a slot that is closed: there is no response to be cancelled. -/
theorem Contest.closeSlot_ne_never (c : Contest) (owner : Option Nat) (index : Nat)
    (result : Delivery) : (c.closeSlot owner index result).2.2 ≠ .answers .never := by
  unfold closeSlot
  split
  · exact nofun
  · unfold reportSlot
    have hlate := @Race.responseOf?_of_late c.policy c.race index (.error (failureOf result))
    generalize c.race.report c.policy index (.error (failureOf result)) = reported at hlate
    obtain ⟨race, entries, ruling⟩ := reported
    cases ruling with
    | late response =>
      cases hlate rfl
      exact nofun
    | _ => exact nofun

/-- A lane that has come back does not run any more. -/
theorem Contest.phaseOf_laneTold (c : Contest) {index : Nat} (hlt : index < c.lanes.length)
    {reaction : Reaction} (hreaction : reaction ≠ .answers .never) :
    (c.laneTold index reaction).phaseOf index ≠ .running ∧
      ∀ other, other ≠ index → (c.laneTold index reaction).phaseOf other = c.phaseOf other := by
  have hset : ∀ phase, phase ≠ .running → (c.setPhase index phase).phaseOf index ≠ .running ∧
      ∀ other, other ≠ index → (c.setPhase index phase).phaseOf other = c.phaseOf other :=
    fun phase hphase => ⟨by rwa [phaseOf_setPhase_self c hlt],
      fun other hne => phaseOf_setPhase_ne c hne phase⟩
  rcases reaction with (result | message | _) | reply
  · exact hset _ nofun
  · exact hset _ nofun
  · exact absurd rfl hreaction
  · exact hset _ nofun

theorem Contest.phaseOf_mainTold (c : Contest) (reaction : Reaction) :
    (c.mainTold reaction).phaseOf = c.phaseOf := by
  rcases reaction with (_ | _ | _) | _ <;> rfl

/-- Nothing is reported by a step that lets nothing be seen. -/
theorem Sending.laneReport?_eq_none {own : Bool} {signal : Signal}
    (hdelivered : Run.deliveredBy signal = []) (hending : Run.endingBy signal = none) :
    laneReport? own signal = none := by
  cases signal with
  | delivers reply => cases hdelivered
  | returned result => cases hending
  | _ => rfl

/-- A step of a run that has just begun. -/
theorem Run.ending_step (lane : Sending) (path : Path) (more : List Choice)
    (hmore : ∀ choice ∈ more, ∃ response, choice = .answer response) :
    ((Run.start lane).choices (.task path :: more)).ending =
      Run.endingBy (lane.step path).signal := by
  have hanswers : ∀ (more : List Choice) (r : Run),
      (∀ choice ∈ more, ∃ response, choice = .answer response) →
        (r.choices more).ending = r.ending := by
    intro more
    induction more with
    | nil => exact fun r _ => rfl
    | cons choice rest ih =>
      intro r hmore
      obtain ⟨response, rfl⟩ := hmore choice List.mem_cons_self
      exact ih _ fun other hother => hmore other (List.mem_cons_of_mem _ hother)
  exact hanswers more ((Run.start lane).choose (.task path)) hmore

theorem Reaction.answer_of_choices (reaction : Reaction) :
    ∀ choice ∈ reaction.choices, ∃ response, choice = .answer response := by
  intro choice hchoice
  cases reaction with
  | replays reply => cases hchoice
  | answers response => exact ⟨response, List.mem_singleton.mp hchoice⟩

/-- **Each move keeps it**, whatever the lanes, the policy and the connection do. -/
theorem Threads.moves (h : Threads starts own told c.phaseOf lanes)
    (hlength : lanes.length = c.lanes.length) {choice : Choice}
    {going : Option (Nat × List Choice)} {report : Option (Nat × Report)} {gives : List Reply}
    {ends : Option Ending} (hmoves : Moves c lanes choice going report gives ends c') :
    Threads starts (fun index => own index ++ Sending.ownOf going index) (tell? told report)
      c'.phaseOf (Sending.goOn lanes going) := by
  have hlt : ∀ {index : Nat} {lane : Sending}, lanes[index]? = some lane →
      index < c.lanes.length := fun hlane =>
    hlength ▸ (List.getElem?_eq_some_iff.mp hlane).1
  cases hmoves with
  | mainRests hrests => exact h.congr fun _ _ => id
  | laneRests hrests => exact h.congr fun _ _ => id
  | ignores hreplay => exact h.congr fun _ _ => id
  | main hgoes => exact h.congr fun _ _ => id
  | @closes index message cause closed hmain hown hindex hphase hclosed =>
    have hsame := Contest.sameTasks_of_closeSlot hclosed
    rw [Contest.phaseOf_mainTold, funext hsame.phaseOf_eq]
    refine h.congr fun other start hthread => ?_
    rw [Contest.tell?]
    by_cases heq : other = index
    · subst heq
      rw [Contest.getElem?_tellFirst_self]
      exact hthread.abort (by rw [hphase]; simp) _
    · rw [Contest.getElem?_tellFirst_ne told heq]
      exact hthread
  | @runs index path lane hfree hlane hdelivered hending =>
    have hreport : lane.reportIn [.task path] = none := by
      rw [Sending.reportIn, Sending.tells?, Sending.laneReport?_eq_none hdelivered hending]
      rfl
    refine h.goOn hlane hreport (fun _ _ => rfl) ?_
    rw [Run.ending_step lane path [] nofun, hending]
    exact (and_iff_left rfl).symm
  | @delivers index path lane reply received hfree hlane hsignal hreceived =>
    have hsame := Contest.sameTasks_of_receive hreceived
    have hreport : lane.reportIn (.task path :: received.2.2.choices) = some (.ok reply) := by
      rw [Sending.reportIn, Sending.tells?, hsignal]
      rfl
    refine h.goOn hlane hreport (fun other _ => hsame.phaseOf_eq other) ?_
    rw [Run.ending_step lane path _ received.2.2.answer_of_choices, hsignal, hsame.phaseOf_eq]
    exact (and_iff_left rfl).symm
  | @returns index lane result closed hfree hlane hsignal hclosed =>
    have hsame := Contest.sameTasks_of_closeSlot hclosed
    have hlanes := Contest.length_lanes_hears (Contest.hears_of_closeSlot hclosed)
    have hnever := Contest.closeSlot_ne_never c (some index) index result
    rw [hclosed] at hnever
    have hreport : lane.reportIn [.task []] = some (.error (Contest.failureOf result)) := by
      rw [Sending.reportIn, Sending.tells?, hsignal]
      rfl
    obtain ⟨hself, hother⟩ :=
      closed.1.phaseOf_laneTold (by rw [hlanes]; exact hlt hlane) hnever
    refine h.goOn hlane hreport
      (fun other hne => (hother other hne).trans (hsame.phaseOf_eq other)) ?_
    rw [Run.ending_step lane [] [] nofun, hsignal]
    exact iff_of_false hself fun hboth => by cases hboth.2
  | @panics index lane message hfree hlane hsignal =>
    have hreport : lane.reportIn [.task []] = none := by
      rw [Sending.reportIn, Sending.tells?, hsignal]
      rfl
    refine h.goOn hlane hreport (fun other hne => Contest.phaseOf_setPhase_ne c hne _) ?_
    rw [Run.ending_step lane [] [] nofun, hsignal, Contest.phaseOf_setPhase_self c (hlt hlane)]
    exact iff_of_false nofun fun hboth => by cases hboth.2
  | @answersMain response losers concluded hreplay hconcluded =>
    have hconcludes := Contest.concludes_of_conclude hconcluded
    rw [Contest.phaseOf_mainTold, hconcludes.phaseOf_eq]
    exact h.congr fun _ _ => id
  | @answersReplay response index losers concluded hreplay hconcluded hphase =>
    have hconcludes := Contest.concludes_of_conclude hconcluded
    rw [hconcludes.phaseOf_eq] at hphase
    have hindex : index < concluded.1.lanes.length := by
      refine Decidable.byContradiction fun hge => ?_
      have hnone := congrFun hconcludes.phaseOf_eq index
      rw [hphase, Contest.phaseOf, List.getElem?_eq_none (Nat.le_of_not_lt hge)] at hnone
      cases hnone
    by_cases hnever : concluded.2.2 = .never
    · rw [hnever, Contest.laneTold, hconcludes.phaseOf_eq]
      exact h.congr fun _ _ => id
    · have hanswers : Reaction.answers concluded.2.2 ≠ .answers .never := by simpa using hnever
      obtain ⟨hself, hother⟩ := concluded.1.phaseOf_laneTold hindex hanswers
      refine h.congr fun other start hthread => ?_
      by_cases heq : other = index
      · subst heq
        exact hthread.setPhase (by rw [hphase]; simp) hself
      · rw [hother other heq, hconcludes.phaseOf_eq]
        exact hthread
  | @answersLane response index losers concluded hreplay hconcluded hphase =>
    have hconcludes := Contest.concludes_of_conclude hconcluded
    rw [hconcludes.phaseOf_eq]
    cases hlane : lanes[index]? with
    | none => exact h.goOn_of_none hlane _
    | some lane =>
      have hreport : lane.reportIn [.answer concluded.2.2] = none := rfl
      refine h.goOn hlane hreport (fun _ _ => rfl) ?_
      exact (and_iff_left rfl).symm

end

end Switchboard
