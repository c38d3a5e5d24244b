import Switchboard.Proofs.Delivery.Lanes
set_option autoImplicit false

/-! # Runs of a broadcast

A broadcast goes on with the choices of its lanes, of its main task and of its connection, in any
order. `Races` puts the lanes together with the contest, and each kind of choice has a lemma that it
keeps it. `Run.Contends.choices` is what follows for a run.

The broadcast is a `GroupResponse` that is being sent, with the tasks of its backends. -/

namespace Switchboard

open Contest (tellFirst tell? length_tell? MainStage)

/-- The first answer of a connection that comes after it has been given a response. -/
def answerNext (delivered : List Reply) (answer : Option Delivery) : Choice → Option Delivery
  | .task _ => answer
  | .answer response => if delivered.isEmpty then answer else Contest.answeredBy answer response

/-! ## The broadcast -/

/-- **The invariant of a broadcast.** -/
structure Races (accepts : ResponseHead → Bool) (starts : List Sending)
    (told : List (Option Report)) (answer : Option Delivery) (delivered : List Reply)
    (ending : Option Ending) (c : Contest) (lanes : List Sending) : Prop where
  keeps : c.Keeps accepts told delivered answer
  main : MainStage told c.phaseOf c.main c.verdict ending
  lanes : LanesRun starts told c.phaseOf lanes

/-- After a turn the broadcast is still as it should be. -/
def GoesOn (accepts : ResponseHead → Bool) (starts : List Sending) (told : List (Option Report))
    (answer : Option Delivery) (delivered : List Reply) (ending : Option Ending)
    (t : Turn) : Prop :=
  ∃ c lanes, t.next = .broadcast c lanes ∧
    Races accepts starts told answer (delivered ++ Run.deliveredBy t.signal)
      (ending <|> Run.endingBy t.signal) c lanes

section

variable {accepts : ResponseHead → Bool} {starts lanes : List Sending}
  {told : List (Option Report)} {answer : Option Delivery} {delivered : List Reply}
  {ending : Option Ending} {c : Contest}

/-- The main task is where it was while a lane goes on. -/
theorem Contest.MainStage.lane {phaseOf phaseOf' : Nat → LanePhase} {main : MainPhase}
    {verdict : Verdict} (h : MainStage told phaseOf main verdict ending)
    (report : Option (Nat × Report)) {index : Nat}
    (hother : ∀ other, other ≠ index → phaseOf' other = phaseOf other)
    (hindex : (tell? told report)[index]? ≠ some none ∨
      (∃ message, phaseOf' index = .ended (some message)) ∨ phaseOf' index = phaseOf index) :
    MainStage (tell? told report) phaseOf' main verdict ending := by
  refine h.congr (fun other => Contest.tell?_ne_none report) fun other message hphase => ?_
  by_cases hne : other = index
  · subst hne
    rcases hindex with htold | hended | hsame
    · exact .inl htold
    · exact .inr hended
    · exact .inr ⟨message, hsame.trans hphase⟩
  · exact .inr ⟨message, (hother other hne).trans hphase⟩

theorem Races.goesOn {t : Turn} {reply : Reply} {c' : Contest} {lanes' : List Sending}
    (h : Races accepts starts told answer (delivered ++ [reply]) ending c' lanes')
    (hnext : t.next = .broadcast c' lanes') (hsignal : t.signal = .delivers reply) :
    GoesOn accepts starts told answer delivered ending t := by
  refine ⟨c', lanes', hnext, ?_⟩
  rw [hsignal]
  cases ending <;> exact h

theorem Races.goesOn_quiet {t : Turn} {c' : Contest} {lanes' : List Sending}
    (h : Races accepts starts told answer delivered ending c' lanes')
    (hnext : t.next = .broadcast c' lanes') (hdelivered : Run.deliveredBy t.signal = [])
    (hending : Run.endingBy t.signal = none) :
    GoesOn accepts starts told answer delivered ending t := by
  refine ⟨c', lanes', hnext, ?_⟩
  rw [hdelivered, hending, List.append_nil]
  cases ending <;> exact h

/-- A lane delivers a response into its slot. -/
theorem Races.laneDelivers (h : Races accepts starts told answer delivered ending c lanes)
    {index : Nat} {lane : Sending} (hlane : lanes[index]? = some lane) {path : Path} {reply : Reply}
    (hsignal : (lane.step path).signal = .delivers reply) :
    GoesOn accepts starts (tellFirst told (index, .ok reply)) answer delivered ending
      (Sending.laneTurn c index path.isEmpty (lane.step path)
        (lanes.modify index fun lane => (lane.step path).next)) := by
  have hreacts := h.keeps.receive index reply
  have hsame := Contest.sameTasks_receive c index reply
  have hlanes := h.lanes.stepOn hlane path (by rw [hsignal]; rfl) hsame.phaseOf_eq
  have hmain := h.main.lane (some (index, .ok reply)) (fun other _ => hsame.phaseOf_eq other)
    (.inr (.inr (hsame.phaseOf_eq index)))
  rw [← hsame.main_eq, ← hsame.verdict_eq] at hmain
  rw [hsignal] at hlanes
  unfold Sending.laneTurn
  rw [hsignal]
  dsimp only
  generalize c.receive index reply = received at hreacts hmain hlanes ⊢
  obtain ⟨c', notes, reaction⟩ := received
  cases hreacts with
  | replays hkeeps => exact Races.goesOn ⟨hkeeps, hmain, hlanes⟩ rfl rfl
  | answers hkeeps =>
    refine Races.goesOn_quiet ⟨hkeeps, hmain, hlanes.answer index (.result (.ok ()))⟩ ?_ rfl rfl
    rw [← Sending.resumeLane_eq]
  | never hkeeps =>
    refine Races.goesOn_quiet ⟨hkeeps, hmain, hlanes.answer index .never⟩ ?_ rfl rfl
    rw [← Sending.resumeLane_eq]

/-- A lane comes to its end: its slot has reported, or it has panicked. -/
theorem Races.endLane (h : Races accepts starts told answer delivered ending c lanes) {index : Nat}
    {lane : Sending} (hlane : lanes[index]? = some lane) {path : Path}
    (hending : Run.endingBy (lane.step path).signal ≠ none) {c' : Contest} (hsame : c.SameTasks c')
    {report : Option Report}
    (hreport : Sending.laneReport? path.isEmpty (lane.step path).signal = report)
    {delivered' : List Reply}
    (hkeeps : c'.Keeps accepts (tell? told (report.map (index, ·))) delivered' answer)
    {phase : LanePhase} (hphase : phase ≠ .running)
    (hover : (tell? told (report.map (index, ·)))[index]? ≠ some none ∨
      ∃ message, phase = .ended (some message)) :
    Races accepts starts (tell? told (report.map (index, ·))) answer delivered' ending
      (c'.setPhase index phase) (lanes.modify index fun lane => (lane.step path).next) := by
  have hindex : index < (tell? told (report.map (index, ·))).length := by
    rw [length_tell?, h.lanes.length_told, ← h.lanes.length_eq]
    exact (List.getElem?_eq_some_iff.mp hlane).1
  have hself : (c'.setPhase index phase).phaseOf index = phase :=
    Contest.phaseOf_setPhase_self c' (hkeeps.length_lanes ▸ hindex) phase
  have hother : ∀ other, other ≠ index →
      (c'.setPhase index phase).phaseOf other = c.phaseOf other := fun other hne =>
    (Contest.phaseOf_setPhase_ne c' hne phase).trans (hsame.phaseOf_eq other)
  refine ⟨hkeeps.setPhase hindex fun hquiet => ?_, ?_, ?_⟩
  · rcases hover with htold | ⟨message, rfl⟩
    · exact htold
    · rcases hquiet with heq | heq <;> cases heq
  · have hmain := h.main.lane (report.map (index, ·)) hother <| by
      rcases hover with htold | ⟨message, heq⟩
      · exact .inl htold
      · exact .inr (.inl ⟨message, hself.trans heq⟩)
    rwa [← hsame.main_eq, ← hsame.verdict_eq] at hmain
  · rw [← hreport]
    exact h.lanes.stepOver hlane hending hother (by rwa [hself])

/-- A lane returns, and its slot has reported by then. -/
theorem Races.laneReturns (h : Races accepts starts told answer delivered ending c lanes)
    {index : Nat} {lane : Sending} (hlane : lanes[index]? = some lane) {result : Delivery}
    (hsignal : (lane.step []).signal = .returned result) :
    GoesOn accepts starts (tellFirst told (index, .error (Contest.failureOf result))) answer
      delivered ending
      (Sending.laneTurn c index true (lane.step [])
        (lanes.modify index fun lane => (lane.step []).next)) := by
  obtain ⟨hreacts, hnever⟩ := h.keeps.closeSlot (some index) index result
  have hsame := Contest.sameTasks_closeSlot c (some index) index result
  have htold := Contest.tellFirst_self_ne_none told index (.error (Contest.failureOf result))
  have hending : Run.endingBy (lane.step []).signal ≠ none := by
    rw [hsignal]
    exact Option.some_ne_none _
  have hreport : Sending.laneReport? true (lane.step []).signal =
      some (.error (Contest.failureOf result)) := by rw [hsignal]; rfl
  unfold Sending.laneTurn
  rw [hsignal]
  dsimp only [if_true]
  generalize c.closeSlot (some index) index result = closed at hreacts hsame hnever ⊢
  obtain ⟨c', notes, reaction⟩ := closed
  cases hreacts with
  | never hkeeps => exact absurd rfl hnever
  | replays hkeeps =>
    exact (h.endLane hlane hending hsame hreport hkeeps (by simp) (.inl htold)).goesOn rfl rfl
  | answers hkeeps =>
    exact (h.endLane hlane hending hsame hreport hkeeps (by simp) (.inl htold)).goesOn_quiet
      rfl rfl rfl

/-- A lane panics, and its slot is left to the main task. -/
theorem Races.lanePanics (h : Races accepts starts told answer delivered ending c lanes)
    {index : Nat} {lane : Sending} (hlane : lanes[index]? = some lane) {message : String}
    (hsignal : (lane.step []).signal = .panicked message) :
    GoesOn accepts starts told answer delivered ending
      (Sending.laneTurn c index true (lane.step [])
        (lanes.modify index fun lane => (lane.step []).next)) := by
  have hending : Run.endingBy (lane.step []).signal ≠ none := by
    rw [hsignal]
    exact Option.some_ne_none _
  have hreport : Sending.laneReport? true (lane.step []).signal = none := by rw [hsignal]; rfl
  unfold Sending.laneTurn
  rw [hsignal]
  exact (h.endLane hlane hending ⟨rfl, rfl, fun _ => rfl⟩ hreport h.keeps (by simp)
    (.inr ⟨message, rfl⟩)).goesOn_quiet rfl rfl rfl

/-- **A lane does one thing.** -/
theorem Races.laneTurn (h : Races accepts starts told answer delivered ending c lanes)
    {index : Nat} {lane : Sending} (hlane : lanes[index]? = some lane) (path : Path) :
    GoesOn accepts starts
      (tell? told ((Sending.laneReport? path.isEmpty (lane.step path).signal).map (index, ·)))
      answer delivered ending
      (Sending.laneTurn c index path.isEmpty (lane.step path)
        (lanes.modify index fun lane => (lane.step path).next)) := by
  cases hsignal : (lane.step path).signal with
  | delivers reply => exact h.laneDelivers hlane hsignal
  | returned result =>
    obtain rfl : path = [] := Sending.path_eq_nil_of_endingBy (by rw [hsignal]; simp [Run.endingBy])
    exact h.laneReturns hlane hsignal
  | panicked message =>
    obtain rfl : path = [] := Sending.path_eq_nil_of_endingBy (by rw [hsignal]; simp [Run.endingBy])
    exact h.lanePanics hlane hsignal
  | _ =>
    have hlanes := h.lanes.stepOn hlane path (by rw [hsignal]; rfl) fun _ => rfl
    rw [hsignal] at hlanes
    unfold Sending.laneTurn
    rw [hsignal]
    exact Races.goesOn_quiet ⟨h.keeps, h.main, hlanes⟩ rfl rfl rfl

/-- The main task goes on, and nothing else changes. -/
theorem Races.setMain (h : Races accepts starts told answer delivered ending c lanes)
    {main : MainPhase} (hmain : MainStage told c.phaseOf main c.verdict ending) :
    Races accepts starts told answer delivered ending { c with main := main } lanes :=
  ⟨h.keeps.congr rfl rfl rfl rfl rfl, hmain, h.lanes⟩

theorem Contest.Stage.verdict_ne_lost {undecided : Bool} {replay : Option ReplayState}
    {verdict : Verdict} (h : Contest.Stage accepts told undecided delivered answer replay verdict) :
    verdict ≠ .lost := by
  cases h <;> exact fun heq => by cases heq

/-- A lane that is over has reported, or it has panicked. -/
theorem Contest.Keeps.allSettled_of_allOver (h : c.Keeps accepts told delivered answer)
    (hover : c.allOver = true) : Contest.AllSettled told c.phaseOf := by
  intro index
  obtain ⟨panic, hphase⟩ := c.allOver_iff.mp hover index
  cases panic with
  | none => exact .inl (h.told_of_phase index (.inl hphase))
  | some message => exact .inr ⟨message, hphase⟩

/-- One more slot is closed. -/
theorem Contest.MainStage.closeNext {phaseOf : Nat → LanePhase} {verdict : Verdict} {index : Nat}
    (hclosed : ∀ other < index, told[other]? ≠ some none) (hindex : told[index]? ≠ some none)
    (hover : Contest.AllSettled told phaseOf) :
    MainStage told phaseOf (.closing (index + 1)) verdict none := by
  refine .closing (fun other hlt => ?_) hover
  rcases Nat.lt_succ_iff_lt_or_eq.mp hlt with hbelow | rfl
  · exact hclosed other hbelow
  · exact hindex

/-- The main task reports in the name of a lane that has panicked. -/
theorem Races.abort (h : Races accepts starts told answer delivered none c lanes) {index : Nat}
    (hclosed : ∀ other < index, told[other]? ≠ some none)
    (hover : Contest.AllSettled told c.phaseOf) (hphase : c.phaseOf index ≠ .running)
    (cause : SendError) {closed : Contest × List Note × Reaction}
    (hclose : ({ c with main := .closing (index + 1) } : Contest).closeSlot none index
      (.error cause) = closed) :
    Contest.Reacts accepts (tellFirst told (index, .error cause)) delivered answer closed.1
        closed.2.2 ∧
      closed.2.2 ≠ .answers .never ∧
      MainStage (tellFirst told (index, .error cause)) closed.1.phaseOf closed.1.main
        closed.1.verdict none ∧
      LanesRun starts (tellFirst told (index, .error cause)) closed.1.phaseOf lanes := by
  have hkeeps : ({ c with main := .closing (index + 1) } : Contest).Keeps accepts told delivered
      answer := h.keeps.congr rfl rfl rfl rfl rfl
  obtain ⟨hreacts, hnever⟩ := hkeeps.closeSlot none index (.error cause)
  have hsame := Contest.sameTasks_closeSlot { c with main := .closing (index + 1) } none index
    (.error cause)
  rw [hclose] at hreacts hsame hnever
  have hphases : closed.1.phaseOf = c.phaseOf := funext hsame.phaseOf_eq
  refine ⟨hreacts, hnever, ?_, ?_⟩
  · rw [hphases, hsame.main_eq, hsame.verdict_eq]
    refine .closeNext (fun other hlt => Contest.tellFirst_ne_none _ (hclosed other hlt))
      (Contest.tellFirst_self_ne_none told index _) fun other => ?_
    rcases hover other with htold | hended
    · exact .inl (Contest.tellFirst_ne_none _ htold)
    · exact .inr hended
  · rw [hphases]
    exact h.lanes.abort hphase cause

/-- The main task closes the slots in turn. -/
theorem Races.stepClosing (h : Races accepts starts told answer delivered none c lanes)
    {index : Nat} (hmain : c.main = .closing index)
    (hclosed : ∀ other < index, told[other]? ≠ some none)
    (hover : Contest.AllSettled told c.phaseOf) :
    GoesOn accepts starts (tell? told (Sending.mainReport? c lanes.length)) answer delivered none
      (Sending.stepMain c lanes) := by
  unfold Sending.stepMain Sending.mainReport?
  rw [hmain]
  dsimp only
  by_cases hown : c.replay.any (·.owner.isNone) = true
  · -- The main task replays the chosen response itself, and waits for its own replay.
    rw [if_pos hown, hown, Bool.true_or, if_pos rfl]
    exact h.goesOn_quiet rfl rfl rfl
  · rw [if_neg hown, eq_false_of_ne_true hown, Bool.false_or]
    by_cases hlast : lanes.length ≤ index
    -- All slots are closed, and so all of them have reported.
    · rw [if_pos hlast, if_pos (decide_eq_true hlast)]
      refine (h.setMain (.awaiting fun other htold => ?_)).goesOn_quiet rfl rfl rfl
      refine hclosed other (Nat.lt_of_lt_of_le ?_ hlast) htold
      rw [h.lanes.length_eq, ← h.lanes.length_told]
      exact (List.getElem?_eq_some_iff.mp htold).1
    · rw [if_neg hlast, if_neg (by simpa using hlast)]
      by_cases hended : ∃ message, c.phaseOf index = .ended (some message)
      · obtain ⟨message, hended⟩ := hended
        rw [hended]
        dsimp only
        generalize hclose : Contest.closeSlot _ none index _ = closed
        obtain ⟨hreacts, hnever, hmain', hlanes⟩ :=
          h.abort hclosed hover (by rw [hended]; simp) _ hclose
        obtain ⟨c', notes, reaction⟩ := closed
        cases hreacts with
        | replays hkeeps => exact Races.goesOn ⟨hkeeps, hmain', hlanes⟩ rfl rfl
        | answers hkeeps => exact Races.goesOn_quiet ⟨hkeeps, hmain', hlanes⟩ rfl rfl rfl
        | never hkeeps => exact absurd rfl hnever
      · -- The lane has not panicked, so its slot has reported already.
        have htold : told[index]? ≠ some none := (hover index).resolve_right hended
        have hsetMain := h.setMain (.closeNext hclosed htold hover)
        cases hphase : c.phaseOf index with
        | running => exact hsetMain.goesOn_quiet rfl rfl rfl
        | replaying => exact hsetMain.goesOn_quiet rfl rfl rfl
        | ended panic =>
          cases panic with
          | none => exact hsetMain.goesOn_quiet rfl rfl rfl
          | some message => exact absurd ⟨message, hphase⟩ hended

/-- **The main task does one thing.** -/
theorem Races.stepMain (h : Races accepts starts told answer delivered ending c lanes) :
    GoesOn accepts starts (tell? told (Sending.mainReport? c lanes.length)) answer delivered ending
      (Sending.stepMain c lanes) := by
  have hmain := h.main
  generalize hphase : c.main = main at hmain
  generalize hverdict : c.verdict = verdict at hmain
  cases hmain with
  | closing hclosed hover => exact h.stepClosing hphase hclosed hover
  | spawning =>
    have hmain' : MainStage told c.phaseOf c.afterSpawning c.verdict none := by
      unfold Contest.afterSpawning
      split
      · exact .joining 0
      · exact .yielding
    rw [Sending.stepMain, Sending.mainReport?, hphase]
    exact (h.setMain hmain').goesOn_quiet rfl rfl rfl
  | yielding =>
    rw [Sending.stepMain, Sending.mainReport?, hphase]
    exact (h.setMain (.joining 0)).goesOn_quiet rfl rfl rfl
  | joining seen =>
    rw [Sending.stepMain, Sending.mainReport?, hphase]
    dsimp only
    split
    · exact (h.setMain (.joining _)).goesOn_quiet rfl rfl rfl
    · split
      · next hover =>
        have hclosing : MainStage told c.phaseOf (.closing 0) c.verdict none :=
          .closing (fun index hlt => absurd hlt (Nat.not_lt_zero index))
            (h.keeps.allSettled_of_allOver hover)
        exact (h.setMain hclosing).goesOn_quiet rfl rfl rfl
      · exact h.goesOn_quiet rfl rfl rfl
  | awaiting hall =>
    -- The verdict is not lost, as the connection does not panic and the main task is still there.
    rw [Sending.stepMain, Sending.mainReport?, hphase]
    dsimp only
    cases hannounced : c.verdict with
    | «open» => exact h.goesOn_quiet rfl rfl rfl
    | lost => exact absurd hannounced h.keeps.stage.verdict_ne_lost
    | announced result =>
      have hleaving : MainStage told c.phaseOf .leaving c.verdict none := by
        rw [hannounced]
        exact .leaving hall
      refine (h.setMain hleaving).goesOn_quiet ?_ rfl rfl
      rw [hannounced]
  | @leaving result hall =>
    rw [Sending.stepMain, Sending.mainReport?, hphase]
    refine ⟨{ c with main := .gone }, lanes, rfl, ?_⟩
    dsimp only [Run.deliveredBy, Run.endingBy]
    rw [hverdict, List.append_nil]
    exact ⟨h.keeps.congr rfl rfl rfl rfl hverdict.symm, .gone hall, h.lanes⟩
  | gone hall =>
    rw [Sending.stepMain, Sending.mainReport?, hphase]
    exact h.goesOn_quiet rfl rfl rfl

theorem Contest.Stage.answer_of_none {undecided : Bool} {verdict : Verdict}
    (h : Contest.Stage accepts told undecided delivered answer none verdict) (response : Response) :
    answerNext delivered answer (.answer response) = answer := by
  cases h with
  | racing => rfl
  | announced hchooses => cases response <;> rfl

/-- A lane whose report decided the race comes to its end. -/
theorem Races.endReplay (h : Races accepts starts told answer delivered ending c lanes)
    {index : Nat} (hphase : c.phaseOf index = .replaying) :
    Races accepts starts told answer delivered ending (c.setPhase index (.ended none)) lanes := by
  have htold := h.keeps.told_of_phase index (.inr hphase)
  have hindex : index < told.length := by
    rw [← h.keeps.length_lanes]
    refine Decidable.byContradiction fun hge => ?_
    rw [Contest.phaseOf, List.getElem?_eq_none (Nat.le_of_not_lt hge)] at hphase
    cases hphase
  have hother : ∀ other, other ≠ index →
      (c.setPhase index (.ended none)).phaseOf other = c.phaseOf other := fun other hne =>
    Contest.phaseOf_setPhase_ne c hne _
  refine ⟨h.keeps.setPhase hindex fun _ => htold, h.main.lane none hother (.inl htold), ?_⟩
  refine h.lanes.congr rfl (fun other hne => ⟨rfl, hother other hne⟩)
    fun run result hresult haccounts => ?_
  refine ⟨result, hresult, haccounts.setPhase (by rw [hphase]; simp) ?_⟩
  rw [Contest.phaseOf_setPhase_self c (h.keeps.length_lanes ▸ hindex)]
  simp

/-- **The connection answers.** -/
theorem Races.resume (h : Races accepts starts told answer delivered ending c lanes)
    {response : Response} (hresponse : ∀ message, response ≠ .unwinds message) :
    ∃ c' lanes', ((Sending.broadcast c lanes).resume response).next = .broadcast c' lanes' ∧
      Races accepts starts told (answerNext delivered answer (.answer response)) delivered ending
        c' lanes' := by
  rw [Sending.resume]
  cases hreplay : c.replay with
  | none =>
    have hstage := h.keeps.stage
    rw [hreplay] at hstage
    rw [hstage.answer_of_none]
    exact ⟨c, lanes, rfl, h⟩
  | some replay =>
    obtain ⟨hkeeps, hmain, hphase, hunwinds⟩ := h.keeps.conclude h.main hreplay hresponse
    have hanswer : answerNext delivered answer (.answer response) =
        Contest.answeredBy answer response := by
      have hstage := h.keeps.stage
      rw [hreplay] at hstage
      obtain ⟨winner, -, rfl, -⟩ := hstage.of_replay
      rfl
    rw [hanswer]
    dsimp only
    generalize c.conclude replay response = concluded at hkeeps hmain hphase hunwinds ⊢
    obtain ⟨c', notes, reply⟩ := concluded
    rw [← hphase] at hmain
    have hlanes := h.lanes
    rw [← hphase] at hlanes
    have hraces : Races accepts starts told (Contest.answeredBy answer response) delivered ending
        c' lanes := ⟨hkeeps, hmain, hlanes⟩
    cases replay.owner with
    | none =>
      cases reply with
      | unwinds message => exact absurd rfl (hunwinds message)
      | result result => exact ⟨c', lanes, rfl, hraces⟩
      | never => exact ⟨c', lanes, rfl, hraces⟩
    | some index =>
      dsimp only
      -- The lane whose report decided the race ends with its replay. One that has delivered is told
      -- the answer, and goes on or has gone.
      cases hlane : c'.phaseOf index with
      | replaying =>
        cases reply with
        | unwinds message => exact absurd rfl (hunwinds message)
        | result result => exact ⟨_, lanes, rfl, hraces.endReplay hlane⟩
        | never => exact ⟨c', lanes, rfl, hraces⟩
      | running =>
        rw [Sending.resumeLane_eq]
        exact ⟨c', _, rfl, hkeeps, hmain, hlanes.answer index reply⟩
      | ended panic =>
        rw [Sending.resumeLane_eq]
        exact ⟨c', _, rfl, hkeeps, hmain, hlanes.answer index reply⟩

end

/-! ## Runs -/

/-- The first answer of the connection in a run that goes on with these choices. -/
def Run.answerAfter (r : Run) (answer : Option Delivery) : List Choice → Option Delivery
  | [] => answer
  | choice :: rest => (r.choose choice).answerAfter (answerNext r.delivered answer choice) rest

/-- A connection that does not panic. -/
def Choice.Calm (choice : Choice) : Prop := ∀ message, choice ≠ .answer (.unwinds message)

theorem calm_task (path : Path) : (Choice.task path).Calm := fun _ h => by cases h

/-- A run has come to a broadcast that is as it should be. -/
def Run.Contends (accepts : ResponseHead → Bool) (starts : List Sending)
    (told : List (Option Report)) (answer : Option Delivery) (r : Run) : Prop :=
  ∃ c lanes, r.sending = .broadcast c lanes ∧
    Races accepts starts told answer r.delivered r.ending c lanes

section

variable {accepts : ResponseHead → Bool} {starts : List Sending} {told : List (Option Report)}
  {answer : Option Delivery} {r : Run}

/-- A turn of a broadcast is a step of its run. -/
theorem GoesOn.contends {path : Path}
    (h : GoesOn accepts starts told answer r.delivered r.ending (r.sending.step path)) :
    (r.choose (.task path)).Contends accepts starts told answer := by
  obtain ⟨c, lanes, hnext, hraces⟩ := h
  exact ⟨c, lanes, hnext, hraces⟩

/-- **Each choice keeps the invariant.** -/
theorem Run.Contends.choose (h : r.Contends accepts starts told answer) {choice : Choice}
    (hchoice : choice.Calm) :
    (r.choose choice).Contends accepts starts (tell? told (r.sending.slotReport? choice))
      (answerNext r.delivered answer choice) := by
  obtain ⟨c, lanes, hsending, hraces⟩ := h
  cases choice with
  | answer response =>
    have hresponse : ∀ message, response ≠ .unwinds message := by
      rintro message rfl
      exact hchoice message rfl
    obtain ⟨c', lanes', hnext, hraces'⟩ := hraces.resume hresponse
    refine ⟨c', lanes', ?_, ?_⟩
    · rw [Run.choose, hsending]
      exact hnext
    · rw [hsending]
      exact hraces'
  | task path =>
    refine GoesOn.contends ?_
    rw [hsending]
    cases path with
    | nil => exact hraces.stepMain
    | cons index path =>
      rw [Sending.step, Sending.slotReport?]
      cases Sending.laneBlocks c index path with
      | true => exact hraces.goesOn_quiet rfl rfl rfl
      | false =>
        rw [if_neg Bool.false_ne_true, if_neg Bool.false_ne_true, Sending.stepLane_eq]
        cases hlane : lanes[index]? with
        | none => exact hraces.goesOn_quiet rfl rfl rfl
        | some lane => exact hraces.laneTurn hlane path

/-- **Each run keeps the invariant**, whatever the order of its choices. -/
theorem Run.Contends.choices (h : r.Contends accepts starts told answer) {list : List Choice}
    (hlist : ∀ choice ∈ list, choice.Calm) :
    (r.choices list).Contends accepts starts
      ((Sending.reportsIn r.sending list).foldl tellFirst told) (r.answerAfter answer list) := by
  -- On the choices, with what was told and answered so far.
  induction list generalizing r told answer with
  | nil => exact h
  | cons choice rest ih =>
    have hnext := ih (h.choose (hlist choice List.mem_cons_self))
      fun other hother => hlist other (List.mem_cons_of_mem _ hother)
    rw [Sending.foldl_reportsIn_cons, Run.answerAfter, ← Run.sending_choose]
    exact hnext

end

end Switchboard
