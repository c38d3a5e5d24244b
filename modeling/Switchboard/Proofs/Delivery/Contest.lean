import Switchboard.Delivery.Run
import Switchboard.Proofs.Race.Reports
set_option autoImplicit false

/-! # The invariant of a contest

What a contest owes to its lanes and to its connection, whatever the order in which lanes report and
end. `Contest.Stage` is how far the response is: the race is open, the chosen response is on its
way, and at last its result is announced. `Contest.MainStage` is how far the main task is: when it
has closed all slots, all of them have reported. `Contest.Keeps` puts both together with what the
race knows, and each way in which a contest goes on has a lemma that it keeps it.

The lanes are the tasks of the backends of a `GroupResponse`, and the main task is its `send`. -/

namespace Switchboard

namespace Contest

open Race (Knows Completes Chooses Loses chosen)

/-! ## Slots that report -/

/-- A slot reports once: anything that comes after its first report is not told. -/
def tellFirst (told : List (Option Report)) (report : Nat × Report) : List (Option Report) :=
  match told[report.1]? with
  | some none => told.set report.1 (some report.2)
  | _ => told

/-- What the slots of a contest have reported, when this is what happens at them in turn. -/
def toldAfter (slots : Nat) (reports : List (Nat × Report)) : List (Option Report) :=
  reports.foldl tellFirst (List.replicate slots none)

/-- All slots have reported. -/
def AllTold (told : List (Option Report)) : Prop := ∀ index : Nat, told[index]? ≠ some none

/-- Each slot has reported, or its lane has panicked. -/
def AllSettled (told : List (Option Report)) (phaseOf : Nat → LanePhase) : Prop :=
  ∀ index : Nat, told[index]? ≠ some none ∨ ∃ message, phaseOf index = .ended (some message)

section

variable {told : List (Option Report)} {index : Nat} {result : Report}

theorem tellFirst_of_none (h : told[index]? = some none) :
    tellFirst told (index, result) = told.set index (some result) := by
  rw [tellFirst, h]

theorem tellFirst_of_ne (h : told[index]? ≠ some none) : tellFirst told (index, result) = told := by
  unfold tellFirst
  split
  · next hnone => exact absurd hnone h
  · rfl

@[simp] theorem length_tellFirst (report : Nat × Report) :
    (tellFirst told report).length = told.length := by
  unfold tellFirst
  split
  · rw [List.length_set]
  · rfl

theorem set_ne_none (result : Report) {other : Nat} (h : told[other]? ≠ some none) :
    (told.set index (some result))[other]? ≠ some none := by
  by_cases hother : index = other
  · subst hother
    simp [List.getElem?_set]
  · rwa [List.getElem?_set_ne hother]

theorem set_self_ne_none (told : List (Option Report)) (index : Nat) (result : Report) :
    (told.set index (some result))[index]? ≠ some none := by
  simp [List.getElem?_set]

theorem tellFirst_self_ne_none (told : List (Option Report)) (index : Nat) (result : Report) :
    (tellFirst told (index, result))[index]? ≠ some none := by
  by_cases hindex : told[index]? = some none
  · rw [tellFirst_of_none hindex]
    exact set_self_ne_none told index result
  · rwa [tellFirst_of_ne hindex]

theorem tellFirst_ne_none (report : Nat × Report) {other : Nat} (h : told[other]? ≠ some none) :
    (tellFirst told report)[other]? ≠ some none := by
  by_cases hindex : told[report.1]? = some none
  · rw [tellFirst_of_none hindex]
    exact set_ne_none report.2 h
  · rwa [tellFirst_of_ne hindex]

theorem getElem?_tellFirst_self (told : List (Option Report)) (index : Nat) (result : Report) :
    (tellFirst told (index, result))[index]? = (told[index]?).map (· <|> some result) := by
  unfold tellFirst
  split
  · next h =>
    rw [List.getElem?_set_self (List.getElem?_eq_some_iff.mp h).1, h]
    rfl
  · next h =>
    cases htold : told[index]? with
    | none => rfl
    | some first =>
      cases first with
      | none => exact absurd htold h
      | some first => rfl

theorem getElem?_tellFirst_ne (told : List (Option Report)) {report : Nat × Report} {other : Nat}
    (h : other ≠ report.1) : (tellFirst told report)[other]? = told[other]? := by
  unfold tellFirst
  split
  · exact List.getElem?_set_ne (Ne.symm h)
  · rfl

/-- What the slots have reported when there may be one more report. -/
def tell? (told : List (Option Report)) : Option (Nat × Report) → List (Option Report)
  | none => told
  | some report => tellFirst told report

theorem length_tell? (told : List (Option Report)) (report : Option (Nat × Report)) :
    (tell? told report).length = told.length := by
  cases report with
  | none => rfl
  | some report => exact length_tellFirst report

theorem tell?_ne_none (report : Option (Nat × Report)) {other : Nat}
    (h : told[other]? ≠ some none) : (tell? told report)[other]? ≠ some none := by
  cases report with
  | none => exact h
  | some report => exact tellFirst_ne_none report h

theorem getElem?_tell?_self (told : List (Option Report)) (index : Nat) (report : Option Report) :
    (tell? told (report.map (index, ·)))[index]? = (told[index]?).map (· <|> report) := by
  cases report with
  | none =>
    cases htold : told[index]? with
    | none => exact htold
    | some result => cases result <;> exact htold
  | some report => exact getElem?_tellFirst_self told index report

theorem getElem?_tell?_ne (told : List (Option Report)) {index other : Nat} (report : Option Report)
    (h : other ≠ index) : (tell? told (report.map (index, ·)))[other]? = told[other]? := by
  cases report with
  | none => rfl
  | some report => exact getElem?_tellFirst_ne told h

/-- All results agree with what was told before a report as well. -/
theorem completes_of_set (hindex : told[index]? = some none) {results : List Report}
    (h : Completes (told.set index (some result)) results) : Completes told results where
  length_eq := by rw [h.length_eq, List.length_set]
  result_eq := by
    intro other result' htold
    refine h.result_eq other result' ?_
    rw [List.getElem?_set_ne, htold]
    rintro rfl
    rw [hindex] at htold
    cases htold

end

section

variable {accepts : ResponseHead → Bool} {told : List (Option Report)} {index : Nat}

/-- What has lost before a report has lost after it as well. -/
theorem loses_tellFirst {other : Nat} {response : HeldReply}
    (h : Loses accepts told other response) (report : Nat × Report) :
    Loses accepts (tellFirst told report) other response :=
  h.mono fun place held hheld => by
    by_cases hsame : place = report.1
    · subst hsame
      rw [getElem?_tellFirst_self, hheld]
      rfl
    · rw [getElem?_tellFirst_ne told hsame, hheld]

/-- **A response that is told after the decision loses.** The choice is the same whether it is told
or fails. -/
theorem loses_of_late {winner : Option (Nat × HeldReply)} {reply : Reply}
    (hchooses : ∀ results, Completes told results → Chooses accepts results winner reply)
    (hindex : told[index]? = some none) (response : HeldReply) :
    Loses accepts (told.set index (some (.ok response))) index response := by
  have hself := List.getElem?_set_self (List.getElem?_eq_some_iff.mp hindex).1
    (a := some (.ok response : Report))
  refine ⟨hself, fun haccepts => ?_⟩
  have hmissing := hchooses _ (Race.completes_getD told (.closed ""))
  have hcompletes := Race.completes_getD (told.set index (some (.ok response))) (.closed "")
  have haccepted : Race.AcceptedAt accepts _ index response :=
    ⟨hcompletes.result_eq index _ hself, haccepts⟩
  cases hchooses _ (completes_of_set hindex hcompletes) with
  | none hnone => exact absurd haccepted (hnone index response)
  | @winner best _ hbest hlowest =>
    cases hmissing with
    | winner hfirst _ =>
      -- The winner was told before, as what is missing fails here.
      obtain ⟨first, htold, hfirst⟩ := Option.map_eq_some_iff.mp (List.getElem?_map .. ▸ hfirst.1)
      cases first with
      | none => cases hfirst
      | some first =>
        obtain rfl : first = .ok _ := hfirst
        have hne : index ≠ best := by
          rintro rfl
          rw [hindex] at htold
          cases htold
        have hle : ¬ index < best := fun hlt => hlowest index hlt response haccepted
        exact ⟨best, by omega, _, by rw [List.getElem?_set_ne hne]; exact htold, hbest.2⟩

end

/-! ## The response -/

/-- **How far the response of a contest is.** The flag says that the race is undecided. The
connection has been given nothing until the race is decided, and then the chosen response; its
answer is announced, unless a loser keeps whoever cancels it busy for ever. -/
inductive Stage (accepts : ResponseHead → Bool) (told : List (Option Report)) :
    Bool → List Reply → Option Delivery → Option ReplayState → Verdict → Prop where
  | racing : Stage accepts told true [] none none .open
  | replaying {winner : Option (Nat × HeldReply)} {replay : ReplayState}
      (hchooses : ∀ results, Completes told results →
        Chooses accepts results winner (chosen winner))
      (hlosers : ∀ loser ∈ replay.losers, Loses accepts told loser.1 loser.2) :
      Stage accepts told false [chosen winner] none (some replay) .open
  | busy {winner : Option (Nat × HeldReply)} {replay : ReplayState} {result : Delivery}
      (hchooses : ∀ results, Completes told results →
        Chooses accepts results winner (chosen winner))
      (hbusy : (Race.cancelLosers [] replay.losers).2 = false)
      (hlosers : ∀ loser ∈ replay.losers, Loses accepts told loser.1 loser.2) :
      Stage accepts told false [chosen winner] (some result) (some replay) .open
  | announced {winner : Option (Nat × HeldReply)} {result : Delivery}
      (hchooses : ∀ results, Completes told results →
        Chooses accepts results winner (chosen winner)) :
      Stage accepts told false [chosen winner] (some result) none (.announced result)

/-- A report that comes after the decision changes nothing of the response. -/
theorem Stage.set {accepts : ResponseHead → Bool} {told : List (Option Report)}
    {delivered : List Reply} {answer : Option Delivery} {replay : Option ReplayState}
    {verdict : Verdict} {index : Nat} (hindex : told[index]? = some none) (result : Report)
    {undecided : Bool} (h : Stage accepts told undecided delivered answer replay verdict) :
    Stage accepts (told.set index (some result)) undecided delivered answer replay verdict := by
  have hkept : ∀ {losers : List (Nat × HeldReply)},
      (∀ loser ∈ losers, Loses accepts told loser.1 loser.2) →
      ∀ loser ∈ losers, Loses accepts (told.set index (some result)) loser.1 loser.2 := by
    intro losers hlosers loser hloser
    rw [← tellFirst_of_none hindex]
    exact loses_tellFirst (hlosers loser hloser) _
  cases h with
  | racing => exact .racing
  | replaying hchooses hlosers =>
    exact .replaying (fun results h => hchooses results (completes_of_set hindex h)) (hkept hlosers)
  | busy hchooses hbusy hlosers =>
    exact .busy (fun results h => hchooses results (completes_of_set hindex h)) hbusy
      (hkept hlosers)
  | announced hchooses =>
    exact .announced fun results h => hchooses results (completes_of_set hindex h)

/-! ## The main task -/

/-- **How far the main task of a contest is.** It closes the slots in turn after all lanes have
ended, and a lane that has ended without a report has panicked; so when it has closed them, all of
them have reported. It leaves with the result that is announced. -/
inductive MainStage (told : List (Option Report)) (phaseOf : Nat → LanePhase) :
    MainPhase → Verdict → Option Ending → Prop where
  | spawning {verdict : Verdict} : MainStage told phaseOf (.spawning none) verdict none
  | yielding {verdict : Verdict} : MainStage told phaseOf .yielding verdict none
  | joining {verdict : Verdict} (seen : Nat) : MainStage told phaseOf (.joining seen) verdict none
  | closing {verdict : Verdict} {next : Nat} (hclosed : ∀ index < next, told[index]? ≠ some none)
      (hover : AllSettled told phaseOf) :
      MainStage told phaseOf (.closing next) verdict none
  | awaiting {verdict : Verdict} (hall : AllTold told) :
      MainStage told phaseOf .awaiting verdict none
  | leaving {result : Delivery} (hall : AllTold told) :
      MainStage told phaseOf .leaving (.announced result) none
  | gone {result : Delivery} (hall : AllTold told) :
      MainStage told phaseOf .gone (.announced result) (some (.returned result))

/-- The main task is where it is while lanes go on: what was told stays told, and a lane that has
ended without a report has panicked, or it reports. -/
theorem MainStage.congr {told told' : List (Option Report)} {phaseOf phaseOf' : Nat → LanePhase}
    {main : MainPhase} {verdict : Verdict} {ending : Option Ending}
    (h : MainStage told phaseOf main verdict ending)
    (htold : ∀ index : Nat, told[index]? ≠ some none → told'[index]? ≠ some none)
    (hphase : ∀ index message, phaseOf index = .ended (some message) →
      told'[index]? ≠ some none ∨ ∃ message, phaseOf' index = .ended (some message)) :
    MainStage told' phaseOf' main verdict ending := by
  cases h with
  | spawning => exact .spawning
  | yielding => exact .yielding
  | joining seen => exact .joining seen
  | closing hclosed hover =>
    refine .closing (fun index hlt => htold index (hclosed index hlt)) fun index => ?_
    rcases hover index with htold' | ⟨message, hphase'⟩
    · exact .inl (htold index htold')
    · exact hphase index message hphase'
  | awaiting hall => exact .awaiting fun index => htold index (hall index)
  | leaving hall => exact .leaving fun index => htold index (hall index)
  | gone hall => exact .gone fun index => htold index (hall index)

/-! ## The shared state -/

/-- **The invariant of a contest**, but for its main task: it knows what its slots have reported, a
lane that came to its end without a panic has reported, and the response is as far as it should be.
-/
structure Keeps (accepts : ResponseHead → Bool) (told : List (Option Report))
    (delivered : List Reply) (answer : Option Delivery) (c : Contest) : Prop where
  policy_eq : c.policy = Policy.ofBool accepts
  knows : Knows accepts told c.race
  length_lanes : c.lanes.length = told.length
  reported_iff : ∀ index, c.hasReported index = false ↔ told[index]? = some none
  told_of_phase : ∀ index, c.phaseOf index = .ended none ∨ c.phaseOf index = .replaying →
    told[index]? ≠ some none
  stage : Stage accepts told c.race.undecided delivered answer c.replay c.verdict

theorem hasReported_start (policy : Policy) (race : Race) (slots index : Nat) :
    (start policy race slots none).hasReported index = false ↔ index < slots := by
  by_cases hlt : index < slots <;> simp [start, hasReported, hlt]

theorem phaseOf_start (policy : Policy) (race : Race) {slots index : Nat} (h : index < slots) :
    (start policy race slots none).phaseOf index = .running := by
  simp [start, phaseOf, h]

/-- A contest whose lanes are about to start. -/
theorem keeps_start (accepts : ResponseHead → Bool) {slots : Nat} {race : Race}
    (h : Race.ofSlots? slots = .ok race) :
    Keeps accepts (List.replicate slots none) [] none
      (start (Policy.ofBool accepts) race slots none) := by
  refine ⟨rfl, Race.knows_ofSlots? h, by simp [start], fun index => ?_, fun index hphase => ?_, ?_⟩
  · rw [hasReported_start, List.getElem?_replicate]
    simp
  · rw [List.getElem?_replicate]
    split
    · next hlt => rw [phaseOf_start _ _ hlt] at hphase; simp at hphase
    · exact nofun
  · unfold Race.ofSlots? at h
    split at h <;> cases h
    exact .racing

section

variable {accepts : ResponseHead → Bool} {told : List (Option Report)} {delivered : List Reply}
  {answer : Option Delivery} {c : Contest}

/-- The invariant speaks of what lanes are known to be, of the race and of the response alone. -/
theorem Keeps.congr (h : c.Keeps accepts told delivered answer) {c' : Contest}
    (hpolicy : c'.policy = c.policy) (hrace : c'.race = c.race) (hlanes : c'.lanes = c.lanes)
    (hreplay : c'.replay = c.replay) (hverdict : c'.verdict = c.verdict) :
    c'.Keeps accepts told delivered answer := by
  obtain ⟨h₁, h₂, h₃, h₄, h₅, h₆⟩ := h
  refine ⟨by rwa [hpolicy], by rwa [hrace], by rwa [hlanes], ?_, ?_,
    by rwa [hrace, hreplay, hverdict]⟩
  · simpa only [hasReported, hlanes] using h₄
  · simpa only [phaseOf, hlanes] using h₅

/-! ## Phases -/

theorem phaseOf_setPhase_self (c : Contest) {index : Nat} (h : index < c.lanes.length)
    (phase : LanePhase) : (c.setPhase index phase).phaseOf index = phase := by
  simp [setPhase, phaseOf, h]

theorem phaseOf_setPhase_ne (c : Contest) {index other : Nat} (h : other ≠ index)
    (phase : LanePhase) : (c.setPhase index phase).phaseOf other = c.phaseOf other := by
  simp [setPhase, phaseOf, h.symm]

/-- All lanes are over when each of them is, and what is no lane counts as over. -/
theorem allOver_iff (c : Contest) :
    c.allOver = true ↔ ∀ index, ∃ panic, c.phaseOf index = .ended panic := by
  constructor
  · intro hover index
    cases hlane : c.lanes[index]? with
    | none => exact ⟨none, by rw [phaseOf, hlane]⟩
    | some lane =>
      have hlast := List.all_eq_true.mp hover lane (List.mem_of_getElem? hlane)
      unfold LaneState.isOver at hlast
      split at hlast
      · next panic hphase => exact ⟨panic, by rw [phaseOf, hlane, ← hphase]⟩
      · cases hlast
  · intro hended
    refine List.all_eq_true.mpr fun lane hmem => ?_
    obtain ⟨index, hlane⟩ := List.mem_iff_getElem?.mp hmem
    obtain ⟨panic, hphase⟩ := hended index
    rw [phaseOf, hlane] at hphase
    dsimp only at hphase
    rw [LaneState.isOver, hphase]

theorem hasReported_setPhase (c : Contest) (index : Nat) (phase : LanePhase) (other : Nat) :
    (c.setPhase index phase).hasReported other = c.hasReported other := by
  by_cases hother : other = index
  · subst hother
    unfold hasReported setPhase
    rw [List.getElem?_modify_eq]
    cases c.lanes[other]? <;> rfl
  · simp [setPhase, hasReported, Ne.symm hother]

/-- A lane that has reported, or that panics, comes to its end. -/
theorem Keeps.setPhase (h : c.Keeps accepts told delivered answer) {index : Nat}
    (hindex : index < told.length) {phase : LanePhase}
    (hphase : phase = .ended none ∨ phase = .replaying → told[index]? ≠ some none) :
    (c.setPhase index phase).Keeps accepts told delivered answer := by
  refine ⟨h.policy_eq, h.knows, ?_, fun other => ?_, fun other hother => ?_, h.stage⟩
  · rw [Contest.setPhase, List.length_modify]
    exact h.length_lanes
  · rw [hasReported_setPhase]
    exact h.reported_iff other
  · by_cases hne : other = index
    · subst hne
      rw [phaseOf_setPhase_self c (h.length_lanes ▸ hindex)] at hother
      exact hphase hother
    · rw [phaseOf_setPhase_ne c hne] at hother
      exact h.told_of_phase other hother

/-! ## Reports -/

/-- What a report leaves as it is: no task goes on. -/
structure SameTasks (c c' : Contest) : Prop where
  main_eq : c'.main = c.main
  verdict_eq : c'.verdict = c.verdict
  phaseOf_eq : ∀ index, c'.phaseOf index = c.phaseOf index

theorem phaseOf_modify_reported (c c' : Contest) {index : Nat}
    (h : c'.lanes = c.lanes.modify index fun lane => { lane with reported := true }) (other : Nat) :
    c'.phaseOf other = c.phaseOf other := by
  unfold phaseOf
  rw [h, List.getElem?_modify]
  cases c.lanes[other]? with
  | none => rfl
  | some lane =>
    simp only [Option.map_eq_map, Option.map_some]
    split
    · rfl
    · rfl

theorem SameTasks.allOver {c c' : Contest} (h : c.SameTasks c') (hover : c.allOver = true) :
    c'.allOver = true := by
  rw [allOver_iff] at hover ⊢
  intro index
  rw [h.phaseOf_eq]
  exact hover index

theorem sameTasks_reportSlot (c : Contest) (owner : Option Nat) (index : Nat) (result : Report) :
    c.SameTasks (c.reportSlot owner index result).1 := by
  unfold Contest.reportSlot
  obtain ⟨race, entries, ruling⟩ := c.race.report c.policy index result
  cases ruling with
  | late response =>
    dsimp only
    obtain ⟨cancelled, finished⟩ := Race.cancelLate [] index response
    exact ⟨rfl, rfl, phaseOf_modify_reported c _ rfl⟩
  | _ => exact ⟨rfl, rfl, phaseOf_modify_reported c _ rfl⟩

theorem sameTasks_receive (c : Contest) (index : Nat) (reply : Reply) :
    c.SameTasks (c.receive index reply).1 := by
  unfold Contest.receive
  split
  · obtain ⟨notes, finished⟩ := Race.cancelSecond [] index reply
    exact ⟨rfl, rfl, fun _ => rfl⟩
  · exact sameTasks_reportSlot c (some index) index (.ok reply)

theorem sameTasks_closeSlot (c : Contest) (owner : Option Nat) (index : Nat) (result : Delivery) :
    c.SameTasks (c.closeSlot owner index result).1 := by
  unfold Contest.closeSlot
  split
  · exact ⟨rfl, rfl, fun _ => rfl⟩
  · exact sameTasks_reportSlot c owner index (.error (failureOf result))

theorem sameTasks_of_receive {index : Nat} {reply : Reply}
    {received : Contest × List Note × Reaction} (h : c.receive index reply = received) :
    c.SameTasks received.1 :=
  h ▸ sameTasks_receive c index reply

theorem sameTasks_of_closeSlot {owner : Option Nat} {index : Nat} {result : Delivery}
    {closed : Contest × List Note × Reaction} (h : c.closeSlot owner index result = closed) :
    c.SameTasks closed.1 :=
  h ▸ sameTasks_closeSlot c owner index result

/-- How a contest reacts to something that happens at a slot: the chosen response goes to the
connection, or nothing is waited for, unless a response that came late keeps its lane busy for ever.
-/
inductive Reacts (accepts : ResponseHead → Bool) (told : List (Option Report))
    (delivered : List Reply) (answer : Option Delivery) (c : Contest) : Reaction → Prop where
  | replays {reply : Reply} (h : c.Keeps accepts told (delivered ++ [reply]) answer) :
      Reacts accepts told delivered answer c (.replays reply)
  | answers (h : c.Keeps accepts told delivered answer) :
      Reacts accepts told delivered answer c (.answers (.result (.ok ())))
  | never (h : c.Keeps accepts told delivered answer) :
      Reacts accepts told delivered answer c (.answers .never)

/-- A slot that has reported is marked. -/
theorem Keeps.mark (h : c.Keeps accepts told delivered answer) {index : Nat}
    (hindex : told[index]? = some none) (result : Report) {c' : Contest}
    (hlanes : c'.lanes = c.lanes.modify index fun lane => { lane with reported := true })
    (hpolicy : c'.policy = Policy.ofBool accepts)
    (hknows : Knows accepts (told.set index (some result)) c'.race)
    {delivered' : List Reply} {answer' : Option Delivery}
    (hstage : Stage accepts (told.set index (some result)) c'.race.undecided delivered' answer'
      c'.replay c'.verdict) :
    c'.Keeps accepts (told.set index (some result)) delivered' answer' := by
  refine ⟨hpolicy, hknows, ?_, fun other => ?_, fun other hother => ?_, hstage⟩
  · rw [hlanes, List.length_modify, List.length_set, h.length_lanes]
  · have hreported := h.reported_iff other
    unfold hasReported at hreported ⊢
    rw [hlanes, List.getElem?_modify]
    by_cases hne : index = other
    · subst hne
      have hlt : index < c.lanes.length := by
        rw [h.length_lanes]
        exact (List.getElem?_eq_some_iff.mp hindex).1
      simp [hlt, List.getElem?_set]
    · rw [List.getElem?_set_ne hne]
      simpa [hne] using hreported
  · rw [phaseOf_modify_reported c c' hlanes] at hother
    exact set_ne_none result (h.told_of_phase other hother)

/-- **A report of a slot that has not reported yet.** -/
theorem Keeps.reportSlot (h : c.Keeps accepts told delivered answer) {index : Nat}
    (hindex : told[index]? = some none) (owner : Option Nat) (result : Report) :
    Reacts accepts (told.set index (some result)) delivered answer
        (c.reportSlot owner index result).1 (c.reportSlot owner index result).2.2 ∧
      (∀ cause, result = .error cause →
        (c.reportSlot owner index result).2.2 ≠ .answers .never) := by
  obtain ⟨hknows, hrules⟩ := h.knows.report hindex result
  have hlate := @Race.responseOf?_of_late (Policy.ofBool accepts) c.race index result
  have hstage := h.stage
  rw [Contest.reportSlot, h.policy_eq]
  generalize Race.report (Policy.ofBool accepts) c.race index result = reported at *
  obtain ⟨race, entries, ruling⟩ := reported
  simp only at hknows hrules ⊢
  generalize hbefore : c.race.undecided = before at hrules hstage
  generalize hafter : race.undecided = after at hrules
  cases hrules with
  | undecided =>
    dsimp only
    refine ⟨.answers (h.mark hindex result (by rfl) (by rfl) hknows ?_), fun _ _ => by simp⟩
    simp only [hafter]
    exact hstage.set hindex result
  | late response =>
    dsimp only
    -- The race keeps its decision, and the response goes on. A late failure is nothing to cancel.
    have hstage' : Stage accepts (told.set index (some result)) race.undecided delivered answer
        c.replay c.verdict := by
      rw [hafter]
      exact hstage.set hindex result
    refine ⟨?_, fun cause hcause => ?_⟩
    · cases (Race.cancelLate [] index response).2 with
      | true => exact .answers (h.mark hindex result (by rfl) (by rfl) hknows hstage')
      | false => exact .never (h.mark hindex result (by rfl) (by rfl) hknows hstage')
    · obtain rfl : response = Race.responseOf? result := hlate rfl
      rw [hcause]
      exact nofun
  | @decided winner losers hchooses hlosers =>
    dsimp only
    generalize hreplay : c.replay = replay at hstage
    generalize hverdict : c.verdict = verdict at hstage
    -- An undecided race has given the connection nothing yet.
    cases hstage with
    | racing =>
      refine ⟨.replays (h.mark hindex result (by rfl) (by rfl) hknows ?_), fun _ _ => by simp⟩
      simp only [hafter]
      exact .replaying hchooses hlosers

theorem Keeps.told_ne_none (h : c.Keeps accepts told delivered answer) {index : Nat}
    (hreported : c.hasReported index = true) : told[index]? ≠ some none := by
  intro hnone
  rw [(h.reported_iff index).mpr hnone] at hreported
  cases hreported

/-- **A response that is delivered into a slot.** Only the first one is reported. -/
theorem Keeps.receive (h : c.Keeps accepts told delivered answer) (index : Nat) (reply : Reply) :
    Reacts accepts (tellFirst told (index, .ok reply)) delivered answer (c.receive index reply).1
        (c.receive index reply).2.2 := by
  unfold Contest.receive
  split
  · next hreported =>
    rw [tellFirst_of_ne (h.told_ne_none hreported)]
    obtain ⟨notes, finished⟩ := Race.cancelSecond [] index reply
    cases finished with
    | true => exact .answers h
    | false => exact .never h
  · next hreported =>
    have hindex := (h.reported_iff index).mp (eq_false_of_ne_true hreported)
    rw [tellFirst_of_none hindex]
    exact (h.reportSlot hindex (some index) (.ok reply)).1

/-- **A backend that has ended.** Its slot reports a failure now, unless it has reported. -/
theorem Keeps.closeSlot (h : c.Keeps accepts told delivered answer) (owner : Option Nat)
    (index : Nat) (result : Delivery) :
    Reacts accepts (tellFirst told (index, .error (failureOf result))) delivered answer
        (c.closeSlot owner index result).1 (c.closeSlot owner index result).2.2 ∧
      (c.closeSlot owner index result).2.2 ≠ .answers .never := by
  unfold Contest.closeSlot
  split
  · next hreported =>
    rw [tellFirst_of_ne (h.told_ne_none hreported)]
    exact ⟨.answers h, fun heq => by cases heq⟩
  · next hreported =>
    have hindex := (h.reported_iff index).mp (eq_false_of_ne_true hreported)
    rw [tellFirst_of_none hindex]
    obtain ⟨hreacts, hnever⟩ := h.reportSlot hindex owner (.error (failureOf result))
    exact ⟨hreacts, hnever _ rfl⟩

/-! ## The answer of the connection -/

/-- The verdict comes while the main task is still there. -/
theorem MainStage.announce {phaseOf : Nat → LanePhase} {main : MainPhase} {ending : Option Ending}
    (h : MainStage told phaseOf main .open ending) (verdict : Verdict) :
    MainStage told phaseOf main verdict ending := by
  cases h with
  | spawning => exact .spawning
  | yielding => exact .yielding
  | joining seen => exact .joining seen
  | closing hclosed hover => exact .closing hclosed hover
  | awaiting hall => exact .awaiting hall

theorem MainStage.isAwaited {phaseOf : Nat → LanePhase} {ending : Option Ending}
    (h : MainStage told phaseOf c.main .open ending) : c.isAwaited = true := by
  unfold Contest.isAwaited
  generalize c.main = main at h
  cases h <;> rfl

/-- The first result with which a connection answers. -/
def answeredBy (answer : Option Delivery) : Response → Option Delivery
  | .result result => answer <|> some result
  | _ => answer

/-- A response that is on its way was chosen. It was answered only if a loser is still being
cancelled. -/
theorem Stage.of_replay {undecided : Bool} {replay : ReplayState} {verdict : Verdict}
    (h : Stage accepts told undecided delivered answer (some replay) verdict) :
    ∃ winner, undecided = false ∧ delivered = [chosen winner] ∧ verdict = .open ∧
      (∀ results, Completes told results → Chooses accepts results winner (chosen winner)) ∧
      (∀ loser ∈ replay.losers, Loses accepts told loser.1 loser.2) ∧
      (answer = none ∨ (Race.cancelLosers [] replay.losers).2 = false) := by
  cases h with
  | replaying hchooses hlosers => exact ⟨_, rfl, rfl, rfl, hchooses, hlosers, .inl rfl⟩
  | busy hchooses hbusy hlosers => exact ⟨_, rfl, rfl, rfl, hchooses, hlosers, .inr hbusy⟩

theorem conclude_busy {replay : ReplayState}
    (h : (Race.cancelLosers [] replay.losers).2 = false) (result : Delivery) :
    c.conclude replay (.result result) = (c, (Race.cancelLosers [] replay.losers).1, .never) := by
  unfold Contest.conclude
  dsimp only
  rw [h]
  rfl

theorem conclude_awaited {replay : ReplayState}
    (h : (Race.cancelLosers [] replay.losers).2 = true) (hawaited : c.isAwaited = true)
    (result : Delivery) :
    c.conclude replay (.result result) =
      ({ c with replay := none, verdict := .announced result },
        (Race.cancelLosers [] replay.losers).1, .result (.ok ())) := by
  unfold Contest.conclude
  dsimp only
  rw [h, hawaited]
  rfl

/-- **The connection answers the chosen response**, and does not panic. -/
theorem Keeps.conclude (h : c.Keeps accepts told delivered answer) {ending : Option Ending}
    (hmain : MainStage told c.phaseOf c.main c.verdict ending) {replay : ReplayState}
    (hreplay : c.replay = some replay) {response : Response}
    (hresponse : ∀ message, response ≠ .unwinds message) :
    (c.conclude replay response).1.Keeps accepts told delivered (answeredBy answer response) ∧
      MainStage told c.phaseOf (c.conclude replay response).1.main
        (c.conclude replay response).1.verdict ending ∧
      (c.conclude replay response).1.phaseOf = c.phaseOf ∧
      ∀ message, (c.conclude replay response).2.2 ≠ .unwinds message := by
  cases response with
  | unwinds message => exact absurd rfl (hresponse message)
  | never => exact ⟨h, hmain, rfl, fun _ heq => by cases heq⟩
  | result result =>
    obtain ⟨hpolicy, hknows, hlength, hreported, hphase, hstage⟩ := h
    rw [hreplay] at hstage
    obtain ⟨winner, hdecided, rfl, hopen, hchooses, hlosers, hfirst⟩ := hstage.of_replay
    cases hcancel : (Race.cancelLosers [] replay.losers).2 with
    | false =>
      rw [conclude_busy hcancel]
      refine ⟨⟨hpolicy, hknows, hlength, hreported, hphase, ?_⟩, hmain, rfl,
        fun _ heq => by cases heq⟩
      rw [hdecided, hreplay, hopen]
      cases answer with
      | none => exact .busy hchooses hcancel hlosers
      | some first => exact .busy hchooses hcancel hlosers
    | true =>
      -- A second answer finds the replay over, unless a loser has kept the first one busy.
      obtain rfl : answer = none := by
        rcases hfirst with hnone | hbusy
        · exact hnone
        · rw [hcancel] at hbusy
          cases hbusy
      rw [hopen] at hmain
      rw [conclude_awaited hcancel hmain.isAwaited]
      refine ⟨⟨hpolicy, hknows, hlength, hreported, hphase, ?_⟩, hmain.announce _,
        rfl, fun _ heq => by cases heq⟩
      dsimp only
      rw [hdecided]
      exact .announced hchooses

/-! ## Cancelling -/

/-- **Cancelling comes to an end** for each response that was told and loses. -/
def LosersCancel (accepts : ResponseHead → Bool) (told : List (Option Report)) : Prop :=
  ∀ index reply, Loses accepts told index reply → (HeldReply.cancel [] reply).size.isSome = true

theorem LosersCancel.of_tellFirst {report : Nat × Report}
    (h : LosersCancel accepts (tellFirst told report)) : LosersCancel accepts told :=
  fun index reply hloses => h index reply (loses_tellFirst hloses report)

theorem LosersCancel.of_foldl {reports : List (Nat × Report)}
    (h : LosersCancel accepts (reports.foldl tellFirst told)) : LosersCancel accepts told := by
  induction reports generalizing told with
  | nil => exact h
  | cons report rest ih => exact (ih h).of_tellFirst

/-- The losers of a decision are cancelled. -/
theorem LosersCancel.finished (h : LosersCancel accepts told) {losers : List (Nat × HeldReply)}
    (hlosers : ∀ loser ∈ losers, Loses accepts told loser.1 loser.2) :
    (Race.cancelLosers [] losers).2 = true := by
  refine HeldReply.cancelAll_finishes_iff.mpr fun loser hloser => ?_
  obtain ⟨⟨index, held⟩, hmem, rfl⟩ := List.mem_map.mp hloser
  exact Option.isSome_iff_ne_none.mp (h index held (hlosers _ hmem))

/-- An answer is announced, unless a loser keeps whoever cancels it busy. -/
theorem Stage.announced_of_answer {undecided : Bool} {replay : Option ReplayState}
    {verdict : Verdict} {result : Delivery}
    (h : Stage accepts told undecided delivered (some result) replay verdict)
    (hfree : replay = none ∨ LosersCancel accepts told) :
    replay = none ∧ verdict = .announced result := by
  generalize hanswer : some result = answer at h
  cases h with
  | racing => cases hanswer
  | replaying hchooses hlosers => cases hanswer
  | announced hchooses =>
    cases hanswer
    exact ⟨rfl, rfl⟩
  | busy hchooses hbusy hlosers =>
    rcases hfree with hnone | hcancel
    · cases hnone
    · exact absurd (hcancel.finished hlosers) (Bool.eq_false_iff.mp hbusy)

end

end Contest

end Switchboard
