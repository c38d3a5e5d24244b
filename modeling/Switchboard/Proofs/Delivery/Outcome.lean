import Switchboard.Proofs.Delivery.Broadcast
import Switchboard.Proofs.Delivery.Moves
set_option autoImplicit false

/-! # The outcome of a broadcast

What a run has come to follows from the invariant: the connection was given one response at most,
the chosen one, and the main task returns what the connection answers to it. That it does return is
shown here too. Once all lanes are over the main task waits for nobody but the connection
(`Contest.Free`), and each of its steps brings it nearer to its end.

The broadcast is a `GroupResponse` whose policy does not panic, and its end is what `send` returns,
the `Outcome` of its `Aggregator`. -/

namespace Switchboard

namespace Contest

/-! ## The main task alone -/

/-- A bound of the steps that the main task has left when all lanes are over. -/
def stepsLeft (c : Contest) (lanes : Nat) : Nat :=
  match c.main with
  | .spawning _ => c.overCount + lanes + 7
  | .yielding => c.overCount + lanes + 6
  | .joining seen => c.overCount - seen + lanes + 5
  | .closing next => lanes - next + 4
  | .awaiting => 3
  | .leaving => 2
  | .panicking _ => 1
  | .gone => 0

/-- The main task has something to do and waits for nobody. -/
structure Free (c : Contest) : Prop where
  allOver_eq : c.allOver = true
  quiet : c.replay.any (·.owner.isNone) = false
  open_of_awaiting : c.main = .awaiting → c.verdict ≠ .open
  notGone : c.main ≠ .gone

/-- Closing a slot brings the main task to the next one. -/
theorem Free.closeNext {c : Contest} (h : c.Free) {index : Nat} (hmain : c.main = .closing index)
    (lanes : List Sending) :
    ∃ c', (Sending.stepMain c lanes).next = .broadcast c' lanes ∧ c'.allOver = true ∧
      c'.stepsLeft lanes.length < c.stepsLeft lanes.length := by
  have hleft : c.stepsLeft lanes.length = lanes.length - index + 4 := by rw [stepsLeft, hmain]
  rw [hleft, Sending.stepMain, hmain]
  dsimp only
  rw [h.quiet, if_neg Bool.false_ne_true]
  by_cases hlast : lanes.length ≤ index
  · rw [if_pos hlast]
    refine ⟨{ c with main := .awaiting }, rfl, h.allOver_eq, ?_⟩
    simp only [stepsLeft]
    omega
  · rw [if_neg hlast]
    have hnext : ∀ c' : Contest, c'.main = .closing (index + 1) →
        c'.stepsLeft lanes.length < lanes.length - index + 4 := by
      intro c' hmain'
      simp only [stepsLeft, hmain']
      omega
    cases c.phaseOf index with
    | running => exact ⟨{ c with main := .closing (index + 1) }, rfl, h.allOver_eq, hnext _ rfl⟩
    | replaying => exact ⟨{ c with main := .closing (index + 1) }, rfl, h.allOver_eq, hnext _ rfl⟩
    | ended panic =>
      cases panic with
      | none => exact ⟨{ c with main := .closing (index + 1) }, rfl, h.allOver_eq, hnext _ rfl⟩
      | some message =>
        dsimp only
        generalize hclose : Contest.closeSlot _ none index _ = closed
        have hsame := sameTasks_closeSlot { c with main := .closing (index + 1) } none index
          (.error (.closed ("backend task aborted: " ++ abortCause (quoted message))))
        rw [hclose] at hsame
        obtain ⟨c', notes, reaction⟩ := closed
        have hover : c'.allOver = true := hsame.allOver h.allOver_eq
        rcases reaction with (_ | message | _) | _
        · exact ⟨c', rfl, hover, hnext c' hsame.main_eq⟩
        -- Closing a slot may panic, which ends the main task sooner.
        · refine ⟨{ c' with main := .panicking message }, rfl, hover, ?_⟩
          simp only [stepsLeft]
          omega
        · exact ⟨c', rfl, hover, hnext c' hsame.main_eq⟩
        · exact ⟨c', rfl, hover, hnext c' hsame.main_eq⟩

/-- **The main task comes nearer to its end** with each step. -/
theorem Free.stepMain {c : Contest} (h : c.Free) (lanes : List Sending) :
    ∃ c', (Sending.stepMain c lanes).next = .broadcast c' lanes ∧ c'.allOver = true ∧
      c'.stepsLeft lanes.length < c.stepsLeft lanes.length := by
  obtain ⟨hover, hquiet, hopen, hgone⟩ := h
  cases hmain : c.main with
  | spawning panic =>
    cases panic with
    | none =>
      refine ⟨{ c with main := c.afterSpawning }, by rw [Sending.stepMain, hmain], hover, ?_⟩
      have hafter : c.afterSpawning = .joining 0 ∨ c.afterSpawning = .yielding := by
        unfold afterSpawning
        split
        · exact .inl rfl
        · exact .inr rfl
      rcases hafter with heq | heq <;> simp only [stepsLeft, hmain, heq, overCount] <;> omega
    | some message =>
      refine ⟨{ c with main := .panicking message }, by rw [Sending.stepMain, hmain], hover, ?_⟩
      simp only [stepsLeft, hmain]
      omega
  | yielding =>
    refine ⟨{ c with main := .joining 0 }, by rw [Sending.stepMain, hmain], hover, ?_⟩
    simp only [stepsLeft, hmain, overCount]
    omega
  | joining seen =>
    by_cases hseen : seen < c.overCount
    · refine ⟨{ c with main := .joining (seen + 1) }, ?_, hover, ?_⟩
      · rw [Sending.stepMain, hmain]
        dsimp only
        rw [if_pos hseen]
      · simp only [stepsLeft, hmain]
        simp only [overCount] at hseen ⊢
        omega
    · refine ⟨{ c with main := .closing 0 }, ?_, hover, ?_⟩
      · rw [Sending.stepMain, hmain]
        dsimp only
        rw [if_neg hseen, if_pos hover]
      · simp only [stepsLeft, hmain]
        omega
  | closing index =>
    exact Free.closeNext ⟨hover, hquiet, hopen, hgone⟩ hmain lanes
  | awaiting =>
    refine ⟨{ c with main := .leaving }, ?_, hover, ?_⟩
    · rw [Sending.stepMain, hmain]
      cases hverdict : c.verdict with
      | «open» => exact absurd hverdict (hopen hmain)
      | announced result => rfl
      | lost => rfl
    · simp only [stepsLeft, hmain]
      omega
  | leaving =>
    refine ⟨{ c with main := .gone }, by rw [Sending.stepMain, hmain], hover, ?_⟩
    simp only [stepsLeft, hmain]
    omega
  | panicking message =>
    refine ⟨{ c with main := .gone }, by rw [Sending.stepMain, hmain], hover, ?_⟩
    simp only [stepsLeft, hmain]
    omega
  | gone => exact absurd hmain hgone

end Contest

open Contest (AllTold LosersCancel)
open Race (Completes Chooses chosen)

/-- The main task alone makes this many steps. -/
def Run.main (r : Run) (steps : Nat) : Run := r.choices (List.replicate steps (.task []))

/-- The main task alone brings about what holds as soon as it is not free any more. -/
theorem Run.main_reaches {P I : Run → Prop}
    (hfree : ∀ r c lanes, r.sending = .broadcast c lanes → I r → c.allOver = true → ¬ P r → c.Free)
    (hkeep : ∀ r, I r → I (r.choose (.task []))) {r : Run} {c : Contest} {lanes : List Sending}
    (hsending : r.sending = .broadcast c lanes) (hI : I r) (hover : c.allOver = true) :
    ∃ steps, P (r.main steps) := by
  -- On the steps that are left: every step that does not bring it about makes them fewer.
  induction hleft : c.stepsLeft lanes.length using Nat.strongRecOn generalizing r c with
  | ind left ih =>
    by_cases hP : P r
    · exact ⟨0, hP⟩
    · obtain ⟨c', hnext, hover', hlt⟩ := (hfree r c lanes hsending hI hover hP).stepMain lanes
      have hsending' : (r.choose (.task [])).sending = .broadcast c' lanes := by
        rw [Run.sending_choose, hsending, ← hnext]
        rfl
      obtain ⟨steps, hsteps⟩ := ih _ (hleft ▸ hlt) hsending' (hkeep r hI) hover' rfl
      refine ⟨steps + 1, ?_⟩
      rw [Run.main, List.replicate_succ]
      exact hsteps

/-! ## The response -/

section

variable {accepts : ResponseHead → Bool} {starts lanes : List Sending}
  {told : List (Option Report)} {answer : Option Delivery} {delivered : List Reply}
  {ending : Option Ending} {c : Contest} {r : Run}

/-- When all slots have reported, the race is decided. -/
theorem Contest.Keeps.decided (h : c.Keeps accepts told delivered answer) (hall : AllTold told) :
    c.race.undecided = false :=
  h.knows.undecided_iff.mpr (.inl fun result hmem hnone => by
    obtain ⟨index, hindex⟩ := List.mem_iff_getElem?.mp hmem
    exact hall index (hnone ▸ hindex))

theorem Contest.Stage.delivered_eq {undecided : Bool} {replay : Option ReplayState}
    {verdict : Verdict} (h : Contest.Stage accepts told undecided delivered answer replay verdict) :
    (undecided = true ∧ replay = none ∧ delivered = []) ∨
      ∃ winner, delivered = [chosen winner] ∧
        ∀ results, Completes told results → Chooses accepts results winner (chosen winner) := by
  cases h with
  | racing => exact .inl ⟨rfl, rfl, rfl⟩
  | replaying hchooses hlosers => exact .inr ⟨_, rfl, hchooses⟩
  | busy hchooses hbusy hlosers => exact .inr ⟨_, rfl, hchooses⟩
  | announced hchooses => exact .inr ⟨_, rfl, hchooses⟩

/-- When the main task has closed all slots, all of them have reported. -/
theorem Contest.MainStage.allTold {phaseOf : Nat → LanePhase} {main : MainPhase} {verdict : Verdict}
    (h : MainStage told phaseOf main verdict ending) (hmain : main = .awaiting ∨ main = .gone) :
    AllTold told := by
  cases h with
  | awaiting hall => exact hall
  | gone hall => exact hall
  | _ => rcases hmain with heq | heq <;> cases heq

/-- The main task ends with the result that is announced. -/
theorem Contest.MainStage.returned {phaseOf : Nat → LanePhase} {main : MainPhase}
    {verdict : Verdict} {ending : Ending} (h : MainStage told phaseOf main verdict (some ending)) :
    AllTold told ∧ ∃ result, verdict = .announced result ∧ ending = .returned result := by
  cases h with
  | gone hall => exact ⟨hall, _, rfl, rfl⟩

theorem Contest.Stage.answer_of_announced {undecided : Bool} {replay : Option ReplayState}
    {verdict : Verdict} {result : Delivery}
    (h : Contest.Stage accepts told undecided delivered answer replay verdict)
    (hverdict : verdict = .announced result) : answer = some result := by
  cases h <;> cases hverdict
  rfl

/-- Once all lanes are over, nothing keeps the main task from giving the connection a response. -/
theorem Races.free_of_nil (h : Races accepts starts told answer delivered ending c lanes)
    (hover : c.allOver = true) (hdelivered : delivered = []) : c.Free := by
  rcases h.keeps.stage.delivered_eq with ⟨hundecided, hreplay, -⟩ | ⟨winner, heq, -⟩
  -- The race is open, so a slot has not reported, and the main task still has it to close.
  · have hopen : ¬ AllTold told := fun hall => by
      rw [h.keeps.decided hall] at hundecided
      cases hundecided
    refine ⟨hover, by rw [hreplay]; rfl, fun hmain => ?_, fun hmain => ?_⟩
    · exact absurd (h.main.allTold (.inl hmain)) hopen
    · exact absurd (h.main.allTold (.inr hmain)) hopen
  · rw [hdelivered] at heq
    cases heq

/-- Nobody replays a response any more once there is a verdict. -/
theorem Contest.Stage.replay_eq_none {undecided : Bool} {replay : Option ReplayState}
    {verdict : Verdict} (h : Contest.Stage accepts told undecided delivered answer replay verdict)
    (hverdict : verdict ≠ .open) : replay = none := by
  cases h with
  | announced hchooses => rfl
  | _ => exact absurd rfl hverdict

/-- Once there is a verdict as well, nothing keeps the main task from returning it. -/
theorem Races.free_of_announced {result : Delivery}
    (h : Races accepts starts told answer delivered ending c lanes) (hover : c.allOver = true)
    (hverdict : c.verdict = .announced result) (hending : ending ≠ some (.returned result)) :
    c.Free := by
  have hopen : c.verdict ≠ .open := by
    rw [hverdict]
    exact nofun
  have hmain := h.main
  rw [hverdict] at hmain
  refine ⟨hover, by rw [h.keeps.stage.replay_eq_none hopen]; rfl, fun _ => hopen, fun hgone => ?_⟩
  rw [hgone] at hmain
  cases hmain
  exact hending rfl

/-! ## The end -/

/-- **The main task gives the connection a response** once all lanes are over. -/
theorem Run.Contends.delivers (h : r.Contends accepts starts told answer)
    (hsending : r.sending = .broadcast c lanes) (hover : c.allOver = true) :
    ∃ steps, (r.main steps).delivered ≠ [] := by
  refine Run.main_reaches (P := fun r => r.delivered ≠ [])
    (I := fun r => ∃ told, r.Contends accepts starts told answer) ?_ ?_ hsending ⟨told, h⟩ hover
  · rintro r c lanes hsending ⟨told, c', lanes', hsending', hraces⟩ hover hdelivered
    cases hsending.symm.trans hsending'
    exact hraces.free_of_nil hover (Decidable.not_not.mp hdelivered)
  · rintro r ⟨told, h⟩
    exact ⟨_, h.choose (calm_task [])⟩

/-- **The main task returns what was announced** once all lanes are over. -/
theorem Run.Contends.returns {result : Delivery} (h : r.Contends accepts starts told answer)
    (hsending : r.sending = .broadcast c lanes) (hover : c.allOver = true)
    (hverdict : c.verdict = .announced result) :
    ∃ steps, (r.main steps).ending = some (.returned result) := by
  refine Run.main_reaches (P := fun r => r.ending = some (.returned result))
    (I := fun r => (∃ told, r.Contends accepts starts told answer) ∧
      ∀ c lanes, r.sending = .broadcast c lanes → c.verdict = .announced result)
    ?_ ?_ hsending ⟨⟨told, h⟩, fun c' lanes' hsending' => ?_⟩ hover
  · rintro r c lanes hsending ⟨⟨told, c', lanes', hsending', hraces⟩, hannounced⟩ hover hending
    cases hsending.symm.trans hsending'
    exact hraces.free_of_announced hover (hannounced c lanes hsending) hending
  · rintro r ⟨⟨told, h⟩, hannounced⟩
    refine ⟨⟨_, h.choose (calm_task [])⟩, fun c' lanes' hsending' => ?_⟩
    obtain ⟨c, lanes, hsending, -⟩ := h
    obtain ⟨c'', hnext, hmoves⟩ := Sending.moves_after c lanes (.task [])
    rw [Run.sending_choose, hsending, hnext] at hsending'
    cases hsending'
    exact hmoves.verdict_eq_of_main.trans (hannounced c lanes hsending)
  · cases hsending.symm.trans hsending'
    exact hverdict

/-- **What a run owes to its connection**, when its slots have reported this and the connection has
answered this. It is given one response at most, the choice over all results whatever is still
missing, and it is given one once all slots have reported. That they have is certain when the main
task has joined all lanes, and the main task returns nothing but the answer of the connection. Once
all lanes are over, the main task alone sees to both. Only where the chosen response is still being
replayed then, a loser whose body never ends may keep it from returning. -/
structure Run.Settles (accepts : ResponseHead → Bool) (told : List (Option Report))
    (answer : Option Delivery) (r : Run) : Prop where
  delivered_le : r.delivered.length ≤ 1
  chosen : ∀ reply ∈ r.delivered, ∃ winner, ∀ results, Completes told results →
    Chooses accepts results winner reply
  decided : AllTold told → r.delivered ≠ []
  joined : ∀ c lanes, r.sending = .broadcast c lanes → c.main = .awaiting → AllTold told
  returned : ∀ ending, r.ending = some ending →
    AllTold told ∧ ∃ result, answer = some result ∧ ending = .returned result
  delivers : ∀ c lanes, r.sending = .broadcast c lanes → c.allOver = true →
    ∃ steps, (r.main steps).delivered ≠ []
  returns : ∀ c lanes result, r.sending = .broadcast c lanes → c.allOver = true →
    answer = some result → c.replay = none ∨ LosersCancel accepts told →
      ∃ steps, (r.main steps).ending = some (.returned result)

/-- **A broadcast settles.** -/
theorem Run.Contends.settles (h : r.Contends accepts starts told answer) :
    r.Settles accepts told answer := by
  obtain ⟨c, lanes, hsending, hraces⟩ := h
  have hdelivered := hraces.keeps.stage.delivered_eq
  refine ⟨?_, fun reply hreply => ?_, fun hall => ?_, fun c' lanes' hsending' hmain => ?_,
    fun ending' hending => ?_, fun c' lanes' hsending' => ?_,
    fun c' lanes' result hsending' hover hanswer hfree => ?_⟩
  · rcases hdelivered with ⟨-, -, hnone⟩ | ⟨winner, hone, -⟩
    · rw [hnone]
      exact Nat.zero_le 1
    · rw [hone]
      exact Nat.le_refl 1
  · rcases hdelivered with ⟨-, -, hnone⟩ | ⟨winner, hone, hchooses⟩
    · rw [hnone] at hreply
      cases hreply
    · rw [hone, List.mem_singleton] at hreply
      rw [hreply]
      exact ⟨winner, hchooses⟩
  · rcases hdelivered with ⟨hundecided, -, -⟩ | ⟨winner, hone, -⟩
    · rw [hraces.keeps.decided hall] at hundecided
      cases hundecided
    · rw [hone]
      exact List.cons_ne_nil _ _
  · cases hsending.symm.trans hsending'
    exact hraces.main.allTold (.inl hmain)
  · have hmain := hraces.main
    rw [hending] at hmain
    obtain ⟨hall, result, hverdict, rfl⟩ := hmain.returned
    exact ⟨hall, result, hraces.keeps.stage.answer_of_announced hverdict, rfl⟩
  · exact Run.Contends.delivers ⟨c, lanes, hsending, hraces⟩ hsending'
  · cases hsending.symm.trans hsending'
    subst hanswer
    obtain ⟨-, hverdict⟩ := hraces.keeps.stage.announced_of_answer hfree
    exact Run.Contends.returns ⟨c, lanes, hsending, hraces⟩ hsending hover hverdict

/-- A run that has not come to its broadcast yet owes nothing. -/
theorem Run.settles_of_reading (hsending : ∀ c lanes, r.sending ≠ .broadcast c lanes)
    (hdelivered : r.delivered = []) (hending : r.ending = none)
    (htold : told[0]? = some none) : r.Settles accepts told answer where
  delivered_le := by rw [hdelivered]; exact Nat.zero_le 1
  chosen := by rw [hdelivered]; exact fun _ h => absurd h List.not_mem_nil
  decided := fun hall => absurd htold (hall 0)
  joined := fun c lanes h => absurd h (hsending c lanes)
  returned := by rw [hending]; exact fun _ h => absurd h (by simp)
  delivers := fun c lanes h => absurd h (hsending c lanes)
  returns := fun c lanes _ h => absurd h (hsending c lanes)

end

end Switchboard
