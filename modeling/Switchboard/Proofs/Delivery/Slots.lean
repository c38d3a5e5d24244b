import Switchboard.Proofs.Delivery.Moves
import Switchboard.Proofs.Race.Held
set_option autoImplicit false

/-! # Slots of a broadcast, whatever its policy and its connection do

A slot hears of one result, and refuses everything that comes after it. That does not depend on the
policy, which may panic, or on the connection, or on whether the backends do. `Contest.Holds` is
what a contest keeps in any case: which of its slots have reported, and how far the response is
(`Contest.Course`). `Contest.MainCourse` is how far the main task is. `Underway` puts both together,
and it is kept by every move of a broadcast (`Underway.moves`) and so by every choice
(`Run.IsUnderway.choose`).

The contest is that of a `GroupResponse`, with any `SuccessPolicy` and any `Connection`. -/

namespace Switchboard

open Race (Completes Chooses Loses chosen)

/-- A policy that has an answer for each response that was told. -/
def Policy.Answers (policy : Policy) (told : List (Option Report)) : Prop :=
  ∀ reply, some (.ok reply) ∈ told → ∃ answer, policy reply.head = .ok answer

namespace Race

variable {policy : Policy} {told : List (Option Report)} {race : Race}

/-- **The ruling of a race**: it waits for a slot, or the policy panics, or the race is decided. -/
theorem rule_cases (policy : Policy) (slots : List Slot) :
    (standingFrom policy 0 slots = .open ∧
        rule policy ⟨slots, true⟩ = (⟨slots, true⟩, .undecided)) ∨
      (∃ message, standingFrom policy 0 slots = .panicked message ∧
        rule policy ⟨slots, true⟩ = (⟨slots, true⟩, .panicked message)) ∨
      ∃ winner losers,
        rule policy ⟨slots, true⟩ = (⟨slots.map Slot.release, false⟩, .decided winner losers) := by
  unfold rule
  dsimp only
  split
  · next hopen => exact .inl ⟨hopen, rfl⟩
  · next message hpanicked => exact .inr (.inl ⟨message, hpanicked, rfl⟩)
  · exact .inr (.inr ⟨none, heldFrom 0 slots, rfl⟩)
  · exact .inr (.inr ⟨_, _, rfl⟩)

/-- A policy that gives an answer decides for the choice over all results, and the losers lose. -/
theorem chooses_of_decided {accepts : ResponseHead → Bool} {winner : Option (Nat × HeldReply)}
    {losers : List (Nat × HeldReply)} (hpolicy : policy = Policy.ofBool accepts)
    (h : (rule policy ⟨told.map slotOf?, true⟩).2 = .decided winner losers) :
    (∀ results, Completes told results → Chooses accepts results winner (chosen winner)) ∧
      ∀ loser ∈ losers, Loses accepts told loser.1 loser.2 := by
  subst hpolicy
  have hrules : Rules accepts told true _ _ := (rules_rule ⟨told.map slotOf?, true⟩ rfl rfl).1
  rw [h] at hrules
  generalize Race.undecided _ = after at hrules
  cases hrules with
  | decided hchooses hlosers => exact ⟨hchooses, hlosers⟩

/-- The scan panics only where the policy does. -/
theorem standingFrom_ne_panicked (h : policy.Answers told) (start : Nat) (message : String) :
    standingFrom policy start (told.map slotOf?) ≠ .panicked message := by
  induction told generalizing start with
  | nil => simp [standingFrom]
  | cons result told ih =>
    have hrest := ih (fun reply hmem => h reply (List.mem_cons_of_mem _ hmem)) (start + 1)
    rcases result with _ | (cause | reply)
    · simp [slotOf?, standingFrom]
    · exact hrest
    · obtain ⟨answer, hanswer⟩ := h reply List.mem_cons_self
      simp only [List.map_cons, slotOf?, slotOf, standingFrom, hanswer]
      cases answer with
      | true => simp
      | false => exact hrest

/-- The scan finds an empty slot only where nothing was told. -/
theorem standingFrom_ne_open (h : Contest.AllTold told) :
    standingFrom policy 0 (told.map slotOf?) ≠ .open := by
  intro hopen
  obtain ⟨index, hindex⟩ := List.mem_iff_getElem?.mp (empty_mem_of_open hopen)
  exact h index ((getElem?_map_slotOf? told index).mp hindex)

end Race

namespace Contest

/-! ## The response -/

/-- What the policy makes of what was told. -/
def standing (policy : Policy) (told : List (Option Report)) : Race.Standing :=
  Race.standingFrom policy 0 (told.map Race.slotOf?)

/-- **How far the response of a contest is.** The flag says that the race is undecided. That is so
as long as a slot is missing that could still win, or while the policy panics on what was told. Then
the connection is given the chosen response, and there is a verdict once that is answered. -/
inductive Course (policy : Policy) (told : List (Option Report)) :
    Bool → List Reply → Option ReplayState → Verdict → Prop where
  | racing (hopen : standing policy told = .open ∨
      ∃ message, standing policy told = .panicked message) :
      Course policy told true [] none .open
  | replaying {winner : Option (Nat × HeldReply)} {replay : ReplayState}
      (hchooses : ∀ accepts, policy = Policy.ofBool accepts → ∀ results, Completes told results →
        Chooses accepts results winner (chosen winner))
      (hlosers : ∀ accepts, policy = Policy.ofBool accepts →
        ∀ loser ∈ replay.losers, Loses accepts told loser.1 loser.2) :
      Course policy told false [chosen winner] (some replay) .open
  | done {winner : Option (Nat × HeldReply)} {verdict : Verdict} (hverdict : verdict ≠ .open)
      (hchooses : ∀ accepts, policy = Policy.ofBool accepts → ∀ results, Completes told results →
        Chooses accepts results winner (chosen winner)) :
      Course policy told false [chosen winner] none verdict

/-- A report that comes after the decision changes nothing of the response. -/
theorem Course.set {policy : Policy} {told : List (Option Report)} {delivered : List Reply}
    {replay : Option ReplayState} {verdict : Verdict} {index : Nat}
    (hindex : told[index]? = some none) (result : Report)
    (h : Course policy told false delivered replay verdict) :
    Course policy (told.set index (some result)) false delivered replay verdict := by
  cases h with
  | replaying hchooses hlosers =>
    refine .replaying (fun accepts hpolicy results hresults =>
      hchooses accepts hpolicy results (completes_of_set hindex hresults)) ?_
    intro accepts hpolicy loser hloser
    rw [← tellFirst_of_none hindex]
    exact loses_tellFirst (hlosers accepts hpolicy loser hloser) _
  | done hverdict hchooses =>
    exact .done hverdict fun accepts hpolicy results hresults =>
      hchooses accepts hpolicy results (completes_of_set hindex hresults)

/-- **What a contest keeps in any case**: its race and its lanes know which slots have reported, a
lane that came to its end without a panic has, and the response is as far as it should be. -/
structure Holds (told : List (Option Report)) (delivered : List Reply) (c : Contest) : Prop where
  length_lanes : c.lanes.length ≤ told.length
  empty_iff : ∀ index : Nat, c.race.slots[index]? = some .empty ↔ told[index]? = some none
  slots_eq : c.race.undecided = true → c.race.slots = told.map Race.slotOf?
  reported_iff : ∀ index < c.lanes.length,
    c.hasReported index = false ↔ told[index]? = some none
  told_of_phase : ∀ index < c.lanes.length,
    c.phaseOf index = .ended none ∨ c.phaseOf index = .replaying → told[index]? ≠ some none
  course : Course c.policy told c.race.undecided delivered c.replay c.verdict

section

variable {told : List (Option Report)} {delivered : List Reply} {c : Contest}

/-- A contest whose lanes are about to start, even if a panic kept some lanes from being there. -/
theorem holds_start (policy : Policy) {slots lanes : Nat} (hlanes : lanes ≤ slots) {race : Race}
    (h : Race.ofSlots? slots = .ok race) (panic : Option String) :
    Holds (List.replicate slots none) [] (start policy race lanes panic) := by
  unfold Race.ofSlots? at h
  split at h
  · cases h
  · next hslots =>
    cases h
    refine ⟨by simpa [start] using hlanes, fun index => ?_, fun _ => ?_, fun index hlt => ?_,
      fun index hlt hphase => ?_, .racing (.inl ?_)⟩
    · simp [start, List.getElem?_replicate]
    · simp [start, Race.slotOf?]
    · simp only [start, List.length_replicate] at hlt
      have hslot : index < slots := Nat.lt_of_lt_of_le hlt hlanes
      simp [start, hasReported, hlt, hslot]
    · simp only [start, List.length_replicate] at hlt
      simp [start, phaseOf, hlt] at hphase
    · obtain ⟨count, rfl⟩ := Nat.exists_eq_succ_of_ne_zero hslots
      rfl

/-- The invariant speaks of the race, of what lanes are known to be and of the response alone. -/
theorem Holds.congr (h : c.Holds told delivered) {c' : Contest} (hpolicy : c'.policy = c.policy)
    (hrace : c'.race = c.race) (hlanes : c'.lanes = c.lanes) (hreplay : c'.replay = c.replay)
    (hverdict : c'.verdict = c.verdict) : c'.Holds told delivered := by
  obtain ⟨h₁, h₂, h₃, h₄, h₅, h₆⟩ := h
  refine ⟨by rwa [hlanes], by rwa [hrace], by rwa [hrace], ?_, ?_,
    by rwa [hpolicy, hrace, hreplay, hverdict]⟩
  · simpa only [hasReported, hlanes] using h₄
  · simpa only [phaseOf, hlanes] using h₅

theorem Holds.setPhase (h : c.Holds told delivered) {index : Nat} {phase : LanePhase}
    (hphase : phase = .ended none ∨ phase = .replaying → told[index]? ≠ some none) :
    (c.setPhase index phase).Holds told delivered := by
  have hlength : (c.setPhase index phase).lanes.length = c.lanes.length := by
    rw [Contest.setPhase, List.length_modify]
  refine ⟨by rw [hlength]; exact h.length_lanes, h.empty_iff, h.slots_eq, fun other hlt => ?_,
    fun other hlt hother => ?_, h.course⟩
  · rw [hasReported_setPhase]
    exact h.reported_iff other (hlength ▸ hlt)
  · rw [hlength] at hlt
    by_cases hne : other = index
    · subst hne
      rw [phaseOf_setPhase_self c hlt] at hother
      exact hphase hother
    · rw [phaseOf_setPhase_ne c hne] at hother
      exact h.told_of_phase other hlt hother

/-! ## Reports -/

/-- **What becomes of something that happens at a slot**: a slot that has reported refuses it, and
any other slot reports it. -/
inductive Hears (c : Contest) (owner : Option Nat) (index : Nat) (result : Report) :
    Contest × List Note × Reaction → Prop where
  | refused (hreported : c.hasReported index = true) (notes : List Note) (response : Response) :
      Hears c owner index result (c, notes, .answers response)
  | reports (hfirst : c.hasReported index = false) :
      Hears c owner index result (c.reportSlot owner index result)

theorem hears_receive (c : Contest) (index : Nat) (reply : Reply) :
    c.Hears (some index) index (.ok reply) (c.receive index reply) := by
  unfold receive
  split
  · next hreported => exact .refused hreported _ _
  · next hfirst => exact .reports (eq_false_of_ne_true hfirst)

theorem hears_closeSlot (c : Contest) (owner : Option Nat) (index : Nat) (result : Delivery) :
    c.Hears owner index (.error (failureOf result)) (c.closeSlot owner index result) := by
  unfold closeSlot
  split
  · next hreported => exact .refused hreported _ _
  · next hfirst => exact .reports (eq_false_of_ne_true hfirst)

theorem hears_of_receive {index : Nat} {reply : Reply} {received : Contest × List Note × Reaction}
    (h : c.receive index reply = received) : c.Hears (some index) index (.ok reply) received :=
  h ▸ hears_receive c index reply

theorem hears_of_closeSlot {owner : Option Nat} {index : Nat} {result : Delivery}
    {closed : Contest × List Note × Reaction} (h : c.closeSlot owner index result = closed) :
    c.Hears owner index (.error (failureOf result)) closed :=
  h ▸ hears_closeSlot c owner index result

/-- **What a report leads to**: the race goes on, or the policy panics; the race is decided; or it
was decided before, and the response is cancelled. -/
inductive Takes (told : List (Option Report)) (owner : Option Nat) (index : Nat) (result : Report)
    (c c' : Contest) : Reaction → Prop where
  | waits (hbefore : c.race.undecided = true) (hafter : c'.race.undecided = true)
      (hreplay : c'.replay = c.replay) (hopen : standing c.policy told = .open) :
      Takes told owner index result c c' (.answers (.result (.ok ())))
  | breaks {message : String} (hbefore : c.race.undecided = true)
      (hafter : c'.race.undecided = true) (hreplay : c'.replay = c.replay)
      (hpanicked : standing c.policy told = .panicked message) :
      Takes told owner index result c c' (.answers (.unwinds message))
  | decides {winner : Option (Nat × HeldReply)} {losers : List (Nat × HeldReply)}
      (hbefore : c.race.undecided = true) (hafter : c'.race.undecided = false)
      (hreplay : c'.replay = some ⟨owner, losers⟩)
      (hlosers : ∀ accepts, c.policy = Policy.ofBool accepts →
        ∀ loser ∈ losers, Loses accepts told loser.1 loser.2)
      (hchooses : ∀ accepts, c.policy = Policy.ofBool accepts → ∀ results, Completes told results →
        Chooses accepts results winner (chosen winner)) :
      Takes told owner index result c c' (.replays (chosen winner))
  | late (hbefore : c.race.undecided = false) (hafter : c'.race.undecided = false)
      (hreplay : c'.replay = c.replay) :
      Takes told owner index result c c'
        (.answers (afterCancelling (Race.cancelLate [] index (Race.responseOf? result)).2))

/-- A report marks its slot, and moves no task. -/
structure Marks (told : List (Option Report)) (index : Nat) (c c' : Contest) : Prop where
  policy_eq : c'.policy = c.policy
  main_eq : c'.main = c.main
  verdict_eq : c'.verdict = c.verdict
  lanes_eq : c'.lanes = c.lanes.modify index fun lane => { lane with reported := true }
  empty_iff : ∀ other : Nat, c'.race.slots[other]? = some .empty ↔ told[other]? = some none
  slots_eq : c'.race.undecided = true → c'.race.slots = told.map Race.slotOf?

theorem getElem?_set_eq_none {index : Nat} (result : Report) (other : Nat) :
    (told.set index (some result))[other]? = some none ↔
      told[other]? = some none ∧ other ≠ index := by
  by_cases hother : index = other
  · subst hother
    simp [List.getElem?_set]
  · simp [List.getElem?_set_ne hother, Ne.symm hother]

/-- **A report of a slot that has not reported yet.** -/
theorem Holds.takes (h : c.Holds told delivered) {index : Nat} (hindex : told[index]? = some none)
    (owner : Option Nat) (result : Report) :
    Takes (told.set index (some result)) owner index result c (c.reportSlot owner index result).1
        (c.reportSlot owner index result).2.2 ∧
      Marks (told.set index (some result)) index c (c.reportSlot owner index result).1 := by
  have hempty := (h.empty_iff index).mpr hindex
  have hempties : ∀ other : Nat,
      (c.race.report c.policy index result).1.slots[other]? = some .empty ↔
        (told.set index (some result))[other]? = some none := by
    intro other
    rw [Race.getElem?_report_eq_empty hempty, h.empty_iff, getElem?_set_eq_none]
  rw [Contest.reportSlot]
  cases hundecided : c.race.undecided with
  | false =>
    rw [Race.report_of_decided hempty hundecided] at hempties ⊢
    exact ⟨.late hundecided rfl rfl, rfl, rfl, rfl, rfl, hempties, by simp⟩
  | true =>
    have hslots : c.race.slots.set index (Race.slotOf result) =
        (told.set index (some result)).map Race.slotOf? := by
      rw [List.map_set, h.slots_eq hundecided]
      rfl
    rw [Race.report_of_undecided hempty hundecided, hslots] at hempties ⊢
    rcases Race.rule_cases c.policy ((told.set index (some result)).map Race.slotOf?) with
      ⟨hopen, hrule⟩ | ⟨message, hpanicked, hrule⟩ | ⟨winner, losers, hrule⟩
    · rw [hrule] at hempties ⊢
      exact ⟨.waits hundecided rfl rfl hopen, rfl, rfl, rfl, rfl, hempties, fun _ => rfl⟩
    · rw [hrule] at hempties ⊢
      exact ⟨.breaks hundecided rfl rfl hpanicked, rfl, rfl, rfl, rfl, hempties, fun _ => rfl⟩
    · have hdecided := congrArg Prod.snd hrule
      rw [hrule] at hempties ⊢
      refine ⟨.decides hundecided rfl rfl
        (fun accepts hpolicy => (Race.chooses_of_decided hpolicy hdecided).2)
        fun accepts hpolicy => (Race.chooses_of_decided hpolicy hdecided).1, rfl, rfl, rfl, rfl,
        hempties, by simp⟩

theorem Holds.told_ne_none (h : c.Holds told delivered) {index : Nat} (hlt : index < c.lanes.length)
    (hreported : c.hasReported index = true) : told[index]? ≠ some none := by
  intro hnone
  rw [(h.reported_iff index hlt).mpr hnone] at hreported
  cases hreported

theorem Holds.told_eq_none (h : c.Holds told delivered) {index : Nat} (hlt : index < c.lanes.length)
    (hfirst : c.hasReported index = false) : told[index]? = some none :=
  (h.reported_iff index hlt).mp hfirst

/-- A slot that has reported is marked, and the response goes on with the report. -/
theorem Holds.mark (h : c.Holds told delivered) {index : Nat} (hindex : told[index]? = some none)
    {owner : Option Nat} {result : Report} {c' : Contest} {reaction : Reaction}
    (htakes : Takes (told.set index (some result)) owner index result c c' reaction)
    (hmarks : Marks (told.set index (some result)) index c c') :
    c'.Holds (told.set index (some result)) (delivered ++ reaction.delivered) := by
  have hcourse := h.course
  have hphases := phaseOf_modify_reported c c' hmarks.lanes_eq
  have hlength : c'.lanes.length = c.lanes.length := by rw [hmarks.lanes_eq, List.length_modify]
  refine ⟨by rw [hlength, List.length_set]; exact h.length_lanes, hmarks.empty_iff, hmarks.slots_eq,
    fun other hlt => ?_, fun other hlt hother => ?_, ?_⟩
  · have hreported := h.reported_iff other (hlength ▸ hlt)
    rw [getElem?_set_eq_none, ← hreported]
    unfold hasReported
    rw [hmarks.lanes_eq, List.getElem?_modify]
    rw [hlength] at hlt
    by_cases hne : index = other
    · simp [hne, hlt]
    · simp [hne, Ne.symm hne]
  · rw [hphases] at hother
    exact set_ne_none result (h.told_of_phase other (hlength ▸ hlt) hother)
  · rw [hmarks.policy_eq, hmarks.verdict_eq]
    cases htakes with
    | waits hbefore hafter hreplay hopen =>
      rw [hbefore] at hcourse
      rw [hafter, hreplay]
      generalize c.replay = replay at hcourse
      generalize c.verdict = verdict at hcourse
      cases hcourse
      exact .racing (.inl hopen)
    | breaks hbefore hafter hreplay hpanicked =>
      rw [hbefore] at hcourse
      rw [hafter, hreplay]
      generalize c.replay = replay at hcourse
      generalize c.verdict = verdict at hcourse
      cases hcourse
      exact .racing (.inr ⟨_, hpanicked⟩)
    | decides hbefore hafter hreplay hlosers hchooses =>
      rw [hbefore] at hcourse
      rw [hafter, hreplay]
      generalize c.replay = replay at hcourse
      generalize c.verdict = verdict at hcourse
      cases hcourse
      exact .replaying hchooses hlosers
    | late hbefore hafter hreplay =>
      rw [hbefore] at hcourse
      rw [hafter, hreplay, Reaction.delivered, List.append_nil]
      exact hcourse.set hindex result

/-- **Something happens at a slot.** Only the first thing is told. -/
theorem Holds.hears (h : c.Holds told delivered) {owner : Option Nat} {index : Nat}
    (hlt : index < c.lanes.length) {result : Report} {heard : Contest × List Note × Reaction}
    (hhears : c.Hears owner index result heard) :
    heard.1.Holds (tellFirst told (index, result)) (delivered ++ heard.2.2.delivered) := by
  cases hhears with
  | refused hreported notes response =>
    rw [tellFirst_of_ne (h.told_ne_none hlt hreported), Reaction.delivered, List.append_nil]
    exact h
  | reports hfirst =>
    have hindex := h.told_eq_none hlt hfirst
    rw [tellFirst_of_none hindex]
    obtain ⟨htakes, hmarks⟩ := h.takes hindex owner result
    exact h.mark hindex htakes hmarks

/-! ## The replay -/

/-- **Who waits for the connection.** A lane that replays the chosen response is known to, and the
main task replays it only while it closes slots. -/
structure Owned (c : Contest) : Prop where
  replay_of_phase : ∀ index, c.phaseOf index = .replaying →
    ∃ losers, c.replay = some ⟨some index, losers⟩
  main_of_replay : ∀ losers, c.replay = some ⟨none, losers⟩ → ∃ next, c.main = .closing next

theorem Owned.congr (h : c.Owned) {c' : Contest}
    (hphase : ∀ index, c'.phaseOf index = c.phaseOf index) (hmain : c'.main = c.main)
    (hreplay : c'.replay = c.replay) : c'.Owned where
  replay_of_phase := by
    intro index hindex
    rw [hphase] at hindex
    rw [hreplay]
    exact h.replay_of_phase index hindex
  main_of_replay := by
    rw [hreplay, hmain]
    exact h.main_of_replay

/-- The main task may go wherever it likes while it does not replay the response itself. -/
theorem Owned.setMain (h : c.Owned) (hown : c.replaysItself = false) (main : MainPhase) :
    Owned { c with main := main } where
  replay_of_phase := h.replay_of_phase
  main_of_replay := by
    intro losers hreplay
    dsimp only at hreplay
    rw [replaysItself, hreplay] at hown
    cases hown

/-- The main task replays a response only while it closes slots. -/
def Steady (c : Contest) : Prop := c.replaysItself = true → ∃ next, c.main = .closing next

theorem Owned.steady (h : c.Owned) : c.Steady := by
  intro hown
  rw [replaysItself] at hown
  cases hreplay : c.replay with
  | none =>
    rw [hreplay] at hown
    cases hown
  | some replay =>
    obtain ⟨owner, losers⟩ := replay
    cases owner with
    | none => exact h.main_of_replay losers hreplay
    | some index =>
      rw [hreplay] at hown
      cases hown

/-- The main task does not go on by itself while it replays a response. -/
theorem Steady.mainGoes (h : c.Steady) {lanes : Nat} {main : MainPhase} {ends : Option Ending}
    (hgoes : c.MainGoes lanes main ends) : c.replaysItself = false := by
  cases hown : c.replaysItself with
  | false => rfl
  | true =>
    obtain ⟨next, hclosing⟩ := h hown
    cases hgoes with
    | passes hmain hfree hlt hphase => rw [hown] at hfree; cases hfree
    | awaits hmain hfree hle => rw [hown] at hfree; cases hfree
    | spawns hmain | breaks hmain | yields hmain | joins hmain hseen | closes hmain hover
    | notices hmain hverdict | leaves hmain | panics hmain =>
      rw [hclosing] at hmain
      cases hmain

/-- An undecided race is replayed by nobody. -/
theorem Owned.not_replaying (h : c.Owned) (hreplay : c.replay = none) (index : Nat) :
    c.phaseOf index ≠ .replaying := by
  intro hphase
  obtain ⟨losers, hsome⟩ := h.replay_of_phase index hphase
  rw [hreplay] at hsome
  cases hsome

/-- **Whose the replay is.** Whoever decides the race owns it; nothing else that happens at a slot
changes it. -/
theorem Holds.replay_hears (h : c.Holds told delivered) {owner : Option Nat} {index : Nat}
    (hlt : index < c.lanes.length) {result : Report} {heard : Contest × List Note × Reaction}
    (hhears : c.Hears owner index result heard) :
    (∀ response, heard.2.2 = .answers response → heard.1.replay = c.replay) ∧
      ∀ reply, heard.2.2 = .replays reply →
        c.replay = none ∧ ∃ losers, heard.1.replay = some ⟨owner, losers⟩ := by
  cases hhears with
  | refused hreported notes response => exact ⟨fun _ _ => rfl, nofun⟩
  | reports hfirst =>
    obtain ⟨htakes, -⟩ := h.takes (h.told_eq_none hlt hfirst) owner result
    have hcourse := h.course
    generalize (c.reportSlot owner index result).1 = c' at htakes ⊢
    generalize (c.reportSlot owner index result).2.2 = reaction at htakes ⊢
    cases htakes with
    | waits hbefore hafter hreplay hopen => exact ⟨fun _ _ => hreplay, nofun⟩
    | breaks hbefore hafter hreplay hpanicked => exact ⟨fun _ _ => hreplay, nofun⟩
    | late hbefore hafter hreplay => exact ⟨fun _ _ => hreplay, nofun⟩
    | decides hbefore hafter hreplay hlosers hchooses =>
      rw [hbefore] at hcourse
      generalize c.replay = replay at hcourse
      generalize c.verdict = verdict at hcourse
      cases hcourse
      exact ⟨nofun, fun _ _ => ⟨rfl, _, hreplay⟩⟩

/-- Something happens at a slot, on behalf of a lane or of the main task that closes it. -/
theorem Owned.hears (h : c.Owned) (hholds : c.Holds told delivered) {owner : Option Nat}
    {index : Nat} (hlt : index < c.lanes.length) {result : Report}
    (hmain : owner = none → ∃ next, c.main = .closing next)
    {heard : Contest × List Note × Reaction} (hhears : c.Hears owner index result heard)
    (hsame : c.SameTasks heard.1) : heard.1.Owned := by
  obtain ⟨hanswers, hreplays⟩ := hholds.replay_hears hlt hhears
  cases hreaction : heard.2.2 with
  | answers response => exact h.congr hsame.phaseOf_eq hsame.main_eq (hanswers _ hreaction)
  | replays reply =>
    obtain ⟨hnone, losers, hreplay⟩ := hreplays _ hreaction
    refine ⟨fun other hother => ?_, fun losers' hlosers' => ?_⟩
    · rw [hsame.phaseOf_eq] at hother
      exact absurd hother (h.not_replaying hnone other)
    · rw [hreplay, Option.some.injEq, ReplayState.mk.injEq] at hlosers'
      rw [hsame.main_eq]
      exact hmain hlosers'.1

/-- A lane is over, or it replays the response from now on. -/
theorem Owned.setPhase (h : c.Owned) {index : Nat} {phase : LanePhase}
    (hphase : phase = .replaying → ∃ losers, c.replay = some ⟨some index, losers⟩) :
    (c.setPhase index phase).Owned where
  replay_of_phase := by
    intro other hother
    by_cases hne : other = index
    · subst hne
      by_cases hlt : other < c.lanes.length
      · rw [phaseOf_setPhase_self c hlt] at hother
        exact hphase hother
      · rw [phaseOf, List.getElem?_eq_none (by simp [Contest.setPhase]; omega)] at hother
        cases hother
    · rw [phaseOf_setPhase_ne c hne] at hother
      exact h.replay_of_phase other hother
  main_of_replay := h.main_of_replay

/-- **How the connection's answer ends the replay**: it is over, unless there is no answer or a
loser keeps whoever cancels it busy for ever. -/
inductive Concludes (c : Contest) (replay : ReplayState) :
    Response → Contest → Response → Prop where
  | silent : Concludes c replay .never c .never
  | busy {result : Delivery} (hbusy : (Race.cancelLosers [] replay.losers).2 = false) :
      Concludes c replay (.result result) c .never
  | answers {result : Delivery} {verdict : Verdict}
      (hfinished : (Race.cancelLosers [] replay.losers).2 = true) (hverdict : verdict ≠ .open) :
      Concludes c replay (.result result) { c with replay := none, verdict := verdict }
        (.result (.ok ()))
  | unwinds (message : String) :
      Concludes c replay (.unwinds message) { c with replay := none, verdict := .lost }
        (.unwinds message)

theorem concludes_conclude (c : Contest) (replay : ReplayState) (response : Response) :
    c.Concludes replay response (c.conclude replay response).1
      (c.conclude replay response).2.2 := by
  unfold conclude
  cases response with
  | never => exact .silent
  | unwinds message => exact .unwinds message
  | result result =>
    dsimp only
    cases hfinished : (Race.cancelLosers [] replay.losers).2 with
    | false => exact .busy hfinished
    | true =>
      simp only [Bool.not_true, Bool.false_eq_true, if_false]
      split
      · exact .answers hfinished nofun
      · exact .answers hfinished nofun

theorem concludes_of_conclude {replay : ReplayState} {response : Response}
    {concluded : Contest × List Note × Response} (h : c.conclude replay response = concluded) :
    c.Concludes replay response concluded.1 concluded.2.2 :=
  h ▸ concludes_conclude c replay response

theorem Concludes.phaseOf_eq {replay : ReplayState} {response answer : Response} {c' : Contest}
    (h : c.Concludes replay response c' answer) : c'.phaseOf = c.phaseOf := by
  cases h <;> rfl

theorem Concludes.main_eq {replay : ReplayState} {response answer : Response} {c' : Contest}
    (h : c.Concludes replay response c' answer) : c'.main = c.main := by
  cases h <;> rfl

theorem Concludes.setPhase {replay : ReplayState} {response answer : Response} {c' : Contest}
    (h : c.Concludes replay response c' answer) (index : Nat) (phase : LanePhase) :
    (c.setPhase index phase).Concludes replay response (c'.setPhase index phase) answer := by
  cases h with
  | silent => exact .silent
  | busy hbusy => exact .busy hbusy
  | answers hfinished hverdict => exact .answers hfinished hverdict
  | unwinds message => exact .unwinds message

/-- The replay is over, and there is a verdict. -/
theorem Holds.conclude (h : c.Holds told delivered) {replay : ReplayState}
    (hreplay : c.replay = some replay) {verdict : Verdict} (hverdict : verdict ≠ .open) :
    Holds told delivered { c with replay := none, verdict := verdict } := by
  obtain ⟨h₁, h₂, h₃, h₄, h₅, hcourse⟩ := h
  refine ⟨h₁, h₂, h₃, h₄, h₅, ?_⟩
  dsimp only
  rw [hreplay] at hcourse
  generalize c.race.undecided = undecided at hcourse ⊢
  generalize c.verdict = before at hcourse
  cases hcourse with
  | replaying hchooses hlosers => exact .done hverdict hchooses

/-! ## The decision -/

/-- **When all slots have reported, the race is decided**, unless the policy panics on what they
have reported. -/
theorem Holds.undecided_iff (h : c.Holds told delivered) (hall : AllTold told)
    (hundecided : c.race.undecided = true) :
    ∃ message, standing c.policy told = .panicked message := by
  have hcourse := h.course
  rw [hundecided] at hcourse
  generalize c.replay = replay at hcourse
  generalize c.verdict = verdict at hcourse
  cases hcourse with
  | racing hopen => exact hopen.resolve_left (Race.standingFrom_ne_open hall)

theorem Holds.decided_of_answers (h : c.Holds told delivered) (hall : AllTold told)
    (hanswers : c.policy.Answers told) : c.race.undecided = false := by
  refine eq_false_of_ne_true fun hundecided => ?_
  obtain ⟨message, hpanicked⟩ := h.undecided_iff hall hundecided
  exact Race.standingFrom_ne_panicked hanswers 0 message hpanicked

/-! ## The main task -/

/-- **How far the main task of a contest is**, whatever the policy and the connection do. The
proposition says that each slot has a lane, as is the case unless a panic kept the lanes from being
started. -/
inductive MainCourse (full : Prop) (told : List (Option Report)) (phaseOf : Nat → LanePhase) :
    MainPhase → Verdict → Option Ending → Prop where
  | spawning {panic : Option String} {verdict : Verdict} (hfull : panic = none → full) :
      MainCourse full told phaseOf (.spawning panic) verdict none
  | yielding {verdict : Verdict} (hfull : full) :
      MainCourse full told phaseOf .yielding verdict none
  | joining {verdict : Verdict} {seen : Nat} (hfull : full) :
      MainCourse full told phaseOf (.joining seen) verdict none
  | closing {verdict : Verdict} {next : Nat} (hfull : full)
      (hclosed : ∀ index < next, told[index]? ≠ some none) (hover : AllSettled told phaseOf) :
      MainCourse full told phaseOf (.closing next) verdict none
  | awaiting {verdict : Verdict} (hall : AllTold told) :
      MainCourse full told phaseOf .awaiting verdict none
  | leaving {verdict : Verdict} (hall : AllTold told) (hverdict : verdict ≠ .open) :
      MainCourse full told phaseOf .leaving verdict none
  | panicking {message : String} {verdict : Verdict} :
      MainCourse full told phaseOf (.panicking message) verdict none
  | gone {verdict : Verdict} (ending : Ending) :
      MainCourse full told phaseOf .gone verdict (some ending)

section

variable {full : Prop} {phaseOf phaseOf' : Nat → LanePhase} {main : MainPhase} {verdict : Verdict}
  {ending : Option Ending}

theorem MainCourse.ending_eq (h : MainCourse full told phaseOf main verdict ending)
    (hmain : main ≠ .gone) : ending = none := by
  cases h with
  | gone ending => exact absurd rfl hmain
  | _ => rfl

theorem MainCourse.allTold (h : MainCourse full told phaseOf .awaiting verdict ending) :
    AllTold told := by
  cases h with
  | awaiting hall => exact hall

/-- The main task is where it is while lanes go on and the connection answers. -/
theorem MainCourse.congr {told' : List (Option Report)} {verdict' : Verdict}
    (h : MainCourse full told phaseOf main verdict ending)
    (htold : ∀ index : Nat, told[index]? ≠ some none → told'[index]? ≠ some none)
    (hphase : ∀ index message, phaseOf index = .ended (some message) →
      told'[index]? ≠ some none ∨ ∃ message, phaseOf' index = .ended (some message))
    (hverdict : verdict ≠ .open → verdict' ≠ .open) :
    MainCourse full told' phaseOf' main verdict' ending := by
  cases h with
  | spawning hfull => exact .spawning hfull
  | yielding hfull => exact .yielding hfull
  | joining hfull => exact .joining hfull
  | closing hfull hclosed hover =>
    refine .closing hfull (fun index hlt => htold index (hclosed index hlt)) fun index => ?_
    rcases hover index with htold' | ⟨message, hphase'⟩
    · exact .inl (htold index htold')
    · exact hphase index message hphase'
  | awaiting hall => exact .awaiting fun index => htold index (hall index)
  | leaving hall hopen => exact .leaving (fun index => htold index (hall index)) (hverdict hopen)
  | panicking => exact .panicking
  | gone ending => exact .gone ending

end

/-- **The main task goes on by itself.** -/
theorem MainGoes.course {lanes : Nat} {main : MainPhase} {ends ending : Option Ending}
    (h : c.MainGoes lanes main ends) (hholds : c.Holds told delivered)
    (hlanes : lanes = c.lanes.length)
    (hmain : MainCourse (c.lanes.length = told.length) told c.phaseOf c.main c.verdict ending) :
    MainCourse (c.lanes.length = told.length) told c.phaseOf main c.verdict (ending <|> ends) := by
  cases h with
  | spawns heq =>
    rw [heq] at hmain
    cases hmain with
    | spawning hfull =>
      unfold afterSpawning
      split
      · exact .joining (hfull rfl)
      · exact .yielding (hfull rfl)
  | breaks heq =>
    rw [heq] at hmain
    cases hmain with
    | spawning hfull => exact .panicking
  | yields heq =>
    rw [heq] at hmain
    cases hmain with
    | yielding hfull => exact .joining hfull
  | joins heq hseen =>
    rw [heq] at hmain
    cases hmain with
    | joining hfull => exact .joining hfull
  | closes heq hover =>
    rw [heq] at hmain
    cases hmain with
    | joining hfull =>
      refine .closing hfull (fun index hlt => absurd hlt (Nat.not_lt_zero index)) fun index => ?_
      obtain ⟨panic, hphase⟩ := c.allOver_iff.mp hover index
      cases panic with
      | some message => exact .inr ⟨message, hphase⟩
      | none =>
        by_cases hlt : index < c.lanes.length
        · exact .inl (hholds.told_of_phase index hlt (.inl hphase))
        · rw [List.getElem?_eq_none (by omega)]
          exact .inl nofun
  | passes heq hown hlt hphase =>
    rw [heq] at hmain
    cases hmain with
    | closing hfull hclosed hover =>
      refine .closing hfull (fun other hother => ?_) hover
      rcases Nat.lt_succ_iff_lt_or_eq.mp hother with hbelow | rfl
      · exact hclosed other hbelow
      -- The lane has not panicked, so its slot has reported already.
      · rcases hover other with htold | ⟨message, hended⟩
        · exact htold
        · exact absurd hended (hphase message)
  | awaits heq hown hle =>
    rw [heq] at hmain
    cases hmain with
    | closing hfull hclosed hover =>
      refine .awaiting fun other htold => hclosed other ?_ htold
      have hlt := (List.getElem?_eq_some_iff.mp htold).1
      omega
  | notices heq hverdict =>
    rw [heq] at hmain
    cases hmain with
    | awaiting hall => exact .leaving hall hverdict
  | leaves heq =>
    rw [heq] at hmain
    cases hmain with
    | leaving hall hverdict => exact .gone _
  | panics heq =>
    rw [heq] at hmain
    cases hmain with
    | panicking => exact .gone _

end

end Contest

open Contest (tell? tellFirst Owned MainCourse)

/-! ## The broadcast -/

/-- **What a broadcast keeps in any case.** -/
structure Underway (policy : Policy) (told : List (Option Report)) (delivered : List Reply)
    (ending : Option Ending) (c : Contest) (lanes : List Sending) : Prop where
  holds : c.Holds told delivered
  owned : c.Owned
  main : MainCourse (c.lanes.length = told.length) told c.phaseOf c.main c.verdict ending
  length_eq : lanes.length = c.lanes.length
  policy_eq : c.policy = policy

section

variable {policy : Policy} {told : List (Option Report)} {delivered : List Reply}
  {ending : Option Ending} {c c' : Contest} {lanes lanes' : List Sending}

theorem Contest.length_lanes_hears {owner : Option Nat} {index : Nat} {result : Report}
    {heard : Contest × List Note × Reaction} (h : c.Hears owner index result heard) :
    heard.1.lanes.length = c.lanes.length := by
  cases h with
  | refused hreported notes response => rfl
  | reports hfirst =>
    unfold Contest.reportSlot
    obtain ⟨race, entries, ruling⟩ := c.race.report c.policy index result
    cases ruling <;> exact List.length_modify ..

theorem Contest.policy_hears {owner : Option Nat} {index : Nat} {result : Report}
    {heard : Contest × List Note × Reaction} (h : c.Hears owner index result heard) :
    heard.1.policy = c.policy := by
  cases h with
  | refused hreported notes response => rfl
  | reports hfirst =>
    unfold Contest.reportSlot
    obtain ⟨race, entries, ruling⟩ := c.race.report c.policy index result
    cases ruling <;> rfl

theorem Underway.setLanes (h : Underway policy told delivered ending c lanes)
    (hlength : lanes'.length = lanes.length) : Underway policy told delivered ending c lanes' :=
  ⟨h.holds, h.owned, h.main, hlength.trans h.length_eq, h.policy_eq⟩

/-- A lane comes to another phase. -/
theorem Underway.setPhase (h : Underway policy told delivered ending c lanes) {index : Nat}
    {phase : LanePhase} (hphase : phase = .ended none ∨ phase = .replaying →
      told[index]? ≠ some none)
    (howner : phase = .replaying → ∃ losers, c.replay = some ⟨some index, losers⟩)
    (hover : told[index]? ≠ some none ∨ ∃ message, phase = .ended (some message)) :
    Underway policy told delivered ending (c.setPhase index phase) lanes := by
  have hlength : (c.setPhase index phase).lanes.length = c.lanes.length := by
    rw [Contest.setPhase, List.length_modify]
  refine ⟨h.holds.setPhase hphase, h.owned.setPhase howner, ?_, h.length_eq.trans hlength.symm,
    h.policy_eq⟩
  rw [hlength]
  refine h.main.congr (fun _ => id) (fun other message hended => ?_) id
  by_cases hne : other = index
  · subst hne
    rcases hover with htold | ⟨message, rfl⟩
    · exact .inl htold
    · by_cases hlt : other < c.lanes.length
      · exact .inr ⟨message, Contest.phaseOf_setPhase_self c hlt _⟩
      · rw [Contest.phaseOf, List.getElem?_eq_none (Nat.le_of_not_lt hlt)] at hended
        cases hended
  · exact .inr ⟨message, (Contest.phaseOf_setPhase_ne c hne phase).trans hended⟩

/-- Something happens at a slot, on behalf of a lane or of the main task that closes it. -/
theorem Underway.hears (h : Underway policy told delivered ending c lanes) {owner : Option Nat}
    {index : Nat} (hlt : index < lanes.length) {result : Report}
    (hmain : owner = none → ∃ next, c.main = .closing next)
    {heard : Contest × List Note × Reaction} (hhears : c.Hears owner index result heard)
    (hsame : c.SameTasks heard.1) :
    Underway policy (tellFirst told (index, result)) (delivered ++ heard.2.2.delivered) ending
      heard.1 lanes := by
  have hlane : index < c.lanes.length := h.length_eq ▸ hlt
  have hlength := Contest.length_lanes_hears hhears
  refine ⟨h.holds.hears hlane hhears, h.owned.hears h.holds hlane hmain hhears hsame, ?_,
    h.length_eq.trans hlength.symm, (Contest.policy_hears hhears).trans h.policy_eq⟩
  rw [hlength, hsame.main_eq, hsame.verdict_eq, Contest.length_tellFirst]
  exact h.main.congr (fun other => Contest.tellFirst_ne_none _)
    (fun other message hended => .inr ⟨message, (hsame.phaseOf_eq other).trans hended⟩) id

/-- The main task goes on, and nothing else changes. -/
theorem Underway.setMain (h : Underway policy told delivered ending c lanes)
    (hown : c.replaysItself = false) {main : MainPhase} {ending' : Option Ending}
    (hmain : MainCourse (c.lanes.length = told.length) told c.phaseOf main c.verdict ending') :
    Underway policy told delivered ending' { c with main := main } lanes :=
  ⟨h.holds.congr rfl rfl rfl rfl rfl, h.owned.setMain hown main, hmain, h.length_eq,
    h.policy_eq⟩

/-- The main task closes the slot of a lane that has panicked. -/
theorem Underway.mainCloses (h : Underway policy told delivered ending c lanes) {index : Nat}
    {cause : SendError} {closed : Contest × List Note × Reaction} (hmain : c.main = .closing index)
    (hown : c.replaysItself = false) (hlt : index < lanes.length)
    (hclosed : ({ c with main := .closing (index + 1) } : Contest).closeSlot none index
      (.error cause) = closed) :
    Underway policy (tellFirst told (index, .error cause)) (delivered ++ closed.2.2.delivered)
      ending (closed.1.mainTold closed.2.2) lanes := by
  have hhears := Contest.hears_of_closeSlot hclosed
  have hsame := Contest.sameTasks_of_closeSlot hclosed
  have hlane : index < c.lanes.length := h.length_eq ▸ hlt
  have hlength := Contest.length_lanes_hears hhears
  have hpolicy := Contest.policy_hears hhears
  have hholds : Contest.Holds told delivered { c with main := .closing (index + 1) } :=
    h.holds.congr rfl rfl rfl rfl rfl
  obtain ⟨hanswers, -⟩ := hholds.replay_hears hlane hhears
  have hkept := hholds.hears hlane hhears
  have howned := (h.owned.setMain hown (.closing (index + 1))).hears hholds hlane
    (fun _ => ⟨_, rfl⟩) hhears hsame
  have hcourse := h.main
  rw [hmain] at hcourse
  cases hcourse with
  | closing hfull hbelow hover =>
    -- All slots up to this one have reported now.
    have hmain' : MainCourse (closed.1.lanes.length = (tellFirst told (index, .error cause)).length)
        (tellFirst told (index, .error cause)) closed.1.phaseOf closed.1.main closed.1.verdict
        none := by
      rw [hlength, Contest.length_tellFirst, hsame.main_eq, funext hsame.phaseOf_eq]
      refine .closing hfull (fun other hother => ?_) fun other => ?_
      · rcases Nat.lt_succ_iff_lt_or_eq.mp hother with hlow | rfl
        · exact Contest.tellFirst_ne_none _ (hbelow other hlow)
        · exact Contest.tellFirst_self_ne_none told other _
      · rcases hover other with htold | hended
        · exact .inl (Contest.tellFirst_ne_none _ htold)
        · exact .inr hended
    have hunderway : Underway policy (tellFirst told (index, .error cause))
        (delivered ++ closed.2.2.delivered) none closed.1 lanes :=
      ⟨hkept, howned, hmain', h.length_eq.trans hlength.symm, hpolicy.trans h.policy_eq⟩
    obtain ⟨c', notes, reaction⟩ := closed
    rcases reaction with (result | message | _) | reply
    · exact hunderway
    · refine hunderway.setMain ?_ .panicking
      rw [Contest.replaysItself, hanswers _ rfl]
      exact hown
    · exact hunderway
    · exact hunderway

/-- A lane has come back, and its slot has reported by then. -/
theorem Underway.laneReturns (h : Underway policy told delivered ending c lanes) {index : Nat}
    (hlt : index < lanes.length) {result : Delivery} {closed : Contest × List Note × Reaction}
    (hclosed : c.closeSlot (some index) index result = closed) :
    Underway policy (tellFirst told (index, .error (Contest.failureOf result)))
      (delivered ++ closed.2.2.delivered) ending (closed.1.laneTold index closed.2.2) lanes := by
  have hhears := Contest.hears_of_closeSlot hclosed
  have hsame := Contest.sameTasks_of_closeSlot hclosed
  have hunderway := h.hears hlt (fun howner => by cases howner) hhears hsame
  obtain ⟨-, hreplays⟩ := h.holds.replay_hears (h.length_eq ▸ hlt) hhears
  have htold := Contest.tellFirst_self_ne_none told index (.error (Contest.failureOf result))
  obtain ⟨c', notes, reaction⟩ := closed
  rcases reaction with (result | message | _) | reply
  · exact hunderway.setPhase (fun _ => htold) nofun (.inl htold)
  · exact hunderway.setPhase (fun _ => htold) nofun (.inl htold)
  · exact hunderway
  · exact hunderway.setPhase (fun _ => htold) (fun _ => (hreplays reply rfl).2) (.inl htold)

/-- The connection answers, and no lane that has come back waits for that. -/
theorem Underway.concludes (h : Underway policy told delivered ending c lanes)
    {replay : ReplayState}
    (hreplay : c.replay = some replay) {response answer : Response}
    (hconcludes : c.Concludes replay response c' answer)
    (hphase : ∀ index, c.phaseOf index ≠ .replaying) :
    Underway policy told delivered ending c' lanes := by
  have hover : ∀ verdict ≠ .open, Underway policy told delivered ending
      { c with replay := none, verdict := verdict } lanes := by
    intro verdict hverdict
    refine ⟨h.holds.conclude hreplay hverdict,
      ⟨fun index hindex => absurd hindex (hphase index), nofun⟩, ?_, h.length_eq, h.policy_eq⟩
    exact h.main.congr (fun _ => id) (fun _ message hended => .inr ⟨message, hended⟩)
      fun _ => hverdict
  cases hconcludes with
  | silent => exact h
  | busy hbusy => exact h
  | answers hfinished hverdict => exact hover _ hverdict
  | unwinds message => exact hover _ nofun

/-- The connection answers a replay of the main task. -/
theorem Underway.answersMain (h : Underway policy told delivered ending c lanes)
    {losers : List (Nat × HeldReply)} (hreplay : c.replay = some ⟨none, losers⟩)
    {response answer : Response} (hconcludes : c.Concludes ⟨none, losers⟩ response c' answer) :
    Underway policy told delivered ending (c'.mainTold (.answers answer)) lanes := by
  have hphase : ∀ index, c.phaseOf index ≠ .replaying := by
    intro index hindex
    obtain ⟨losers', hlane⟩ := h.owned.replay_of_phase index hindex
    rw [hreplay] at hlane
    cases hlane
  have hunderway := h.concludes hreplay hconcludes hphase
  cases hconcludes with
  | silent => exact hunderway
  | busy hbusy => exact hunderway
  | answers hfinished hverdict => exact hunderway
  | unwinds message =>
    -- The main task was still closing slots, so it has not come to its end.
    obtain ⟨next, hclosing⟩ := h.owned.main_of_replay losers hreplay
    have hmain := hunderway.main
    dsimp only at hmain
    rw [hclosing] at hmain
    cases hmain with
    | closing hfull hclosed hover => exact hunderway.setMain rfl .panicking

/-- The connection answers the replay of a lane that has come back. -/
theorem Underway.answersReplay (h : Underway policy told delivered ending c lanes) {index : Nat}
    {losers : List (Nat × HeldReply)} (hreplay : c.replay = some ⟨some index, losers⟩)
    {response answer : Response}
    (hconcludes : c.Concludes ⟨some index, losers⟩ response c' answer)
    (hphase : c.phaseOf index = .replaying) :
    Underway policy told delivered ending (c'.laneTold index (.answers answer)) lanes := by
  have hlt : index < c.lanes.length := by
    refine Decidable.byContradiction fun hge => ?_
    rw [Contest.phaseOf, List.getElem?_eq_none (Nat.le_of_not_lt hge)] at hphase
    cases hphase
  have htold := h.holds.told_of_phase index hlt (.inr hphase)
  have hended : ∀ panic,
      Underway policy told delivered ending (c'.setPhase index (.ended panic)) lanes := by
    intro panic
    have hended : Underway policy told delivered ending (c.setPhase index (.ended panic)) lanes :=
      h.setPhase (fun _ => htold) (by simp) (.inl htold)
    refine hended.concludes hreplay (hconcludes.setPhase index _) fun other hother => ?_
    by_cases hne : other = index
    · subst hne
      rw [Contest.phaseOf_setPhase_self c hlt] at hother
      cases hother
    · rw [Contest.phaseOf_setPhase_ne c hne] at hother
      obtain ⟨losers', hlane⟩ := h.owned.replay_of_phase other hother
      rw [hreplay, Option.some.injEq, ReplayState.mk.injEq, Option.some.injEq] at hlane
      exact hne hlane.1.symm
  cases hconcludes with
  | silent => exact h
  | busy hbusy => exact h
  | answers hfinished hverdict => exact hended none
  | unwinds message => exact hended (some message)

/-- The connection answers the response that a lane has delivered. -/
theorem Underway.answersLane (h : Underway policy told delivered ending c lanes) {index : Nat}
    {losers : List (Nat × HeldReply)} (hreplay : c.replay = some ⟨some index, losers⟩)
    {response answer : Response}
    (hconcludes : c.Concludes ⟨some index, losers⟩ response c' answer)
    (hphase : c.phaseOf index ≠ .replaying) : Underway policy told delivered ending c' lanes := by
  refine h.concludes hreplay hconcludes fun other hother => ?_
  obtain ⟨losers', hlane⟩ := h.owned.replay_of_phase other hother
  rw [hreplay, Option.some.injEq, ReplayState.mk.injEq, Option.some.injEq] at hlane
  exact hphase (hlane.1 ▸ hother)

/-- **Each move keeps it.** -/
theorem Underway.moves (h : Underway policy told delivered ending c lanes) {choice : Choice}
    {going : Option (Nat × List Choice)} {report : Option (Nat × Report)} {gives : List Reply}
    {ends : Option Ending} (hmoves : Moves c lanes choice going report gives ends c') :
    Underway policy (tell? told report) (delivered ++ gives) (ending <|> ends) c'
      (Sending.goOn lanes going) := by
  have hquiet : (ending <|> none) = ending := by cases ending <;> rfl
  have hlength := Sending.length_goOn lanes going
  cases hmoves with
  | mainRests hrests => rw [hquiet, List.append_nil]; exact h
  | laneRests hrests => rw [hquiet, List.append_nil]; exact h
  | ignores hreplay => rw [hquiet, List.append_nil]; exact h
  | main hgoes =>
    rw [List.append_nil]
    exact h.setMain (h.owned.steady.mainGoes hgoes) (hgoes.course h.holds h.length_eq h.main)
  | closes hmain hown hlt hphase hclosed =>
    rw [hquiet]
    exact h.mainCloses hmain hown hlt hclosed
  | runs hfree hlane hdelivered hending =>
    rw [hquiet, List.append_nil]
    exact h.setLanes hlength
  | @delivers index path lane reply received hfree hlane hsignal hreceived =>
    rw [hquiet]
    have hlt := (List.getElem?_eq_some_iff.mp hlane).1
    have hhears := Contest.hears_of_receive hreceived
    have hsame := Contest.sameTasks_of_receive hreceived
    exact (h.hears hlt (fun howner => by cases howner) hhears hsame).setLanes hlength
  | returns hfree hlane hsignal hclosed =>
    rw [hquiet]
    have hlt := (List.getElem?_eq_some_iff.mp hlane).1
    exact (h.laneReturns hlt hclosed).setLanes hlength
  | @panics index lane message hfree hlane hsignal =>
    rw [hquiet, List.append_nil]
    have hpanicked :
        Underway policy told delivered ending (c.setPhase index (.ended (some message))) lanes :=
      h.setPhase (by simp) nofun (.inr ⟨message, rfl⟩)
    exact hpanicked.setLanes hlength
  | @answersMain response losers concluded hreplay hconcluded =>
    rw [hquiet, List.append_nil]
    exact h.answersMain hreplay (Contest.concludes_of_conclude hconcluded)
  | @answersReplay response index losers concluded hreplay hconcluded hphase =>
    rw [hquiet, List.append_nil]
    have hconcludes := Contest.concludes_of_conclude hconcluded
    rw [hconcludes.phaseOf_eq] at hphase
    exact h.answersReplay hreplay hconcludes hphase
  | @answersLane response index losers concluded hreplay hconcluded hphase =>
    rw [hquiet, List.append_nil]
    have hconcludes := Contest.concludes_of_conclude hconcluded
    rw [hconcludes.phaseOf_eq] at hphase
    exact (h.answersLane hreplay hconcludes hphase).setLanes hlength

end

/-! ## Runs -/

/-- A run that has come to a broadcast. -/
def Run.IsUnderway (policy : Policy) (told : List (Option Report)) (r : Run) : Prop :=
  ∃ c lanes, r.sending = .broadcast c lanes ∧ Underway policy told r.delivered r.ending c lanes

/-- **Each choice keeps it.** -/
theorem Run.IsUnderway.choose {policy : Policy} {told : List (Option Report)} {r : Run}
    (h : r.IsUnderway policy told)
    (choice : Choice) :
    (r.choose choice).IsUnderway policy (tell? told (r.sending.slotReport? choice)) := by
  obtain ⟨c, lanes, hsending, hunderway⟩ := h
  obtain ⟨c', hnext, hmoves⟩ := Sending.moves_after c lanes choice
  refine ⟨c', _, by rw [Run.sending_choose, hsending, hnext], ?_⟩
  rw [Run.delivered_choose, Run.ending_choose, hsending]
  exact hunderway.moves hmoves

end Switchboard
