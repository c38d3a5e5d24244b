import Switchboard.Handler.Basic
import Switchboard.Proofs.Delivery.Approach
set_option autoImplicit false

/-! # At most once

A sending gives its connection at most one response, and its main task comes to at most one end. For
the responses that holds of every sending: one that can still give a response (`Sending.owes`) can
give only this one, since a broadcast gives its response with the decision of its race. Its end can
come only once as well, if its main task replays a response only while it closes slots
(`Sending.Steady`); the responses of all handlers are such (`Handler.respond_steady`).

The sendings are the responses of all slices. -/

namespace Switchboard

namespace Contest

/-- **What happens at a slot gives the connection nothing, or it decides the race.** -/
inductive Spends (owner : Option Nat) (c c' : Contest) : List Reply → Prop where
  | keeps (hundecided : c'.race.undecided = c.race.undecided) (hreplay : c'.replay = c.replay) :
      Spends owner c c' []
  | decides {losers : List (Nat × HeldReply)} (hbefore : c.race.undecided = true)
      (hafter : c'.race.undecided = false) (hreplay : c'.replay = some ⟨owner, losers⟩)
      (reply : Reply) : Spends owner c c' [reply]

/-- The main task may still come to its end. -/
def mayEnd (c : Contest) : Bool :=
  match c.main with
  | .gone => false
  | _ => true

section

variable {c c' : Contest} {owner : Option Nat} {index : Nat} {result : Report} {lanes : Nat}

theorem spends_reportSlot (c : Contest) (owner : Option Nat) (index : Nat) (result : Report) :
    Spends owner c (c.reportSlot owner index result).1
      (c.reportSlot owner index result).2.2.delivered := by
  obtain ⟨policy, ⟨slots, undecided⟩, states, main, replay, verdict⟩ := c
  unfold reportSlot Race.report
  dsimp only
  cases slots[index]? with
  | none => exact .keeps rfl rfl
  | some slot =>
    cases slot with
    | empty =>
      cases undecided with
      | false => exact .keeps rfl rfl
      | true =>
        rcases Race.rule_cases policy (slots.set index (Race.slotOf result)) with
          ⟨-, hrule⟩ | ⟨message, -, hrule⟩ | ⟨winner, losers, hrule⟩ <;>
          simp only [if_true, hrule]
        · exact .keeps rfl rfl
        · exact .keeps rfl rfl
        · exact .decides rfl rfl rfl _
    | failed => exact .keeps rfl rfl
    | holds response => exact .keeps rfl rfl
    | spent => exact .keeps rfl rfl

theorem Hears.spends {heard : Contest × List Note × Reaction}
    (h : c.Hears owner index result heard) : Spends owner c heard.1 heard.2.2.delivered := by
  cases h with
  | refused hreported notes response => exact .keeps rfl rfl
  | reports hfirst => exact spends_reportSlot c owner index result

/-- A broadcast that gives its response has not given one before, and will not do so again. -/
theorem Spends.length_le {gives : List Reply} (h : Spends owner c c' gives) :
    gives.length + c'.race.undecided.toNat ≤ c.race.undecided.toNat := by
  cases h with
  | keeps hundecided hreplay =>
    exact Nat.le_of_eq (by rw [hundecided, List.length_nil, Nat.zero_add])
  | decides hbefore hafter hreplay reply => exact Nat.le_of_eq (by rw [hbefore, hafter]; rfl)

/-- A contest with the same replay and the same main task. -/
theorem Steady.congr (h : c.Steady) (hmain : c'.main = c.main) (hreplay : c'.replay = c.replay) :
    c'.Steady := by
  unfold Steady replaysItself at *
  rw [hmain, hreplay]
  exact h

theorem steady_of_replay (h : c.replay = none) : c.Steady := by
  intro hown
  rw [replaysItself, h] at hown
  cases hown

/-- Something happens at a slot, on behalf of a lane or of the main task that closes it. -/
theorem Steady.spends (h : c.Steady) {gives : List Reply} (hspends : Spends owner c c' gives)
    (hmain : c'.main = c.main) (howner : owner = none → ∃ next, c.main = .closing next) :
    c'.Steady := by
  cases hspends with
  | keeps hundecided hreplay => exact h.congr hmain hreplay
  | decides hbefore hafter hreplay reply =>
    intro hown
    rw [hmain]
    cases owner with
    | none => exact howner rfl
    | some index =>
      rw [replaysItself, hreplay] at hown
      cases hown

/-- What happens at the slot of a lane is that lane's to replay. -/
theorem Steady.spendsLane (h : c.Steady) {gives : List Reply}
    (hspends : Spends (some index) c c' gives) (hmain : c'.main = c.main) : c'.Steady :=
  h.spends hspends hmain fun hnone => by cases hnone

/-- The main task leaves once. -/
theorem MainGoes.once {main : MainPhase} {ends : Option Ending} (h : c.MainGoes lanes main ends) :
    ends.toList.length + ({ c with main := main } : Contest).mayEnd.toNat ≤ c.mayEnd.toNat := by
  cases h with
  | spawns hmain =>
    rw [mayEnd, mayEnd, hmain]
    exact Nat.add_le_add_left (Bool.toNat_le _) 0
  | breaks hmain | yields hmain | joins hmain hseen | closes hmain hover
  | passes hmain hown hlt hphase | awaits hmain hown hle
  | notices hmain hverdict | leaves hmain | panics hmain =>
    rw [mayEnd, mayEnd, hmain]
    exact Nat.le_refl _

/-- The main task goes on when it is told something, but not while it replays a response. -/
theorem Steady.mainTold (h : c.Steady) {reaction : Reaction}
    (hfree : reaction.delivered = [] → c.replaysItself = false) :
    (c.mainTold reaction).Steady := by
  rcases reaction with (_ | message | _) | _
  · exact h
  · exact fun hown => absurd hown (ne_true_of_eq_false (hfree rfl))
  · exact h
  · exact h

theorem Steady.laneTold (h : c.Steady) (index : Nat) (reaction : Reaction) :
    (c.laneTold index reaction).Steady := by
  rcases reaction with (_ | _ | _) | _ <;> exact h

theorem mayEnd_congr (h : c'.main = c.main) : c'.mayEnd = c.mayEnd := by
  rw [mayEnd, mayEnd, h]

@[simp] theorem race_mainTold (c : Contest) (reaction : Reaction) :
    (c.mainTold reaction).race = c.race := by
  rcases reaction with (_ | _ | _) | _ <;> rfl

@[simp] theorem race_laneTold (c : Contest) (index : Nat) (reaction : Reaction) :
    (c.laneTold index reaction).race = c.race := by
  rcases reaction with (_ | _ | _) | _ <;> rfl

@[simp] theorem mayEnd_laneTold (c : Contest) (index : Nat) (reaction : Reaction) :
    (c.laneTold index reaction).mayEnd = c.mayEnd := by
  rcases reaction with (_ | _ | _) | _ <;> rfl

/-- An answer of the connection decides nothing. -/
theorem Concludes.race_eq {replay : ReplayState} {response answer : Response}
    (h : c.Concludes replay response c' answer) : c'.race = c.race := by
  cases h <;> rfl

/-- The connection has answered for good, or it never does. -/
theorem Concludes.replay_cases {replay : ReplayState} {response answer : Response}
    (h : c.Concludes replay response c' answer) :
    c'.replay = none ∨ c'.replay = c.replay ∧ answer = .never := by
  cases h with
  | silent => exact .inr ⟨rfl, rfl⟩
  | busy hbusy => exact .inr ⟨rfl, rfl⟩
  | answers hfinished hverdict => exact .inl rfl
  | unwinds message => exact .inl rfl

theorem Steady.concludes (h : c.Steady) {replay : ReplayState} {response answer : Response}
    (hconcludes : c.Concludes replay response c' answer) : c'.Steady := by
  rcases hconcludes.replay_cases with hnone | ⟨hreplay, -⟩
  · exact steady_of_replay hnone
  · exact h.congr hconcludes.main_eq hreplay

end

end Contest

/-! ## Broadcasts -/

section

variable {c c' : Contest} {lanes : List Sending} {choice : Choice}
  {going : Option (Nat × List Choice)} {report : Option (Nat × Report)} {gives : List Reply}
  {ends : Option Ending}

open Contest (hears_of_receive hears_of_closeSlot sameTasks_of_receive sameTasks_of_closeSlot
  concludes_of_conclude)

/-- **A broadcast gives its response with the decision of its race.** -/
theorem Moves.gives_once (h : Moves c lanes choice going report gives ends c') :
    gives.length + c'.race.undecided.toNat ≤ c.race.undecided.toNat := by
  have hsame {c' : Contest} (hrace : c'.race = c.race) :
      ([] : List Reply).length + c'.race.undecided.toNat ≤ c.race.undecided.toNat := by
    exact Nat.le_of_eq (by rw [hrace, List.length_nil, Nat.zero_add])
  cases h with
  | mainRests h => exact hsame rfl
  | laneRests h => exact hsame rfl
  | ignores hreplay => exact hsame rfl
  | main h => exact hsame rfl
  | runs hfree hlane hdelivered hending => exact hsame rfl
  | panics hfree hlane hsignal => exact hsame rfl
  | closes hmain hown hlt hphase hclosed =>
    rw [Contest.race_mainTold]
    exact (hears_of_closeSlot hclosed).spends.length_le
  | delivers hfree hlane hsignal hreceived => exact (hears_of_receive hreceived).spends.length_le
  | returns hfree hlane hsignal hclosed =>
    rw [Contest.race_laneTold]
    exact (hears_of_closeSlot hclosed).spends.length_le
  | answersMain hreplay hconcluded =>
    exact hsame ((Contest.race_mainTold _ _).trans (concludes_of_conclude hconcluded).race_eq)
  | answersReplay hreplay hconcluded hphase =>
    exact hsame ((Contest.race_laneTold _ _ _).trans (concludes_of_conclude hconcluded).race_eq)
  | answersLane hreplay hconcluded hphase =>
    exact hsame (concludes_of_conclude hconcluded).race_eq

/-- **The main task of a broadcast leaves once.** -/
theorem Moves.ends_once (h : Moves c lanes choice going report gives ends c') (hsteady : c.Steady) :
    c'.Steady ∧ ends.toList.length + c'.mayEnd.toNat ≤ c.mayEnd.toNat := by
  have hsame {c' : Contest} (hmain : c'.main = c.main) :
      (none : Option Ending).toList.length + c'.mayEnd.toNat ≤ c.mayEnd.toNat := by
    refine Nat.le_of_eq ?_
    rw [Contest.mayEnd_congr hmain, Option.toList_none, List.length_nil, Nat.zero_add]
  -- A main task that closes slots is not gone.
  have hclosing {next : Nat} (hmain : c.main = .closing next) (c' : Contest) :
      (none : Option Ending).toList.length + c'.mayEnd.toNat ≤ c.mayEnd.toNat := by
    have hmay : c.mayEnd = true := by rw [Contest.mayEnd, hmain]
    rw [hmay, Option.toList_none, List.length_nil, Nat.zero_add]
    exact Bool.toNat_le _
  cases h with
  | mainRests h => exact ⟨hsteady, hsame rfl⟩
  | laneRests h => exact ⟨hsteady, hsame rfl⟩
  | ignores hreplay => exact ⟨hsteady, hsame rfl⟩
  | runs hfree hlane hdelivered hending => exact ⟨hsteady, hsame rfl⟩
  | panics hfree hlane hsignal => exact ⟨hsteady, hsame rfl⟩
  | main h =>
    have hfree := hsteady.mainGoes h
    exact ⟨fun hown => absurd hown (ne_true_of_eq_false hfree), h.once⟩
  | @closes index message cause closed hmain hown hlt hphase hclosed =>
    refine ⟨?_, hclosing hmain _⟩
    have hspends := (hears_of_closeSlot hclosed).spends
    have hmoved : closed.1.main = .closing (index + 1) := (sameTasks_of_closeSlot hclosed).main_eq
    have hsteady' : closed.1.Steady := fun _ => ⟨index + 1, hmoved⟩
    refine hsteady'.mainTold fun hnil => ?_
    -- The race is decided only if a response is given.
    rw [hnil] at hspends
    cases hspends with
    | keeps hundecided hreplay =>
      rw [Contest.replaysItself, hreplay]
      exact hown
  | delivers hfree hlane hsignal hreceived =>
    have hmain := (sameTasks_of_receive hreceived).main_eq
    exact ⟨hsteady.spendsLane (hears_of_receive hreceived).spends hmain, hsame hmain⟩
  | returns hfree hlane hsignal hclosed =>
    have hmain := (sameTasks_of_closeSlot hclosed).main_eq
    have hspends := (hears_of_closeSlot hclosed).spends
    refine ⟨(hsteady.spendsLane hspends hmain).laneTold _ _, ?_⟩
    rw [Contest.mayEnd_laneTold]
    exact hsame hmain
  | answersMain hreplay hconcluded =>
    obtain ⟨next, hmain⟩ := hsteady (by rw [Contest.replaysItself, hreplay]; rfl)
    refine ⟨?_, hclosing hmain _⟩
    have hconcludes := concludes_of_conclude hconcluded
    rcases hconcludes.replay_cases with hnone | ⟨-, hnever⟩
    · refine (hsteady.concludes hconcludes).mainTold fun _ => ?_
      rw [Contest.replaysItself, hnone]
      rfl
    · rw [hnever]
      exact hsteady.concludes hconcludes
  | answersReplay hreplay hconcluded hphase =>
    have hconcludes := concludes_of_conclude hconcluded
    refine ⟨(hsteady.concludes hconcludes).laneTold _ _, ?_⟩
    rw [Contest.mayEnd_laneTold]
    exact hsame hconcludes.main_eq
  | answersLane hreplay hconcluded hphase =>
    have hconcludes := concludes_of_conclude hconcluded
    exact ⟨hsteady.concludes hconcludes, hsame hconcludes.main_eq⟩

end

/-! ## Sendings -/

/-- The end of a main task as it passes through a wrapper. -/
def Wrapper.ending (w : Wrapper) : Ending → Ending
  | .returned result => .returned (w.inward result).2
  | ending => ending

namespace Sending

/-- Whether the connection may still be given a response. -/
def owes : Sending → Bool
  | .note _ next => next.owes
  | .pause _ next => next.owes
  | .deliver _ => true
  | .wrapped _ inner => inner.owes
  | .detached _ _ inner => inner.owes
  | .broadcast c _ => c.race.undecided
  | _ => false

/-- Whether the main task may still come to its end. -/
def mayEnd : Sending → Bool
  | .ended => false
  | .wrapped _ inner => inner.mayEnd
  | .detached _ started _ => !started
  | .broadcast c _ => c.mayEnd
  | _ => true

/-- **A sending whose main task can come to one end only.** -/
def Steady : Sending → Prop
  | .note _ next => next.Steady
  | .pause _ next => next.Steady
  | .wrapped _ inner => inner.Steady
  | .broadcast c _ => c.Steady
  | _ => True

section

variable (w : Wrapper) (s : Sending) (choice : Choice)

theorem gives_wrapped :
    (wrapped w s).gives choice = (s.gives choice).map fun reply => (w.outward reply).2 := by
  cases choice with
  | answer response => rfl
  | task path =>
    rw [gives, gives, step, wrappedTurn]
    cases (s.step path).signal <;> rfl

theorem ends?_wrapped : (wrapped w s).ends? choice = (s.ends? choice).map w.ending := by
  cases choice with
  | answer response => rfl
  | task path =>
    rw [ends?, ends?, step, wrappedTurn]
    cases (s.step path).signal <;> rfl

end

theorem deliveredBy_detachedTurn (name : String) (own : Bool) (t : Turn) :
    Run.deliveredBy (detachedTurn name own t).signal = Run.deliveredBy t.signal := by
  unfold detachedTurn
  cases t.signal with
  | returned result => cases own <;> rfl
  | _ => rfl

theorem next_detachedTurn (name : String) (own : Bool) (t : Turn) :
    (detachedTurn name own t).next = .detached name true t.next := by
  unfold detachedTurn
  cases t.signal with
  | returned result => cases own <;> rfl
  | _ => rfl

/-- **A choice by which the connection is given a response** takes that response from what is owed
to it, and no choice adds to that. -/
theorem gives_once (s : Sending) (choice : Choice) :
    (s.gives choice).length + (s.after choice).owes.toNat ≤ s.owes.toNat := by
  match s with
  | .note n next =>
    rcases choice with (_ | ⟨index, path⟩) | response <;> exact Nat.le_of_eq (Nat.zero_add _)
  | .pause p next =>
    rcases choice with (_ | ⟨index, path⟩) | response <;> exact Nat.le_of_eq (Nat.zero_add _)
  | .wrapped w inner =>
    have hinner := gives_once inner choice
    rw [gives_wrapped, List.length_map, after_wrapped]
    exact hinner
  | .detached name started inner =>
    rcases choice with (_ | ⟨index, path⟩) | response
    · cases started <;> exact Nat.le_of_eq (Nat.zero_add _)
    · cases started with
      | false => exact Nat.le_of_eq (Nat.zero_add _)
      | true =>
        have hinner := gives_once inner (.task path)
        rw [gives, after] at hinner ⊢
        rw [step, if_pos rfl, deliveredBy_detachedTurn, next_detachedTurn]
        exact hinner
    · exact gives_once inner (.answer response)
  | .broadcast c lanes =>
    obtain ⟨c', hnext, hmoves⟩ := moves_after c lanes choice
    rw [hnext]
    exact hmoves.gives_once
  | .ended => rcases choice with (_ | ⟨index, path⟩) | response <;> exact Nat.le_refl _
  | .stalled => rcases choice with (_ | ⟨index, path⟩) | response <;> exact Nat.le_refl _
  | .returns _ => rcases choice with (_ | ⟨index, path⟩) | response <;> exact Nat.le_refl _
  | .panics _ => rcases choice with (_ | ⟨index, path⟩) | response <;> exact Nat.le_refl _
  | .deliver _ => rcases choice with (_ | ⟨index, path⟩) | response <;> exact Nat.le_refl _
  | .delivered =>
    rcases choice with (_ | ⟨index, path⟩) | (_ | _ | _) <;> exact Nat.le_refl _

/-- **A choice by which the main task comes to its end** is the last one that does so. -/
theorem ends_once {s : Sending} (h : s.Steady) (choice : Choice) :
    (s.after choice).Steady ∧
      (s.ends? choice).toList.length + (s.after choice).mayEnd.toNat ≤ s.mayEnd.toNat := by
  match s with
  | .note n next =>
    rcases choice with (_ | ⟨index, path⟩) | response
    · exact ⟨h, Nat.add_le_add_left (Bool.toNat_le _) 0⟩
    · exact ⟨h, Nat.le_refl _⟩
    · exact ⟨h, Nat.le_refl _⟩
  | .pause p next =>
    rcases choice with (_ | ⟨index, path⟩) | response
    · exact ⟨h, Nat.add_le_add_left (Bool.toNat_le _) 0⟩
    · exact ⟨h, Nat.le_refl _⟩
    · exact ⟨h, Nat.le_refl _⟩
  | .wrapped w inner =>
    have hinner := ends_once (s := inner) h choice
    rw [ends?_wrapped, after_wrapped]
    cases hends : inner.ends? choice with
    | none => rw [hends] at hinner; exact hinner
    | some ending => rw [hends] at hinner; exact hinner
  | .detached name started inner =>
    rcases choice with (_ | ⟨index, path⟩) | response
    · cases started <;> exact ⟨trivial, Nat.le_refl _⟩
    · cases started with
      | false => exact ⟨trivial, Nat.le_refl _⟩
      | true =>
        rw [ends?, after, endingBy_step_cons, step, if_pos rfl, next_detachedTurn]
        exact ⟨trivial, Nat.le_refl _⟩
    · exact ⟨trivial, Nat.le_of_eq (Nat.zero_add _)⟩
  | .broadcast c lanes =>
    obtain ⟨c', hnext, hmoves⟩ := moves_after c lanes choice
    rw [hnext]
    exact hmoves.ends_once h
  | .ended =>
    rcases choice with (_ | ⟨index, path⟩) | response <;> exact ⟨trivial, Nat.le_refl _⟩
  | .stalled =>
    rcases choice with (_ | ⟨index, path⟩) | response <;> exact ⟨trivial, Nat.le_refl _⟩
  | .returns _ =>
    rcases choice with (_ | ⟨index, path⟩) | response <;> exact ⟨trivial, Nat.le_refl _⟩
  | .panics _ =>
    rcases choice with (_ | ⟨index, path⟩) | response <;> exact ⟨trivial, Nat.le_refl _⟩
  | .deliver _ =>
    rcases choice with (_ | ⟨index, path⟩) | response <;> exact ⟨trivial, Nat.le_refl _⟩
  | .delivered =>
    rcases choice with (_ | ⟨index, path⟩) | (_ | _ | _) <;> exact ⟨trivial, Nat.le_refl _⟩

/-! ## Runs -/

/-- The ends of the main task that are seen while a sending makes choices. -/
def endsIn : Sending → List Choice → List Ending
  | _, [] => []
  | s, choice :: rest => (s.ends? choice).toList ++ (s.after choice).endsIn rest

end Sending

/-- **A run gives its connection at most one response.** -/
theorem Run.delivered_once (s : Sending) (choices : List Choice) :
    ((start s).choices choices).delivered.length ≤ 1 := by
  -- What is given and what is still owed together never grow.
  have hruns (r : Run) : (r.choices choices).delivered.length ≤
      r.delivered.length + r.sending.owes.toNat := by
    induction choices generalizing r with
    | nil => exact Nat.le_add_right _ _
    | cons choice rest ih =>
      have hrest := ih (r.choose choice)
      have hchoice := r.sending.gives_once choice
      rw [delivered_choose, sending_choose, List.length_append] at hrest
      exact Nat.le_trans hrest (by omega)
  exact Nat.le_trans (hruns (start s)) (Nat.add_le_add_left (Bool.toNat_le _) 0)

namespace Sending

/-- **The main task comes to at most one end.** -/
theorem Steady.endsIn_once {s : Sending} (h : s.Steady) (choices : List Choice) :
    (s.endsIn choices).length ≤ 1 := by
  have hruns {s : Sending} (h : s.Steady) : (s.endsIn choices).length ≤ s.mayEnd.toNat := by
    induction choices generalizing s with
    | nil => exact Nat.zero_le _
    | cons choice rest ih =>
      obtain ⟨hsteady, hchoice⟩ := ends_once h choice
      have hrest := ih hsteady
      rw [endsIn, List.length_append]
      omega
  exact Nat.le_trans (hruns h) (Bool.toNat_le _)

end Sending

/-! ## Responses of handlers -/

/-- A handler gives a sending whose main task can come to one end only. -/
def Responding.Steady (r : Responding) : Prop := ∀ s, r.sending = .ok s → s.Steady

namespace Sending

section

variable {s : Sending}

theorem steady_returns (result : Delivery) : (returns result).Steady := trivial

theorem steady_panics (message : String) : (panics message).Steady := trivial

theorem steady_failed (cause : String) : (failed cause).Steady := trivial

theorem Steady.afterNotes (h : s.Steady) (notes : List Note) : (afterNotes notes s).Steady := by
  induction notes with
  | nil => exact h
  | cons note rest ih => exact ih

theorem Steady.afterSleep (h : s.Steady) (ms : Nat) : (afterSleep ms s).Steady := by
  unfold Sending.afterSleep
  split
  · exact h
  · exact h

theorem steady_afterWork {α : Type} {f : α → Sending} (h : ∀ a, (f a).Steady) (work : Work α) :
    (afterWork work f).Steady := by
  induction work with
  | done a => exact h a
  | panics message => trivial
  | stalled => trivial
  | note n next ih => exact ih
  | pause p next ih => exact ih

/-- The race of a broadcast that begins is not replayed. -/
theorem steady_ofLineup (policy : Policy) (slots : Nat) (lineup : Lineup) :
    (ofLineup policy slots lineup).Steady := by
  refine Steady.afterNotes ?_ lineup.notes
  cases Race.ofSlots? slots with
  | error message => trivial
  | ok race => exact Contest.steady_of_replay rfl

end

end Sending

namespace Responding

section

variable {r : Responding}

theorem steady_quiet {s : Sending} (h : s.Steady) : (quiet s).Steady := by
  rintro _ ⟨⟩
  exact h

theorem Steady.after (h : r.Steady) (notes : List Note) : (r.after notes).Steady := h

theorem Steady.map (h : r.Steady) {f : Sending → Sending} (hf : ∀ s, s.Steady → (f s).Steady) :
    (r.map f).Steady := by
  obtain ⟨notes, sending⟩ := r
  cases sending with
  | error message => rintro _ ⟨⟩
  | ok s =>
    rintro _ ⟨⟩
    exact hf s (h s rfl)

theorem Steady.inline (h : r.Steady) : r.inline.Steady := by
  obtain ⟨notes, sending⟩ := r
  cases sending with
  | error message => exact (Sending.steady_panics message).afterNotes notes
  | ok s => exact Sending.Steady.afterNotes (h s rfl) notes

end

end Responding

namespace Handler

open Responding (steady_quiet)

mutual

/-- **The response of a handler comes to one end only.** -/
theorem respond_steady (handler : Handler) (head : RequestHead) (body : Body) :
    (handler.respond head body).Steady := by
  match handler with
  | .fixed reply => exact steady_quiet trivial
  | .function run =>
    refine steady_quiet (Sending.steady_afterWork (fun result => ?_) _)
    cases result <;> trivial
  | .awaited key ms handler => exact steady_quiet (handler.respond_steady head body).inline
  | .awaitedFailure key ms cause => exact steady_quiet trivial
  | .deferred ms handler =>
    rintro _ ⟨⟩
    exact (handler.respond_steady head body).inline.afterSleep ms
  | .deferredFailure ms cause =>
    rintro _ ⟨⟩
    exact (Sending.steady_failed cause).afterSleep ms
  | .route filter handler otherwise =>
    rw [respond]
    split
    · exact handler.respond_steady head body
    · exact otherwise.respond_steady head body
  | .unrouted => rintro _ ⟨⟩; trivial
  | .wrapped wrapping handler =>
    have hwrapped : ∀ s : Sending, s.Steady →
        (Sending.wrapped (wrapping.wrapper head) s).Steady := fun _ hs => hs
    exact ((handler.respond_steady head body).map hwrapped).after _
  | .group backends primary policy =>
    rw [respond]
    split
    · rintro _ ⟨⟩; trivial
    · split
      · refine steady_quiet (Sending.steady_afterWork (fun result => ?_) _)
        cases result with
        | error e => trivial
        | ok content => exact Sending.steady_ofLineup policy _ _
      · exact (respondNth_steady backends primary head body).after _
  | .labelled label handler => exact (handler.respond_steady head body).after _
  | .silent ms result => exact steady_quiet ((Sending.steady_returns result).afterSleep ms)
  | .failing handler error =>
    have hwrapped : ∀ s : Sending, s.Steady →
        (Sending.wrapped (.failing error) s).Steady := fun _ hs => hs
    exact (handler.respond_steady head body).map hwrapped
  | .detached name ms handler =>
    exact (handler.respond_steady head body).map fun _ _ => trivial
  | .panicsWhenAsked message => rintro _ ⟨⟩
  | .panicsWhenSent ms message => exact steady_quiet ((Sending.steady_panics message).afterSleep ms)

theorem respondNth_steady (backends : List Handler) (index : Nat) (head : RequestHead)
    (body : Body) : (respondNth backends index head body).Steady := by
  match backends, index with
  | [], index => rintro _ ⟨⟩
  | backend :: _, 0 => exact backend.respond_steady head body
  | _ :: rest, index + 1 => exact respondNth_steady rest index head body

end

end Handler

end Switchboard
