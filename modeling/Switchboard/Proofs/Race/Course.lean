import Switchboard.Proofs.Race.Deeds
import Switchboard.Proofs.Race.Held
set_option autoImplicit false

/-! # The course of a decision

A decision calls for a replay, then for the cancelling of its losers, and at last for sending the
outcome (`Deed.course`). It takes its time, as the connection may keep the report waiting, and
responses may be reported late meanwhile. `Board.Proceeds` says how far a board is, and
`Proceeds.advance` that it goes on in this order.

It is the course of the report that resolves an `Aggregator`. -/

namespace Switchboard

/-! ## Reading deeds -/

namespace Deed

/-- The response that a deed consumes. -/
def consumed? : Deed → Option (Nat × HeldReply)
  | .replays winner => winner
  | .cancels loser => some loser
  | .cancelsLate late => some late
  | _ => none

/-- The response that a deed cancels because it came late. -/
def late? : Deed → Option (Nat × HeldReply)
  | .cancelsLate late => some late
  | _ => none

/-- Whether a deed is one of those that the decision calls for. -/
def isCalledFor : Deed → Bool
  | .replays _ => true
  | .answers _ => true
  | .cancels _ => true
  | .sends _ _ => true
  | _ => false

/-- The responses that deeds consume. -/
def consumedIn (deeds : List Deed) : List (Nat × HeldReply) := deeds.filterMap consumed?

/-- The responses that are cancelled because they came late. -/
def latesIn (deeds : List Deed) : List (Nat × HeldReply) := deeds.filterMap late?

/-- The deeds that the decision calls for. -/
def courseOf (deeds : List Deed) : List Deed := deeds.filter isCalledFor

/-- All that a decision calls for: the replay, then the losers in their order, whatever the
connection has answered, and at last the outcome, which is that answer. -/
def course (winner : Option (Nat × HeldReply)) (losers : List (Nat × HeldReply))
    (result : Delivery) (awaited : Bool) : List Deed :=
  .replays winner :: .answers result :: (losers.map .cancels ++ [.sends result awaited])

/-- All that is done before the decision: each report is taken note of. -/
def hearing (reports : List (Nat × Report)) : List Deed :=
  reports.map fun report => .hears (Race.reportEntry report.1 report.2)

section

variable (deeds more : List Deed)

theorem consumedIn_append :
    consumedIn (deeds ++ more) = consumedIn deeds ++ consumedIn more := List.filterMap_append

theorem latesIn_append : latesIn (deeds ++ more) = latesIn deeds ++ latesIn more :=
  List.filterMap_append

theorem courseOf_append : courseOf (deeds ++ more) = courseOf deeds ++ courseOf more :=
  List.filter_append ..

/-- A response is consumed as the decision calls for it, or because it came late. -/
theorem perm_consumedIn :
    (consumedIn (courseOf deeds) ++ latesIn deeds).Perm (consumedIn deeds) := by
  induction deeds with
  | nil => exact .nil
  | cons deed rest ih =>
    cases deed with
    | replays winner =>
      cases winner with
      | none => exact ih
      | some winner => exact ih.cons winner
    | cancels loser => exact ih.cons loser
    | cancelsLate late => exact List.perm_middle.trans (ih.cons late)
    | hears entry => exact ih
    | takes notes => exact ih
    | answers result => exact ih
    | sends result awaited => exact ih

end

section

variable (losers : List (Nat × HeldReply))

theorem consumedIn_cancels : consumedIn (losers.map .cancels) = losers := by
  simp [consumedIn, Function.comp_def, consumed?]

theorem latesIn_cancels : latesIn (losers.map .cancels) = [] := by
  simp [latesIn, late?]

theorem courseOf_cancels : courseOf (losers.map .cancels) = losers.map .cancels := by
  refine List.filter_eq_self.mpr fun deed hdeed => ?_
  obtain ⟨loser, -, rfl⟩ := List.mem_map.mp hdeed
  rfl

end

section

variable (reports : List (Nat × Report))

theorem consumedIn_hearing : consumedIn (hearing reports) = [] := by
  simp [consumedIn, hearing, consumed?]

theorem latesIn_hearing : latesIn (hearing reports) = [] := by
  simp [latesIn, hearing, late?]

theorem courseOf_hearing : courseOf (hearing reports) = [] := by
  refine List.filter_eq_nil_iff.mpr fun deed hdeed => ?_
  obtain ⟨report, -, rfl⟩ := List.mem_map.mp hdeed
  exact Bool.false_ne_true

end

theorem consumedIn_course (winner : Option (Nat × HeldReply)) (losers : List (Nat × HeldReply))
    (result : Delivery) (awaited : Bool) :
    consumedIn (course winner losers result awaited) = winner.toList ++ losers := by
  have hrest : consumedIn (losers.map .cancels ++ [.sends result awaited]) = losers := by
    rw [consumedIn_append, consumedIn_cancels]
    exact List.append_nil _
  cases winner with
  | none => exact hrest
  | some winner => exact congrArg (winner :: ·) hrest

end Deed

namespace Board

open Deed (consumedIn latesIn courseOf course)
open Race (responsesOf)

/-! ## After the decision -/

/-- A report has ended in a panic. -/
def Harmed (ended : List (Nat × ReportEnd)) : Prop :=
  ∃ number message, (number, .panicked message) ∈ ended

/-- What was held at the decision, and what came after it. -/
structure Parted (reports : List (Nat × Report)) (deeds : List Deed) (race : Race)
    (winner : Option (Nat × HeldReply)) (losers : List (Nat × HeldReply)) : Prop where
  decided : race.undecided = false
  emptied : Race.heldFrom 0 race.slots = []
  ordered : losers.Pairwise (·.1 < ·.1)
  parts : ∃ early late, reports = early ++ late ∧
    (winner.toList ++ losers).Perm (responsesOf early) ∧ latesIn deeds = responsesOf late

/-- How far a board is with what the decision calls for. -/
inductive Proceeds (deeds : List Deed) (ended : List (Nat × ReportEnd)) (board : Board)
    (winner : Option (Nat × HeldReply)) (losers : List (Nat × HeldReply)) : Prop where
  | replaying {number : Nat} (hreplay : board.replay = some ⟨number, losers, false⟩)
      (hcourse : courseOf deeds = [.replays winner])
  /-- A loser keeps the report busy for ever. -/
  | stuck {replay : Replay} {begun : List (Nat × HeldReply)} {result : Delivery}
      (hreplay : board.replay = some replay) (hbusy : replay.busy = true)
      (hbegun : begun <+: losers)
      (hcourse : courseOf deeds = .replays winner :: .answers result :: begun.map .cancels)
  | concluded {result : Delivery} {awaited : Bool} (hreplay : board.replay = none)
      (hcourse : courseOf deeds = course winner losers result awaited)
      (hstate : board.connection.state = .answered result)
      (houtcome : board.outcome = .announced result ∨ board.outcome = .taken)
  /-- The connection has panicked. -/
  | broken (hreplay : board.replay = none) (hcourse : courseOf deeds = [.replays winner])
      (hharmed : Harmed ended)

section

variable {reports : List (Nat × Report)} {deeds deeds' : List Deed}
  {ended ended' : List (Nat × ReportEnd)} {board board' : Board} {turn : BoardTurn}
  {race : Race} {winner : Option (Nat × HeldReply)} {losers : List (Nat × HeldReply)}

theorem Harmed.mono (h : Harmed ended) (hended : ended ⊆ ended') : Harmed ended' := by
  obtain ⟨number, message, hmem⟩ := h
  exact ⟨number, message, hended hmem⟩

theorem Proceeds.frame (h : Proceeds deeds ended board winner losers)
    (hreplay : board'.replay = board.replay) (hconnection : board'.connection = board.connection)
    (houtcome : ∀ result, board.outcome = .announced result ∨ board.outcome = .taken →
      board'.outcome = .announced result ∨ board'.outcome = .taken)
    (hcourse : courseOf deeds' = []) (hended : ended ⊆ ended') :
    Proceeds (deeds ++ deeds') ended' board' winner losers := by
  have hsame : courseOf (deeds ++ deeds') = courseOf deeds := by
    rw [Deed.courseOf_append, hcourse, List.append_nil]
  cases h with
  | replaying hreplay' hcourse' => exact .replaying (hreplay.trans hreplay') (hsame.trans hcourse')
  | stuck hreplay' hbusy hbegun hcourse' =>
    exact .stuck (hreplay.trans hreplay') hbusy hbegun (hsame.trans hcourse')
  | concluded hreplay' hcourse' hstate houtcome' =>
    exact .concluded (hreplay.trans hreplay') (hsame.trans hcourse') (hconnection ▸ hstate)
      (houtcome _ houtcome')
  | broken hreplay' hcourse' hharmed =>
    exact .broken (hreplay.trans hreplay') (hsame.trans hcourse') (hharmed.mono hended)

/-- Nothing goes on when no report is being replayed, or a loser keeps it busy for ever. -/
theorem Advances.of_resting (h : Advances board deeds' turn)
    (hresting : ∀ replay, board.replay = some replay → replay.busy = true) :
    deeds' = [] ∧ turn = board.quietTurn .nothing := by
  cases h with
  | rests hreplay => exact ⟨rfl, rfl⟩
  | goesOn hreplay hbusy => cases (hresting _ hreplay).symm.trans hbusy
  | breaks hreplay hbusy => cases (hresting _ hreplay).symm.trans hbusy
  | stalls hreplay hbusy => cases (hresting _ hreplay).symm.trans hbusy
  | concludes hreplay hbusy => cases (hresting _ hreplay).symm.trans hbusy

theorem Proceeds.rest (h : Proceeds deeds ended board winner losers)
    (hadvances : Advances board deeds' turn)
    (hresting : ∀ replay, board.replay = some replay → replay.busy = true) :
    Proceeds (deeds ++ deeds') (ended ++ turn.ended) turn.board winner losers := by
  obtain ⟨rfl, rfl⟩ := hadvances.of_resting hresting
  exact h.frame rfl rfl (fun _ houtcome => houtcome) rfl (List.subset_append_left ..)

/-- **The replay goes on**, and what the decision calls for is done in its order. -/
theorem Proceeds.advance (h : Proceeds deeds ended board winner losers)
    (hadvances : Advances board deeds' turn) :
    Proceeds (deeds ++ deeds') (ended ++ turn.ended) turn.board winner losers := by
  have hrest := h.rest hadvances
  cases h with
  | stuck hreplay hbusy hbegun hcourse =>
    exact hrest fun _ hsome => Option.some.inj (hreplay.symm.trans hsome) ▸ hbusy
  | concluded hreplay hcourse hstate houtcome =>
    exact hrest fun _ hsome => nomatch hreplay.symm.trans hsome
  | broken hreplay hcourse hharmed =>
    exact hrest fun _ hsome => nomatch hreplay.symm.trans hsome
  | replaying hreplay hcourse =>
    have hcourse' : courseOf (deeds ++ deeds') = .replays winner :: courseOf deeds' := by
      rw [Deed.courseOf_append, hcourse, List.singleton_append]
    cases hadvances with
    | rests hrests => cases hrests _ hreplay
    | goesOn hreplay' hbusy hpoll hanswered hpanicked => exact .replaying hreplay hcourse'
    | breaks hreplay' hbusy hpoll hstate =>
      exact .broken rfl hcourse' ⟨_, _, List.mem_append_right _ List.mem_cons_self⟩
    | @stalls _ _ notes result begun hreplay' hbusy hpoll hstate hlosers =>
      cases hreplay.symm.trans hreplay'
      have hdone : courseOf (.takes notes :: .answers result :: begun.map .cancels) =
          .answers result :: begun.map .cancels :=
        congrArg (Deed.answers result :: ·) (Deed.courseOf_cancels begun)
      exact .stuck rfl rfl hlosers (hcourse'.trans (congrArg _ hdone))
    | @concludes _ _ notes result hreplay' hbusy hpoll hstate =>
      cases hreplay.symm.trans hreplay'
      have hdone : courseOf (.takes notes :: .answers result ::
            (losers.map .cancels ++ [.sends result board.outcome.isAwaited])) =
          .answers result :: (losers.map .cancels ++ [.sends result board.outcome.isAwaited]) := by
        refine congrArg (Deed.answers result :: ·) ((Deed.courseOf_append ..).trans ?_)
        rw [Deed.courseOf_cancels]
        rfl
      exact .concluded rfl (hcourse'.trans (congrArg _ hdone)) hstate
        (board.outcome.afterSending_cases result)

theorem Advances.race_eq (h : Advances board deeds' turn) : turn.board.race = board.race := by
  cases h <;> rfl

theorem Advances.inUse_eq (h : Advances board deeds' turn) : turn.board.inUse = board.inUse := by
  cases h <;> rfl

theorem Advances.latesIn_eq (h : Advances board deeds' turn) : latesIn deeds' = [] := by
  cases h with
  | rests hreplay => rfl
  | goesOn hreplay hbusy hpoll hanswered hpanicked => rfl
  | breaks hreplay hbusy hpoll hstate => rfl
  | @stalls _ _ _ _ begun => exact Deed.latesIn_cancels begun
  | @concludes replay =>
    exact (Deed.latesIn_append ..).trans (congrArg (· ++ _) (Deed.latesIn_cancels replay.losers))

/-! ## Conservation -/

theorem Parted.frame (h : Parted reports deeds race winner losers)
    (hlates : latesIn deeds' = []) : Parted reports (deeds ++ deeds') race winner losers := by
  obtain ⟨early, late, hreports, hparts, hlate⟩ := h.parts
  refine ⟨h.decided, h.emptied, h.ordered, early, late, hreports, hparts, ?_⟩
  rw [Deed.latesIn_append, hlates, List.append_nil, hlate]

/-- A report after the decision: its response is cancelled at once. -/
theorem Parted.late (h : Parted reports deeds race winner losers) {index : Nat}
    (hempty : race.slots[index]? = some .empty) (result : Report) :
    Parted (reports ++ [(index, result)])
      (deeds ++ (Ruling.late (Race.responseOf? result)).deeds index)
      ⟨race.slots.set index .spent, false⟩ winner losers := by
  obtain ⟨early, late, rfl, hparts, hlate⟩ := h.parts
  refine ⟨rfl, (Race.heldFrom_set_spent hempty 0).trans h.emptied, h.ordered, early,
    late ++ [(index, result)], List.append_assoc .., hparts, ?_⟩
  rw [Deed.latesIn_append, hlate, Race.responsesOf_append]
  cases result <;> rfl

/-- What is done of the course of a decision is its beginning. -/
theorem Proceeds.courseOf_prefix (h : Proceeds deeds ended board winner losers) :
    ∃ result awaited, courseOf deeds <+: course winner losers result awaited := by
  have hreplays : [.replays winner] <+: course winner losers (.ok ()) true := ⟨_, rfl⟩
  cases h with
  | replaying hreplay hcourse => exact ⟨_, _, hcourse ▸ hreplays⟩
  | broken hreplay hcourse hharmed => exact ⟨_, _, hcourse ▸ hreplays⟩
  | concluded hreplay hcourse hstate houtcome => exact ⟨_, _, [], by rw [hcourse, List.append_nil]⟩
  | @stuck replay begun result hreplay hbusy hbegun hcourse =>
    refine ⟨result, true, ?_⟩
    rw [hcourse, course, List.prefix_cons_inj, List.prefix_cons_inj]
    exact (hbegun.map Deed.cancels).trans (List.prefix_append ..)

/-- **Nothing is lost**: what was consumed and what the decision still calls for are all the
responses. -/
theorem Parted.perm_consumedIn (h : Parted reports deeds race winner losers) {rest : List Deed}
    {result : Delivery} {awaited : Bool}
    (hcourse : courseOf deeds ++ rest = course winner losers result awaited) :
    (consumedIn deeds ++ consumedIn rest).Perm (responsesOf reports) := by
  obtain ⟨early, late, rfl, hparts, hlates⟩ := h.parts
  have hall : consumedIn (courseOf deeds) ++ consumedIn rest = winner.toList ++ losers := by
    rw [← Deed.consumedIn_append, hcourse, Deed.consumedIn_course]
  calc
    List.Perm (consumedIn deeds ++ consumedIn rest)
        (consumedIn (courseOf deeds) ++ latesIn deeds ++ consumedIn rest) :=
      (Deed.perm_consumedIn deeds).symm.append_right _
    List.Perm _ (consumedIn (courseOf deeds) ++ consumedIn rest ++ latesIn deeds) := by
      rw [List.append_assoc, List.append_assoc]
      exact List.perm_append_comm.append_left _
    List.Perm _ (responsesOf (early ++ late)) := by
      rw [hall, hlates, Race.responsesOf_append]
      exact hparts.append_right _

end

end Board

end Switchboard
