import Switchboard.Proofs.Race.Ledger
set_option autoImplicit false

/-! # An account of the responses of a race

The slots of a race may report in any order, in time or late, and while the chosen response is still
being replayed. `Accounts` says of every such run what has become of the responses: each is used
once, for the replay or to be cancelled, and the outcome is sent when the losers are cancelled.

The responses are the `Captured` ones of an `Aggregator`, on the board that stands for it. -/

namespace Switchboard

namespace Board

open Deed (consumedIn latesIn courseOf course hearing)
open Race (responsesOf)

/-! ## The reports of a run -/

/-- The reports among actions. Nobody reports any more after the board was closed. -/
def reportsIn : List BoardAction → List (Nat × Report)
  | [] => []
  | .report index result :: rest => (index, result) :: reportsIn rest
  | .close :: _ => []
  | _ :: rest => reportsIn rest

theorem inUse_report (board : Board) (number index : Nat) (result : Report) :
    (board.report number index result).board.inUse = board.inUse := by
  rw [report]
  rcases board.race.report board.policy index result with ⟨race, entries, ruling⟩
  cases ruling with
  | late response =>
    dsimp only
    split <;> rfl
  | _ => rfl

/-- Only closing a board ends its use. -/
theorem inUse_perform (board : Board) (action : BoardAction) :
    (board.perform action).board.inUse =
      match action with
      | .close => false
      | _ => board.inUse := by
  refine (advances_advance _).inUse_eq.trans ?_
  cases action with
  | report index result =>
    rw [act]
    split
    · exact inUse_report ..
    · rfl
  | askOutcome =>
    rw [act, quietTurn, askOutcome]
    split
    · rfl
    · rfl
    · split <;> rfl
  | look =>
    rw [act, quietTurn, look]
    split
    · rfl
    · split <;> rfl
  | _ => rfl

theorem heardIn_eq (board : Board) (actions : List BoardAction) :
    board.heardIn actions = if board.inUse then reportsIn actions else [] := by
  induction actions generalizing board with
  | nil => exact (ite_self _).symm
  | cons action rest ih =>
    rw [heardIn, ih, inUse_perform]
    cases hinUse : board.inUse <;> cases action <;> simp [heard, reportsIn, hinUse]

theorem heardIn_append (board : Board) (before after : List BoardAction) :
    board.heardIn (before ++ after) =
      board.heardIn before ++ (board.run before).1.heardIn after := by
  induction before generalizing board with
  | nil => rfl
  | cons action rest ih => rw [List.cons_append, heardIn, heardIn, ih, List.append_assoc]; rfl

/-! ## One action of a run -/

section

variable {count : Nat} {kind : ClientKind} {reports : List (Nat × Report)}
  {deeds deeds' : List Deed} {ended : List (Nat × ReportEnd)} {board : Board} {turn : BoardTurn}
  {action : BoardAction}

theorem Ledger.empty_of_heard (h : Ledger count kind reports deeds ended board)
    (hfresh : Fresh count reports (board.heard action))
    {index : Nat} {result : Report} (haction : action = .report index result)
    (hinUse : board.inUse = true) : board.race.slots[index]? = some .empty := by
  subst haction
  refine (h.vacant index).mpr (hfresh (index, result) ?_)
  rw [heard, if_pos hinUse]
  exact List.mem_cons_self

/-- A response that is reported in time is not cancelled for being late, and one that is reported
after the decision is cancelled by its own report. -/
theorem Ledger.latesIn_deeds (h : Ledger count kind reports deeds ended board)
    (hfresh : Fresh count reports (board.heard action)) :
    latesIn (board.deeds action) =
      if board.race.undecided then [] else responsesOf (board.heard action) := by
  rw [Board.deeds, Deed.latesIn_append, (advances_advance _).latesIn_eq, List.append_nil]
  rcases board.heard_cases action with hnone | ⟨index, result, haction, hinUse⟩
  · rw [deedsOfAct_of_unheard hnone, hnone]
    exact (ite_self _).symm
  · have hempty := h.empty_of_heard hfresh haction hinUse
    subst haction
    rw [deedsOfAct, heard, if_pos hinUse, if_pos hinUse]
    cases hundecided : board.race.undecided with
    | false =>
      rw [deedsOfReport_of_late hempty hundecided]
      cases result <;> rfl
    | true =>
      rw [deedsOfReport, Race.report_of_undecided hempty hundecided]
      have hrulings := Race.rulings_rule board.policy
        (board.race.slots.set index (Race.slotOf result))
      generalize Race.rule board.policy _ = ruled at hrulings ⊢
      cases hrulings <;> rfl

theorem Advances.replays_notMem (h : Advances board deeds' turn)
    (winner : Option (Nat × HeldReply)) : .replays winner ∉ deeds' := by
  cases h <;> simp

/-- A connection that is given a response has not been touched before. -/
theorem Ledger.connection_of_replays (h : Ledger count kind reports deeds ended board)
    (hfresh : Fresh count reports (board.heard action))
    {winner : Option (Nat × HeldReply)} (hreplays : .replays winner ∈ board.deeds action) :
    board.connection = Connection.ofKind kind := by
  rcases List.mem_append.mp hreplays with hact | hadvance
  · rcases board.heard_cases action with hnone | ⟨index, result, haction, hinUse⟩
    · rw [deedsOfAct_of_unheard hnone] at hact
      cases hact
    · have hempty := h.empty_of_heard hfresh haction hinUse
      subst haction
      cases h.stands with
      | undecided hundecided hreplay hheld hdeeds hconnection hopen => exact hconnection hinUse
      | decided hparted hproceeds =>
        rw [deedsOfAct, if_pos hinUse, deedsOfReport_of_late hempty hparted.decided] at hact
        cases result <;> simp [Race.responseOf?, Ruling.deeds] at hact
  · exact absurd hadvance ((advances_advance _).replays_notMem winner)

end

/-! ## Whole runs -/

/-- Every report was driven to completion: it has ended, and not in a panic. -/
structure Completed (run : Board × List BoardTurn) : Prop where
  running_eq : run.1.running = 0
  unharmed : ¬ Harmed (run.2.flatMap (·.ended))

theorem Completed.replay_eq {run : Board × List BoardTurn} (h : Completed run) :
    run.1.replay = none := by
  have hrunning := h.running_eq
  rw [running, Nat.add_eq_zero_iff, List.length_eq_zero_iff] at hrunning
  exact Option.toList_eq_nil_iff.mp hrunning.1

/-- **An account of the responses that are reported in a run.** -/
structure Accounts (count : Nat) (kind : ClientKind) (board : Board) (actions : List BoardAction) :
    Prop where
  /-- What is done at any moment are the deeds of that moment. -/
  carried : ∀ before action after, actions = before ++ action :: after →
    (board.run before).1.CarriesOut action
  /-- A connection that is given a response is as new. -/
  whole : ∀ before action after winner, actions = before ++ action :: after →
    .replays winner ∈ (board.run before).1.deeds action →
    (board.run before).1.connection = Connection.ofKind kind
  /-- What is reported after the decision is cancelled within its own report. -/
  late : ∀ before action after, actions = before ++ action :: after →
    latesIn ((board.run before).1.deeds action) =
      if (board.run before).1.race.undecided then []
      else responsesOf ((board.run before).1.heard action)
  /-- What is consumed was reported, and nothing is consumed twice. -/
  consumed : (∃ kept, (consumedIn (board.deedsIn actions).flatten ++ kept).Perm
      (responsesOf (reportsIn actions))) ∧
    ((consumedIn (board.deedsIn actions).flatten).map Prod.fst).Nodup
  /-- Before the decision every response is held as it was reported, and nothing else is done. -/
  undecided : (board.run actions).1.race.undecided = true →
    (board.deedsIn actions).flatten = hearing (reportsIn actions) ∧
    ∀ index response, (index, response) ∈ responsesOf (reportsIn actions) →
      (board.run actions).1.race.slots[index]? = some (.holds response)
  /-- After the decision there is one replay, then the losers are cancelled in the order of their
  slots, and then the outcome is sent. It comes to that when all reports are driven to completion,
  and then every response is consumed. -/
  decided : (board.run actions).1.race.undecided = false → ∃ winner losers,
    Parted (reportsIn actions) (board.deedsIn actions).flatten (board.run actions).1.race
      winner losers ∧
    (∃ result awaited, courseOf (board.deedsIn actions).flatten <+:
      course winner losers result awaited) ∧
    (Completed (board.run actions) →
      (consumedIn (board.deedsIn actions).flatten).Perm (responsesOf (reportsIn actions)) ∧
      ∃ result awaited, courseOf (board.deedsIn actions).flatten =
          course winner losers result awaited ∧
        (board.run actions).1.connection.state = .answered result ∧
        ((board.run actions).1.outcome = .announced result ∨
          (board.run actions).1.outcome = .taken))
  /-- When all slots have reported, there is a decision. -/
  settled : Completed (board.run actions) →
    (∀ index < count, index ∈ (reportsIn actions).map Prod.fst) →
    (board.run actions).1.race.undecided = false

section

variable {count : Nat} {policy : Policy} {kind : ClientKind} {board : Board}
  {actions : List BoardAction}

theorem inUse_ofSlots? (h : ofSlots? count policy kind = .ok board) : board.inUse = true := by
  rw [ofSlots?] at h
  split at h <;> cases h
  rfl

/-- What a board knows at a moment of a run, and that what is reported then is new to it. -/
theorem ledger_at (hboard : ofSlots? count policy kind = .ok board)
    (hdistinct : ((reportsIn actions).map Prod.fst).Nodup)
    (hrange : ∀ report ∈ reportsIn actions, report.1 < count) {before after : List BoardAction}
    {action : BoardAction} (hactions : actions = before ++ action :: after) :
    Ledger count kind (board.heardIn before) (board.deedsIn before).flatten
        ((board.run before).2.flatMap (·.ended)) (board.run before).1 ∧
      Fresh count (board.heardIn before) ((board.run before).1.heard action) := by
  have hreports : reportsIn actions = board.heardIn before ++
      ((board.run before).1.heard action ++
        ((board.run before).1.perform action).board.heardIn after) := by
    have hheard := board.heardIn_eq actions
    rw [if_pos (inUse_ofSlots? hboard), hactions, heardIn_append, heardIn] at hheard
    rw [hactions, hheard]
  rw [hreports] at hdistinct hrange
  rw [List.map_append, List.map_append] at hdistinct
  obtain ⟨hbefore, -, hdisjoint⟩ := List.nodup_append.mp hdistinct
  have hledger : Ledger count kind (board.heardIn before) (board.deedsIn before).flatten
      ((board.run before).2.flatMap (·.ended)) (board.run before).1 :=
    (ledger_ofSlots? hboard).run hbefore fun report hreport =>
      hrange report (List.mem_append_left _ hreport)
  refine ⟨hledger, fun report hreport => ⟨?_, fun hmem => ?_⟩⟩
  · exact hrange report (List.mem_append_right _ (List.mem_append_left _ hreport))
  · exact hdisjoint _ hmem _ (List.mem_append_left _ (List.mem_map_of_mem hreport)) rfl

/-- **No response is lost, and none is used twice**, whatever the policy and the order of the
reports: each is replayed or cancelled, once. -/
theorem accounts_run (hboard : ofSlots? count policy kind = .ok board)
    (hdistinct : ((reportsIn actions).map Prod.fst).Nodup)
    (hrange : ∀ report ∈ reportsIn actions, report.1 < count) :
    Accounts count kind board actions := by
  have hheard : board.heardIn actions = reportsIn actions := by
    rw [heardIn_eq, if_pos (inUse_ofSlots? hboard)]
  have hledger : Ledger count kind (reportsIn actions) (board.deedsIn actions).flatten
      ((board.run actions).2.flatMap (·.ended)) (board.run actions).1 :=
    hheard ▸ (ledger_ofSlots? hboard).run (hheard ▸ hdistinct) (hheard ▸ hrange)
  refine ⟨fun _ action _ _ => carriesOut _ action, fun before action after winner hactions => ?_,
    fun before action after hactions => ?_, ?_, fun hundecided => ?_, fun hdecided => ?_,
    fun hcompleted hall => ?_⟩
  · obtain ⟨hat, hfresh⟩ := ledger_at hboard hdistinct hrange hactions
    exact hat.connection_of_replays hfresh
  · obtain ⟨hat, hfresh⟩ := ledger_at hboard hdistinct hrange hactions
    exact hat.latesIn_deeds hfresh
  · obtain ⟨kept, hkept⟩ := hledger.stands.perm_consumedIn
    refine ⟨⟨kept, hkept⟩, ?_⟩
    have hnodup := (hkept.map Prod.fst).nodup_iff.mpr
      (hdistinct.sublist (Race.responsesOf_sublist _))
    rw [List.map_append] at hnodup
    exact (List.nodup_append.mp hnodup).1
  · cases hledger.stands with
    | undecided _ hreplay hheld hdeeds hconnection hopen =>
      refine ⟨hdeeds, fun index response hresponse => ?_⟩
      obtain ⟨other, hindex, hslot⟩ :=
        Race.getElem?_of_mem_heldFrom (hheld.mem_iff.mpr hresponse)
      obtain rfl : index = other := hindex.trans (Nat.zero_add other)
      exact hslot
    | decided hparted hproceeds => cases hundecided.symm.trans hparted.decided
  · cases hledger.stands with
    | undecided hundecided => cases hundecided.symm.trans hdecided
    | @decided winner losers hparted hproceeds =>
      refine ⟨winner, losers, hparted, hproceeds.courseOf_prefix, fun hcompleted => ?_⟩
      cases hproceeds with
      | replaying hreplay => cases hcompleted.replay_eq.symm.trans hreplay
      | stuck hreplay => cases hcompleted.replay_eq.symm.trans hreplay
      | broken hreplay hcourse hharmed => exact absurd hharmed hcompleted.unharmed
      | @concluded result awaited hreplay hcourse hstate houtcome =>
        have hperm := hparted.perm_consumedIn ((List.append_nil _).trans hcourse)
        rw [show consumedIn [] = [] from rfl, List.append_nil] at hperm
        exact ⟨hperm, result, awaited, hcourse, hstate, houtcome⟩
  · cases hledger.stands with
    | decided hparted hproceeds => exact hparted.decided
    | undecided hundecided hreplay hheld hdeeds hconnection hopen =>
      rcases hopen with hopen | hharmed
      · obtain ⟨index, hempty⟩ := List.mem_iff_getElem?.mp (Race.empty_mem_of_open hopen)
        obtain ⟨hlt, hnot⟩ := (hledger.vacant index).mp hempty
        exact absurd (hall index hlt) hnot
      · exact absurd hharmed hcompleted.unharmed

/-- The loser is cancelled when the gate is opened on which the replay waits, and the response that
was reported meanwhile has been cancelled before. -/
theorem accounts_run_gated : ∃ (board : Board) (actions : List BoardAction),
    actions = [.report 1 (.ok (Reply.octets [1])), .report 0 (.ok Reply.notFound),
      .report 2 (.ok (Reply.octets [2])), .openGate "g"] ∧
    ofSlots? 3 Policy.successOrRedirect (.gated "g") = .ok board ∧
    ((reportsIn actions).map Prod.fst).Nodup ∧ (∀ report ∈ reportsIn actions, report.1 < 3) ∧
    Accounts 3 (.gated "g") board actions ∧ Completed (board.run actions) ∧
    consumedIn (board.deedsIn actions).flatten =
      [(1, Reply.octets [1]), (2, Reply.octets [2]), (0, Reply.notFound)] := by
  refine ⟨_, _, rfl, rfl, ?_, ?_, accounts_run rfl ?_ ?_, ⟨rfl, ?_⟩, rfl⟩
  · decide
  · simp [reportsIn]
  · decide
  · simp [reportsIn]
  · rintro ⟨number, message, hmem⟩
    have hended : (number, ReportEnd.panicked message) ∈
        [(0, ReportEnd.done), (2, ReportEnd.done), (1, ReportEnd.done)] := hmem
    simp at hended

end

end Board

end Switchboard
