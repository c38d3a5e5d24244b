import Switchboard.Proofs.Race.Course
set_option autoImplicit false

/-! # The ledger of a race

`Board.Stands` says of a board at any moment where the responses are that were reported: before the
decision all of them are held, and after it each is accounted for by the course of the decision or
was cancelled for being late. An action keeps it (`Ledger.perform`), and so does a run
(`Ledger.run`), whatever the order of the reports.

The board stands for an `Aggregator` with any reports under way. -/

namespace Switchboard

namespace Board

open Deed (consumedIn latesIn courseOf hearing)
open Race (responsesOf)

/-! ## Every moment -/

/-- **How a board stands** after these reports and deeds: nothing is decided, and every response is
held as it was reported, or the decision takes its course. -/
inductive Stands (kind : ClientKind) (reports : List (Nat × Report)) (deeds : List Deed)
    (ended : List (Nat × ReportEnd)) (board : Board) : Prop where
  | undecided (hundecided : board.race.undecided = true) (hreplay : board.replay = none)
      (hheld : (Race.heldFrom 0 board.race.slots).Perm (responsesOf reports))
      (hdeeds : deeds = hearing reports)
      (hconnection : board.inUse = true → board.connection = Connection.ofKind kind)
      (hopen : Race.standingFrom board.policy 0 board.race.slots = .open ∨ Harmed ended)
  | decided {winner : Option (Nat × HeldReply)} {losers : List (Nat × HeldReply)}
      (hparted : Parted reports deeds board.race winner losers)
      (hproceeds : Proceeds deeds ended board winner losers)

section

variable {kind : ClientKind} {reports : List (Nat × Report)} {deeds deeds' : List Deed}
  {ended ended' : List (Nat × ReportEnd)} {board board' : Board} {turn : BoardTurn}

theorem Stands.perm_consumedIn (h : Stands kind reports deeds ended board) :
    ∃ kept, (consumedIn deeds ++ kept).Perm (responsesOf reports) := by
  cases h with
  | undecided hundecided hreplay hheld hdeeds hconnection hopen =>
    refine ⟨responsesOf reports, ?_⟩
    rw [hdeeds, Deed.consumedIn_hearing]
    exact .refl _
  | decided hparted hproceeds =>
    obtain ⟨result, awaited, rest, hcourse⟩ := hproceeds.courseOf_prefix
    exact ⟨_, hparted.perm_consumedIn hcourse⟩

theorem Stands.advance (h : Stands kind reports deeds ended board)
    (hadvances : Advances board deeds' turn) :
    Stands kind reports (deeds ++ deeds') (ended ++ turn.ended) turn.board := by
  cases h with
  | undecided hundecided hreplay hheld hdeeds hconnection hopen =>
    obtain ⟨rfl, rfl⟩ := hadvances.of_resting fun _ hsome => nomatch hreplay.symm.trans hsome
    rw [List.append_nil]
    exact .undecided hundecided hreplay hheld hdeeds hconnection
      (hopen.imp_right (·.mono (List.subset_append_left ..)))
  | decided hparted hproceeds =>
    refine .decided ?_ (hproceeds.advance hadvances)
    rw [hadvances.race_eq]
    exact hparted.frame hadvances.latesIn_eq

/-- The deeds of a report after the decision. -/
theorem deedsOfReport_of_late {index : Nat} (hempty : board.race.slots[index]? = some .empty)
    (hdecided : board.race.undecided = false) (result : Report) :
    board.deedsOfReport index result = (Ruling.late (Race.responseOf? result)).deeds index := by
  rw [deedsOfReport, Race.report_of_decided hempty hdecided]
  rfl

/-- A report after the decision leaves the replay and the connection alone. -/
theorem report_of_late {index : Nat} (hempty : board.race.slots[index]? = some .empty)
    (hdecided : board.race.undecided = false) (number : Nat) (result : Report) :
    ∃ busy, (board.report number index result).board =
      { board with race := ⟨board.race.slots.set index .spent, false⟩, busy := busy } := by
  rw [Board.report, Race.report_of_decided hempty hdecided]
  dsimp only
  split
  · exact ⟨_, rfl⟩
  · exact ⟨_, rfl⟩

/-- **A report is taken in**, in time or late. -/
theorem Stands.report (h : Stands kind reports deeds ended board) (number : Nat) {index : Nat}
    (hempty : board.race.slots[index]? = some .empty) (result : Report) :
    Stands kind (reports ++ [(index, result)]) (deeds ++ board.deedsOfReport index result)
      (ended ++ (board.report number index result).ended)
      (board.report number index result).board := by
  cases h with
  | undecided hundecided hreplay hheld hdeeds hconnection hopen =>
    have hset : (Race.heldFrom 0 (board.race.slots.set index (Race.slotOf result))).Perm
        (Race.heldFrom 0 board.race.slots ++ responsesOf [(0 + index, result)]) :=
      Race.heldFrom_set hempty 0 result
    have hheld' : (Race.heldFrom 0 (board.race.slots.set index (Race.slotOf result))).Perm
        (responsesOf (reports ++ [(index, result)])) := by
      rw [Nat.zero_add] at hset
      rw [Race.responsesOf_append]
      exact hset.trans (hheld.append_right _)
    have hdeeds' : deeds ++ [.hears (Race.reportEntry index result)] =
        hearing (reports ++ [(index, result)]) := by
      rw [hdeeds, hearing, hearing, List.map_append]
      rfl
    rw [deedsOfReport, Board.report, Race.report_of_undecided hempty hundecided]
    have hrulings := Race.rulings_rule board.policy
      (board.race.slots.set index (Race.slotOf result))
    generalize Race.rule board.policy _ = ruled at hrulings ⊢
    cases hrulings with
    | «open» hopen' => exact .undecided rfl hreplay hheld' hdeeds' hconnection (.inl hopen')
    | panicked message =>
      exact .undecided rfl hreplay hheld' hdeeds' hconnection
        (.inr ⟨number, message, List.mem_append_right _ List.mem_cons_self⟩)
    | @decided winner losers hparts hlosers =>
      have hlates : latesIn (deeds ++ [.hears (Race.reportEntry index result), .replays winner]) =
          [] := by
        rw [hdeeds, Deed.latesIn_append, Deed.latesIn_hearing]
        rfl
      have hcourse : courseOf (deeds ++ [.hears (Race.reportEntry index result), .replays winner]) =
          [.replays winner] := by
        rw [hdeeds, Deed.courseOf_append, Deed.courseOf_hearing]
        rfl
      exact .decided ⟨rfl, Race.heldFrom_release .., (Race.pairwise_heldFrom ..).sublist hlosers,
        _, [], (List.append_nil _).symm, hparts.trans hheld', hlates⟩ (.replaying rfl hcourse)
  | decided hparted hproceeds =>
    obtain ⟨busy, hboard⟩ := report_of_late hempty hparted.decided number result
    rw [hboard, deedsOfReport_of_late hempty hparted.decided]
    have hcourse : courseOf ((Ruling.late (Race.responseOf? result)).deeds index) = [] := by
      cases result <;> rfl
    refine .decided (hparted.late hempty result)
      (hproceeds.frame ?_ ?_ (fun _ houtcome => ?_) hcourse (List.subset_append_left ..))
    · rfl
    · rfl
    · exact houtcome

/-- An action that leaves the race alone. A connection that is unused may be dropped with the last
that could report. -/
structure Spares (board board' : Board) : Prop where
  policy_eq : board'.policy = board.policy
  race_eq : board'.race = board.race
  replay_eq : board'.replay = board.replay
  inUse_of : board'.inUse = true → board.inUse = true
  connection_eq : board'.inUse = true ∨ board.race.undecided = false →
    board'.connection = board.connection
  outcome_of : ∀ result, board.outcome = .announced result ∨ board.outcome = .taken →
    board'.outcome = .announced result ∨ board'.outcome = .taken

theorem Spares.refl (board : Board) : Spares board board :=
  ⟨rfl, rfl, rfl, fun h => h, fun _ => rfl, fun _ h => h⟩

/-- The reports that an action makes; it makes none when nobody can report any more. -/
def heard (board : Board) : BoardAction → List (Nat × Report)
  | .report index result => if board.inUse then [(index, result)] else []
  | _ => []

theorem heard_cases (board : Board) (action : BoardAction) : board.heard action = [] ∨
    ∃ index result, action = .report index result ∧ board.inUse = true := by
  cases action with
  | report index result =>
    cases hinUse : board.inUse with
    | true => exact .inr ⟨index, result, rfl, rfl⟩
    | false => exact .inl (if_neg (by simp [hinUse]))
  | _ => exact .inl rfl

theorem deedsOfAct_of_unheard {action : BoardAction} (h : board.heard action = []) :
    board.deedsOfAct action = [] := by
  cases action with
  | report index result =>
    rw [heard] at h
    split at h
    · cases h
    · next hinUse => exact if_neg hinUse
  | _ => rfl

/-- Without a report the race is left alone. -/
theorem spares_act {action : BoardAction} (h : board.heard action = []) (number : Nat) :
    Spares board (board.act number action).board := by
  cases action with
  | report index result =>
    rw [heard] at h
    split at h
    · cases h
    · next hinUse =>
      rw [act, if_neg hinUse]
      exact .refl board
  | openGate name => exact ⟨rfl, rfl, rfl, fun h => h, fun _ => rfl, fun _ h => h⟩
  | pass => exact .refl board
  | ignoreOutcome => exact ⟨rfl, rfl, rfl, fun h => h, fun _ => rfl, fun _ _ => .inr rfl⟩
  | close =>
    refine ⟨rfl, rfl, rfl, by rintro ⟨⟩, fun h => ?_, fun _ h => h⟩
    rcases h with h | h
    · cases h
    · exact if_neg (by simp [h])
  | askOutcome =>
    rw [act, quietTurn, askOutcome]
    split
    · exact .refl board
    · exact ⟨rfl, rfl, rfl, fun h => h, fun _ => rfl, fun _ _ => .inr rfl⟩
    · split
      · exact .refl board
      · exact ⟨rfl, rfl, rfl, fun h => h, fun _ => rfl, fun _ _ => .inr rfl⟩
  | look =>
    rw [act, quietTurn, look]
    split
    · exact .refl board
    · split
      · exact .refl board
      · exact ⟨rfl, rfl, rfl, fun h => h, fun _ => rfl, fun _ h => h⟩

theorem Stands.spare (h : Stands kind reports deeds ended board) (hspares : Spares board board')
    (hended : ended ⊆ ended') : Stands kind reports deeds ended' board' := by
  cases h with
  | undecided hundecided hreplay hheld hdeeds hconnection hopen =>
    refine .undecided ?_ (hspares.replay_eq.trans hreplay) ?_ hdeeds (fun hinUse => ?_) ?_
    · rwa [hspares.race_eq]
    · rwa [hspares.race_eq]
    · rw [hspares.connection_eq (.inl hinUse), hconnection (hspares.inUse_of hinUse)]
    · rw [hspares.race_eq, hspares.policy_eq]
      exact hopen.imp_right (·.mono hended)
  | decided hparted hproceeds =>
    have hproceeds' := hproceeds.frame hspares.replay_eq
      (hspares.connection_eq (.inr hparted.decided)) hspares.outcome_of
      (show courseOf [] = [] from rfl) hended
    rw [List.append_nil] at hproceeds'
    exact .decided (hspares.race_eq ▸ hparted) hproceeds'

theorem Stands.act (h : Stands kind reports deeds ended board) (number : Nat) (action : BoardAction)
    (hempty : ∀ report ∈ board.heard action, board.race.slots[report.1]? = some .empty) :
    Stands kind (reports ++ board.heard action) (deeds ++ board.deedsOfAct action)
      (ended ++ (board.act number action).ended) (board.act number action).board := by
  rcases board.heard_cases action with hnone | ⟨index, result, rfl, hinUse⟩
  · rw [hnone, deedsOfAct_of_unheard hnone, List.append_nil, List.append_nil]
    exact h.spare (spares_act hnone number) (List.subset_append_left ..)
  · rw [heard, if_pos hinUse] at hempty ⊢
    rw [deedsOfAct, Board.act, if_pos hinUse, if_pos hinUse]
    exact h.report number (hempty _ List.mem_cons_self) result

end

/-! ## Runs -/

theorem report_race_eq (board : Board) (number index : Nat) (result : Report) :
    (board.report number index result).board.race =
      (board.race.report board.policy index result).1 := by
  rw [report]
  rcases board.race.report board.policy index result with ⟨race, entries, ruling⟩
  cases ruling with
  | late response =>
    dsimp only
    split <;> rfl
  | _ => rfl

/-- More reports, of slots that are there and have not reported. -/
def Fresh (count : Nat) (reports more : List (Nat × Report)) : Prop :=
  ∀ report ∈ more, report.1 < count ∧ report.1 ∉ reports.map Prod.fst

/-- **What a board knows** after these reports and deeds. -/
structure Ledger (count : Nat) (kind : ClientKind) (reports : List (Nat × Report))
    (deeds : List Deed) (ended : List (Nat × ReportEnd)) (board : Board) : Prop where
  vacant : ∀ index : Nat, board.race.slots[index]? = some .empty ↔
    index < count ∧ index ∉ reports.map Prod.fst
  stands : Stands kind reports deeds ended board

section

variable {count : Nat} {policy : Policy} {kind : ClientKind} {reports : List (Nat × Report)}
  {deeds : List Deed} {ended : List (Nat × ReportEnd)} {board : Board}

theorem ledger_ofSlots? (h : ofSlots? count policy kind = .ok board) :
    Ledger count kind [] [] [] board := by
  rw [ofSlots?, Race.ofSlots?] at h
  by_cases hcount : count = 0
  · rw [if_pos hcount] at h
    cases h
  · rw [if_neg hcount] at h
    cases h
    refine ⟨fun index => by simp [List.getElem?_replicate], .undecided rfl rfl ?_ rfl
      (fun _ => rfl) (.inl ?_)⟩
    · rw [Race.heldFrom_replicate_empty]
      exact .nil
    · obtain ⟨count, rfl⟩ := Nat.exists_eq_succ_of_ne_zero hcount
      rfl

theorem Ledger.act (h : Ledger count kind reports deeds ended board) (number : Nat)
    {action : BoardAction} (hfresh : Fresh count reports (board.heard action)) :
    Ledger count kind (reports ++ board.heard action) (deeds ++ board.deedsOfAct action)
      (ended ++ (board.act number action).ended) (board.act number action).board := by
  have hempty : ∀ report ∈ board.heard action, board.race.slots[report.1]? = some .empty :=
    fun report hreport => (h.vacant report.1).mpr (hfresh report hreport)
  refine ⟨fun other => ?_, h.stands.act number action hempty⟩
  rcases board.heard_cases action with hnone | ⟨index, result, rfl, hinUse⟩
  · rw [hnone, List.append_nil, (spares_act hnone number).race_eq]
    exact h.vacant other
  · rw [heard, if_pos hinUse] at hempty ⊢
    rw [Board.act, if_pos hinUse, report_race_eq,
      Race.getElem?_report_eq_empty (hempty _ List.mem_cons_self), h.vacant other]
    simp [and_assoc]

theorem Ledger.counted (h : Ledger count kind reports deeds ended board) :
    Ledger count kind reports deeds ended board.counted where
  vacant := h.vacant
  stands := h.stands.spare ⟨rfl, rfl, rfl, fun h => h, fun _ => rfl, fun _ h => h⟩
    (List.Subset.refl _)

/-- **One action.** -/
theorem Ledger.perform (h : Ledger count kind reports deeds ended board) {action : BoardAction}
    (hfresh : Fresh count reports (board.heard action)) :
    Ledger count kind (reports ++ board.heard action) (deeds ++ board.deeds action)
      (ended ++ (board.perform action).ended) (board.perform action).board := by
  have hheard : board.counted.heard action = board.heard action := by cases action <;> rfl
  have hdeeds : board.counted.deedsOfAct action = board.deedsOfAct action := by
    cases action <;> rfl
  have hacted := h.counted.act board.actions (hheard ▸ hfresh)
  rw [hheard, hdeeds] at hacted
  have hadvances := (board.counted.act board.actions action).board.advances_advance
  have hstands := hacted.stands.advance hadvances
  have hended : ended ++ (board.counted.act board.actions action).ended ++
      (board.counted.act board.actions action).board.advance.ended ⊆
      ended ++ (board.perform action).ended := by
    rw [List.append_assoc]
    exact (List.perm_append_comm.append_left ended).subset
  rw [List.append_assoc] at hstands
  refine ⟨fun other => ?_, hstands.spare (.refl _) hended⟩
  rw [← hacted.vacant other, ← hadvances.race_eq]
  rfl

/-- The reports that actions make. -/
def heardIn : Board → List BoardAction → List (Nat × Report)
  | _, [] => []
  | board, action :: rest => board.heard action ++ (board.perform action).board.heardIn rest

/-- **One action after the other.** -/
theorem Ledger.run (h : Ledger count kind reports deeds ended board) {actions : List BoardAction}
    (hdistinct : ((reports ++ board.heardIn actions).map Prod.fst).Nodup)
    (hrange : ∀ report ∈ board.heardIn actions, report.1 < count) :
    Ledger count kind (reports ++ board.heardIn actions) (deeds ++ (board.deedsIn actions).flatten)
      (ended ++ (board.run actions).2.flatMap (·.ended)) (board.run actions).1 := by
  induction actions generalizing reports deeds ended board with
  | nil => simpa [heardIn, deedsIn, Board.run] using h
  | cons action rest ih =>
    rw [heardIn, ← List.append_assoc] at hdistinct ⊢
    have hfresh : Fresh count reports (board.heard action) := by
      intro report hreport
      refine ⟨hrange report (List.mem_append_left _ hreport), fun hmem => ?_⟩
      rw [List.map_append, List.map_append] at hdistinct
      have hdisjoint := (List.nodup_append.mp (List.nodup_append.mp hdistinct).1).2.2
      exact hdisjoint _ hmem _ (List.mem_map_of_mem hreport) rfl
    have hrest := ih (h.perform hfresh) hdistinct
      fun report hreport => hrange report (List.mem_append_right _ hreport)
    simpa [deedsIn, Board.run] using hrest

end

end Board

end Switchboard
