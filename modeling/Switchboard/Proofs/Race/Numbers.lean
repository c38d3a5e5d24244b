import Switchboard.Proofs.Race.Deeds
set_option autoImplicit false

/-! # The numbers of reports

A board numbers its actions, so that the end of a report can be told by the number of the action
that brought it. The numbers are names and nothing else: a run with other numbers is the same run
(`Board.run_renumbered`), as long as the numbers that are still to come follow each other.

The reports are calls of `report` of an `Aggregator`. -/

namespace Switchboard

/-- A replay with its report under another number. -/
def Replay.renumbered (number : Nat → Nat) (replay : Replay) : Replay :=
  { replay with report := number replay.report }

namespace Board

/-- A board with its actions under other numbers. -/
def renumbered (number : Nat → Nat) (board : Board) : Board :=
  { board with
    replay := board.replay.map (Replay.renumbered number)
    busy := board.busy.map number
    actions := number board.actions }

end Board

/-- A turn with the actions under other numbers. -/
def BoardTurn.renumbered (number : Nat → Nat) (turn : BoardTurn) : BoardTurn :=
  { turn with
    board := turn.board.renumbered number
    ended := turn.ended.map (Prod.map number id) }

namespace Board

section

variable (number : Nat → Nat) (board : Board)

theorem report_renumbered (report index : Nat) (result : Report) :
    (board.renumbered number).report (number report) index result =
      (board.report report index result).renumbered number := by
  have hrace : (board.renumbered number).race.report (board.renumbered number).policy index result =
      board.race.report board.policy index result := rfl
  unfold Board.report
  rw [hrace]
  rcases board.race.report board.policy index result with ⟨race, entries, ruling⟩
  cases ruling with
  | undecided => rfl
  | panicked message => rfl
  | decided winner losers => rfl
  | late response =>
    have hcancel : Race.cancelLate (board.renumbered number).gates index response =
        Race.cancelLate board.gates index response := rfl
    dsimp only
    rw [hcancel]
    rcases Race.cancelLate board.gates index response with ⟨cancelled, finished⟩
    cases finished with
    | true => rfl
    | false =>
      simp only [BoardTurn.renumbered, renumbered, List.map_append, List.map_cons, List.map_nil,
        Bool.false_eq_true, if_false]

theorem conclude_renumbered (replay : Replay) (result : Delivery) :
    (board.renumbered number).conclude (replay.renumbered number) result =
      (board.conclude replay result).renumbered number := by
  have hcancel : Race.cancelLosers (board.renumbered number).gates
      (replay.renumbered number).losers = Race.cancelLosers board.gates replay.losers := rfl
  have houtcome : (board.renumbered number).outcome = board.outcome := rfl
  unfold conclude
  rw [hcancel, houtcome]
  rcases Race.cancelLosers board.gates replay.losers with ⟨notes, finished⟩
  cases finished with
  | false => rfl
  | true =>
    cases board.outcome with
    | «open» => rfl
    | announced result => rfl
    | taken => rfl

theorem advance_renumbered :
    (board.renumbered number).advance = board.advance.renumbered number := by
  unfold advance
  cases hreplay : board.replay with
  | none =>
    have hnone : (board.renumbered number).replay = none := by rw [renumbered, hreplay]; rfl
    rw [hnone]
    rfl
  | some replay =>
    have hsome : (board.renumbered number).replay = some (replay.renumbered number) := by
      rw [renumbered, hreplay]
      rfl
    have hbusy : (replay.renumbered number).busy = replay.busy := rfl
    rw [hsome]
    dsimp only
    rw [hbusy]
    cases replay.busy with
    | true => rfl
    | false =>
      have hpoll : (board.renumbered number).connection.poll (board.renumbered number).gates =
          board.connection.poll board.gates := rfl
      rw [if_neg Bool.false_ne_true, if_neg Bool.false_ne_true, hpoll]
      rcases board.connection.poll board.gates with ⟨connection, notes⟩
      dsimp only
      cases connection.state with
      | answered result =>
        have hconclude :=
          conclude_renumbered number { board with connection := connection } replay result
        exact congrArg (fun turn : BoardTurn => { turn with notes := notes ++ turn.notes })
          hconclude
      | panicked message => rfl
      | unused => rfl
      | taking script => rfl
      | dropped => rfl

theorem act_renumbered (report : Nat) (action : BoardAction) :
    (board.renumbered number).act (number report) action =
      (board.act report action).renumbered number := by
  cases action with
  | report index result =>
    have hinUse : (board.renumbered number).inUse = board.inUse := rfl
    rw [act, act, hinUse]
    split
    · exact report_renumbered number board report index result
    · rfl
  | openGate name => rfl
  | close => rfl
  | ignoreOutcome => rfl
  | askOutcome =>
    have hawaits : (board.renumbered number).awaitsOutcome = board.awaitsOutcome := by
      rw [awaitsOutcome, awaitsOutcome, renumbered, Option.isSome_map]
    have houtcome : (board.renumbered number).outcome = board.outcome := rfl
    rw [act, act, quietTurn, quietTurn, askOutcome, askOutcome, houtcome, hawaits]
    cases board.outcome with
    | taken => rfl
    | announced result => rfl
    | «open» => cases board.awaitsOutcome <;> rfl
  | look =>
    have hlooks : ((board.renumbered number).found ||
        !(board.renumbered number).connection.client.kind.isHeard) =
          (board.found || !board.connection.client.kind.isHeard) := rfl
    have hmailbox : (board.renumbered number).connection.mailbox = board.connection.mailbox := rfl
    rw [act, act, quietTurn, quietTurn, look, look, hlooks, hmailbox]
    cases (board.found || !board.connection.client.kind.isHeard) with
    | true => rfl
    | false => cases board.connection.mailbox <;> rfl
  | pass => rfl

/-- **An action with other numbers** is the same action, if the next number still comes next. -/
theorem perform_renumbered (action : BoardAction)
    (hnext : number (board.actions + 1) = number board.actions + 1) :
    (board.renumbered number).perform action = (board.perform action).renumbered number := by
  have hcounted : (board.renumbered number).counted = board.counted.renumbered number := by
    rw [counted, counted, renumbered, renumbered, hnext]
  have hacted : (board.renumbered number).counted.act (number board.actions) action =
      (board.counted.act board.actions action).renumbered number := by
    rw [hcounted, act_renumbered]
  have hadvanced := advance_renumbered number (board.counted.act board.actions action).board
  calc
    (board.renumbered number).perform action =
        let acted := (board.counted.act board.actions action).renumbered number
        let advanced := acted.board.advance
        ⟨advanced.board, acted.answer, acted.notes ++ advanced.notes,
          advanced.ended ++ acted.ended⟩ := by rw [← hacted]; rfl
    _ = (board.perform action).renumbered number := by
      dsimp only [BoardTurn.renumbered]
      rw [hadvanced]
      simp only [perform, BoardTurn.renumbered, List.map_append, counted]

/-! ## Numbers in use -/

end

/-- What an action of this number leaves behind is known by its number, or was there before. -/
structure Brings (report : Nat) (board board' : Board) : Prop where
  actions_eq : board'.actions = board.actions
  replay_of : ∀ replay, board'.replay = some replay →
    board.replay = some replay ∨ replay.report = report
  busy_of : ∀ other ∈ board'.busy, other ∈ board.busy ∨ other = report

/-- Whoever brought a report is known by the number of an action that there was. -/
structure NumbersKnown (board : Board) : Prop where
  replay : ∀ replay, board.replay = some replay → replay.report < board.actions
  busy : ∀ report ∈ board.busy, report < board.actions

section

variable {board board' : Board} {deeds : List Deed} {turn : BoardTurn}

theorem Brings.of_same (report : Nat) (hactions : board'.actions = board.actions)
    (hreplay : board'.replay = board.replay) (hbusy : board'.busy = board.busy) :
    Brings report board board' :=
  ⟨hactions, fun _ h => .inl (hreplay ▸ h), fun _ h => .inl (hbusy ▸ h)⟩

theorem brings_report (board : Board) (report index : Nat) (result : Report) :
    Brings report board (board.report report index result).board := by
  unfold Board.report
  rcases board.race.report board.policy index result with ⟨race, entries, ruling⟩
  cases ruling with
  | undecided => exact .of_same report rfl rfl rfl
  | panicked message => exact .of_same report rfl rfl rfl
  | decided winner losers =>
    refine ⟨rfl, ?_, fun _ h => .inl h⟩
    rintro replay ⟨⟩
    exact .inr rfl
  | late response =>
    dsimp only
    rcases Race.cancelLate board.gates index response with ⟨cancelled, finished⟩
    cases finished with
    | true => exact .of_same report rfl rfl rfl
    | false =>
      refine ⟨rfl, fun _ h => .inl h, fun other hother => ?_⟩
      rcases List.mem_append.mp hother with hold | hnew
      · exact .inl hold
      · exact .inr (List.mem_singleton.mp hnew)

theorem brings_act (board : Board) (report : Nat) (action : BoardAction) :
    Brings report board (board.act report action).board := by
  cases action with
  | report index result =>
    rw [act]
    split
    · exact brings_report board report index result
    · exact .of_same report rfl rfl rfl
  | openGate name => exact .of_same report rfl rfl rfl
  | close => exact .of_same report rfl rfl rfl
  | ignoreOutcome => exact .of_same report rfl rfl rfl
  | pass => exact .of_same report rfl rfl rfl
  | askOutcome =>
    rw [act, quietTurn, askOutcome]
    split
    · exact .of_same report rfl rfl rfl
    · exact .of_same report rfl rfl rfl
    · split <;> exact .of_same report rfl rfl rfl
  | look =>
    rw [act, quietTurn, look]
    split
    · exact .of_same report rfl rfl rfl
    · split <;> exact .of_same report rfl rfl rfl

theorem Advances.actions_eq (h : Advances board deeds turn) :
    turn.board.actions = board.actions := by
  cases h <;> rfl

/-- Going on with a replay leaves at most the same report behind. -/
theorem Advances.numbersKnown (h : Advances board deeds turn) (hknown : NumbersKnown board) :
    NumbersKnown turn.board := by
  cases h with
  | rests hreplay => exact hknown
  | goesOn hreplay hbusy hpoll hanswered hpanicked => exact ⟨hknown.replay, hknown.busy⟩
  | breaks hreplay hbusy hpoll hstate => exact ⟨nofun, hknown.busy⟩
  | @stalls replay _ _ _ _ hreplay hbusy hpoll hstate hlosers =>
    refine ⟨?_, hknown.busy⟩
    rintro _ ⟨⟩
    exact hknown.replay replay hreplay
  | concludes hreplay hbusy hpoll hstate => exact ⟨nofun, hknown.busy⟩

theorem actions_perform (board : Board) (action : BoardAction) :
    (board.perform action).board.actions = board.actions + 1 :=
  (advances_advance _).actions_eq.trans (brings_act board.counted board.actions action).actions_eq

theorem NumbersKnown.perform (h : NumbersKnown board) (action : BoardAction) :
    NumbersKnown (board.perform action).board := by
  have hbrings := brings_act board.counted board.actions action
  have hacted : NumbersKnown (board.counted.act board.actions action).board := by
    refine ⟨fun replay hreplay => ?_, fun other hother => ?_⟩
    · rw [hbrings.actions_eq]
      rcases hbrings.replay_of replay hreplay with hold | hnew
      · exact Nat.lt_succ_of_lt (h.replay replay hold)
      · exact hnew ▸ Nat.lt_succ_self _
    · rw [hbrings.actions_eq]
      rcases hbrings.busy_of other hother with hold | hnew
      · exact Nat.lt_succ_of_lt (h.busy other hold)
      · exact hnew ▸ Nat.lt_succ_self _
  exact (advances_advance _).numbersKnown hacted

/-- **All numbers that are in use are those of actions that there were.** -/
theorem NumbersKnown.run (h : NumbersKnown board) (actions : List BoardAction) :
    NumbersKnown (board.run actions).1 := by
  induction actions generalizing board with
  | nil => exact h
  | cons action rest ih => exact ih (h.perform action)

/-- **A run with other numbers** is the same run, if the numbers that are still to come follow each
other. -/
theorem run_renumbered (number : Nat → Nat) (board : Board) (actions : List BoardAction)
    (hnext : ∀ report, board.actions ≤ report → number (report + 1) = number report + 1) :
    (board.renumbered number).run actions =
      ((board.run actions).1.renumbered number,
        (board.run actions).2.map (BoardTurn.renumbered number)) := by
  induction actions generalizing board with
  | nil => rfl
  | cons action rest ih =>
    have hperform := perform_renumbered number board action (hnext _ (Nat.le_refl _))
    have hrest := ih (board.perform action).board fun report hreport =>
      hnext report (by rw [actions_perform] at hreport; omega)
    have hboard : ((board.renumbered number).perform action).board =
        (board.perform action).board.renumbered number := by rw [hperform]; rfl
    rw [run, run, hboard, hrest, hperform]
    rfl

/-- Numbers where one is passed over. -/
def skipping (skipped number : Nat) : Nat := if number < skipped then number else number + 1

/-- Counting one action more passes its number over. -/
theorem NumbersKnown.counted_eq (h : NumbersKnown board) :
    board.counted = board.renumbered (skipping board.actions) := by
  have hactions : skipping board.actions board.actions = board.actions + 1 :=
    if_neg (Nat.lt_irrefl _)
  have hbusy : board.busy.map (skipping board.actions) = board.busy := by
    refine (List.map_congr_left fun report hreport => ?_).trans (List.map_id _)
    exact if_pos (h.busy report hreport)
  have hreplay : board.replay.map (Replay.renumbered (skipping board.actions)) = board.replay := by
    cases hsome : board.replay with
    | none => rfl
    | some replay =>
      have hreport : skipping board.actions replay.report = replay.report :=
        if_pos (h.replay replay hsome)
      rw [Option.map_some, Replay.renumbered, hreport]
  rw [counted, renumbered, hactions, hbusy, hreplay]

/-- **Counting one action more** makes no difference to what follows but for its number. -/
theorem NumbersKnown.run_counted (h : NumbersKnown board) (actions : List BoardAction) :
    board.counted.run actions =
      ((board.run actions).1.renumbered (skipping board.actions),
        (board.run actions).2.map (BoardTurn.renumbered (skipping board.actions))) := by
  rw [h.counted_eq]
  refine run_renumbered _ board actions fun report hreport => ?_
  rw [skipping, skipping, if_neg (by omega), if_neg (by omega)]

end

end Board

end Switchboard
