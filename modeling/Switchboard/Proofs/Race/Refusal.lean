import Switchboard.Proofs.Race.Account
import Switchboard.Proofs.Race.Numbers
set_option autoImplicit false

/-! # Reports that are refused

Each slot of a race takes one report. Any other report, of a slot that does not exist or that has
reported, ends in a panic and leaves everything else as it was: the board afterwards is the board
before it, with one action more behind it (`Board.perform_refused`), and all that follows is the
same but for the numbers.

These are the two assertions that `report` of an `Aggregator` makes of its index. -/

namespace Switchboard

namespace Race

/-! ## One report -/

/-- Why a report of a slot is refused. -/
def refusal (slots index : Nat) : String :=
  if index < slots then "slot " ++ toString index ++ " reported twice"
  else "slot " ++ toString index ++ " is out of range for a race of " ++ toString slots ++ " slots"

section

variable {policy : Policy} {race : Race} {index : Nat}

/-- **A report that is refused** leaves the race as it is. -/
theorem report_of_not_empty (h : race.slots[index]? ≠ some .empty) (result : Report) :
    race.report policy index result = (race, [], .panicked (refusal race.slots.length index)) := by
  unfold report refusal
  cases hslot : race.slots[index]? with
  | none =>
    have hindex : ¬ index < race.slots.length := Nat.not_lt.mpr (List.getElem?_eq_none_iff.mp hslot)
    rw [if_neg hindex]
  | some slot =>
    have hindex : index < race.slots.length := (List.getElem?_eq_some_iff.mp hslot).1
    rw [if_pos hindex]
    cases slot with
    | empty => exact absurd hslot h
    | failed => rfl
    | holds response => rfl
    | spent => rfl

/-- No report adds a slot or takes one away. -/
theorem length_report (result : Report) :
    (race.report policy index result).1.slots.length = race.slots.length := by
  by_cases hempty : race.slots[index]? = some .empty
  · cases hundecided : race.undecided with
    | false =>
      rw [report_of_decided hempty hundecided]
      exact List.length_set
    | true =>
      rw [report_of_undecided hempty hundecided]
      have hrulings := rulings_rule policy (race.slots.set index (slotOf result))
      generalize rule policy _ = ruled at hrulings ⊢
      cases hrulings with
      | «open» hopen => exact List.length_set
      | panicked message => exact List.length_set
      | decided hparts hlosers => exact (List.length_map _).trans List.length_set
  · rw [report_of_not_empty hempty]

end

end Race

/-! ## Rest -/

theorem Work.poll_blocked {α : Type} {opened : List String} {work rest : Work α}
    {notes : List Note} (h : work.poll opened = (notes, .blocked rest)) :
    rest.poll opened = ([], .blocked rest) := by
  induction work generalizing notes with
  | done value => cases h
  | panics message => cases h
  | stalled =>
    cases h
    rfl
  | note note next ih =>
    rw [Work.poll] at h
    rcases hnext : next.poll opened with ⟨notes', progress⟩
    rw [hnext] at h
    cases h
    exact ih hnext
  | pause pause next ih =>
    cases pause with
    | sleep ms =>
      cases h
      rfl
    | shared key ms =>
      cases h
      rfl
    | gate name =>
      rw [Work.poll] at h
      split at h
      · exact ih h
      · next hclosed =>
        cases h
        rw [Work.poll, if_neg hclosed]

/-- A connection that was polled does nothing more until another gate opens. -/
theorem Connection.poll_poll (opened : List String) (c : Connection) :
    (c.poll opened).1.poll opened = ((c.poll opened).1, []) := by
  obtain ⟨client, state⟩ := c
  cases state with
  | taking script =>
    rcases hpoll : script.poll opened with ⟨notes, progress⟩
    cases progress with
    | finished taken => simp only [poll, hpoll]
    | panicked message => simp only [poll, hpoll]
    | blocked rest => simp only [poll, hpoll, Work.poll_blocked hpoll]
  | unused => rfl
  | answered result => rfl
  | panicked message => rfl
  | dropped => rfl

namespace Board

/-- Nothing more can be done about the replay, as the gates are. -/
def Rests (board : Board) : Prop := board.advance = board.quietTurn .nothing

section

variable {count : Nat} {policy : Policy} {kind : ClientKind} {board start : Board} {index : Nat}
  {deeds : List Deed} {turn : BoardTurn}

/-- Nothing is done where no report is being replayed, or a loser keeps it busy for ever. -/
theorem Rests.of_resting (h : ∀ replay, board.replay = some replay → replay.busy = true) :
    board.Rests :=
  (advances_advance board).of_resting h |>.2

/-- Nothing is done about a connection that waits. -/
theorem Rests.of_poll (hpoll : board.connection.poll board.gates = (board.connection, []))
    (hanswered : ∀ result, board.connection.state ≠ .answered result)
    (hpanicked : ∀ message, board.connection.state ≠ .panicked message) : board.Rests := by
  have hadvances := advances_advance board
  rw [Rests]
  generalize board.deedsOfAdvance = deeds, board.advance = turn at hadvances ⊢
  cases hadvances with
  | rests hreplay => rfl
  | goesOn hreplay hbusy hpoll' hanswered' hpanicked' =>
    cases hpoll.symm.trans hpoll'
    rfl
  | breaks hreplay hbusy hpoll' hstate =>
    cases hpoll.symm.trans hpoll'
    exact absurd hstate (hpanicked _)
  | stalls hreplay hbusy hpoll' hstate hlosers =>
    cases hpoll.symm.trans hpoll'
    exact absurd hstate (hanswered _)
  | concludes hreplay hbusy hpoll' hstate =>
    cases hpoll.symm.trans hpoll'
    exact absurd hstate (hanswered _)

/-- Going on with the replay goes on with it as far as it can. -/
theorem Advances.board_rests (h : Advances board deeds turn) : turn.board.Rests := by
  cases h with
  | rests hreplay => exact .of_resting hreplay
  | @goesOn _ connection _ hreplay hbusy hpoll hanswered hpanicked =>
    have hpolled := Connection.poll_poll board.gates board.connection
    rw [hpoll] at hpolled
    exact .of_poll hpolled hanswered hpanicked
  | breaks hreplay hbusy hpoll hstate => exact .of_resting nofun
  | stalls hreplay hbusy hpoll hstate hlosers =>
    refine .of_resting ?_
    rintro _ ⟨⟩
    rfl
  | concludes hreplay hbusy hpoll hstate => exact .of_resting nofun

theorem Rests.run (h : board.Rests) (actions : List BoardAction) :
    (board.run actions).1.Rests := by
  induction actions generalizing board with
  | nil => exact h
  | cons action rest ih => exact ih (advances_advance _).board_rests

/-- Counting an action moves nothing. -/
theorem Rests.counted (h : board.Rests) (hknown : NumbersKnown board) : board.counted.Rests := by
  rw [Rests, hknown.counted_eq, advance_renumbered, h]
  rfl

/-- **A report that is refused**: it ends in a panic, and nothing else is done. -/
theorem Rests.perform_refused (h : board.Rests) (hknown : NumbersKnown board)
    (hinUse : board.inUse = true) (hrefused : board.race.slots[index]? ≠ some .empty)
    (result : Report) :
    board.perform (.report index result) = ⟨board.counted, .nothing, [],
      [(board.actions, .panicked (Race.refusal board.race.slots.length index))]⟩ := by
  have hacted : board.counted.act board.actions (.report index result) =
      ⟨board.counted, .nothing, [],
        [(board.actions, .panicked (Race.refusal board.race.slots.length index))]⟩ := by
    have hreport : board.counted.race.report board.counted.policy index result =
        (board.race, [], .panicked (Race.refusal board.race.slots.length index)) :=
      Race.report_of_not_empty hrefused result
    rw [act, if_pos (show board.counted.inUse = true from hinUse), Board.report, hreport]
    rfl
  have hadvanced : board.counted.advance = board.counted.quietTurn .nothing := h.counted hknown
  calc
    board.perform (.report index result) =
        let acted := board.counted.act board.actions (.report index result)
        let advanced := acted.board.advance
        ⟨advanced.board, acted.answer, acted.notes ++ advanced.notes,
          advanced.ended ++ acted.ended⟩ := rfl
    _ = _ := by
      rw [hacted]
      dsimp only
      rw [hadvanced]
      rfl

end

/-! ## Which reports are refused -/

/-- The slots that a board has, and which of them have not reported. -/
structure Tallies (count : Nat) (reports : List (Nat × Report)) (board : Board) : Prop where
  length_eq : board.race.slots.length = count
  vacant : ∀ index : Nat, board.race.slots[index]? = some .empty ↔
    index < count ∧ index ∉ reports.map Prod.fst

/-- Whether a slot has yet to report. -/
def isVacant (board : Board) (index : Nat) : Bool :=
  match board.race.slots[index]? with
  | some .empty => true
  | _ => false

/-- The reports that are taken, of those that actions make. -/
def takenIn : Board → List BoardAction → List (Nat × Report)
  | _, [] => []
  | board, action :: rest =>
    (board.heard action).filter (board.isVacant ·.1) ++ (board.perform action).board.takenIn rest

section

variable {count : Nat} {policy : Policy} {kind : ClientKind} {reports : List (Nat × Report)}
  {board start : Board} {index : Nat}

theorem isVacant_iff : board.isVacant index = true ↔
    board.race.slots[index]? = some .empty := by
  unfold isVacant
  split
  · next hempty => simp only [hempty]
  · next hother => simp only [Bool.false_eq_true, false_iff]; exact hother

theorem tallies_ofSlots? (h : ofSlots? count policy kind = .ok start) :
    Tallies count [] start := by
  rw [ofSlots?, Race.ofSlots?] at h
  by_cases hcount : count = 0
  · rw [if_pos hcount] at h
    cases h
  · rw [if_neg hcount] at h
    cases h
    exact ⟨List.length_replicate, fun index => by simp [List.getElem?_replicate]⟩

/-- Nothing is under way on a board on which nobody has reported. -/
theorem idle_ofSlots? (h : ofSlots? count policy kind = .ok start) :
    start.Rests ∧ NumbersKnown start := by
  rw [ofSlots?] at h
  split at h
  · cases h
  · cases h
    exact ⟨.of_resting (by simp), by simp, by simp⟩

theorem race_perform (board : Board) (action : BoardAction) :
    (board.perform action).board.race = (board.counted.act board.actions action).board.race :=
  (advances_advance _).race_eq

theorem race_perform_report (hinUse : board.inUse = true) (index : Nat) (result : Report) :
    (board.perform (.report index result)).board.race =
      (board.race.report board.policy index result).1 := by
  rw [race_perform, act, if_pos (show board.counted.inUse = true from hinUse), report_race_eq]
  rfl

/-- **One action**: a slot that reports is not vacant any more, whether it was before or not. -/
theorem Tallies.perform (h : Tallies count reports board) (action : BoardAction) :
    Tallies count (reports ++ board.heard action) (board.perform action).board := by
  rcases board.heard_cases action with hnone | ⟨index, result, rfl, hinUse⟩
  · have hrace : (board.perform action).board.race = board.race :=
      (race_perform board action).trans
        (spares_act (by cases action <;> exact hnone) board.actions).race_eq
    rw [hnone, List.append_nil]
    exact ⟨hrace ▸ h.length_eq, fun other => hrace ▸ h.vacant other⟩
  · have hrace := race_perform_report hinUse index result
    rw [heard, if_pos hinUse]
    refine ⟨?_, fun other => ?_⟩
    · rw [hrace, Race.length_report, h.length_eq]
    rw [hrace, List.map_append, List.mem_append, not_or, ← and_assoc, ← h.vacant other]
    by_cases hempty : board.race.slots[index]? = some .empty
    · rw [Race.getElem?_report_eq_empty hempty, List.map_singleton, List.mem_singleton]
    · rw [Race.report_of_not_empty hempty, List.map_singleton, List.mem_singleton]
      refine ⟨fun hother => ⟨hother, ?_⟩, fun hother => hother.1⟩
      rintro rfl
      exact hempty hother

/-- **One action after the other.** -/
theorem Tallies.run (h : Tallies count reports board) (actions : List BoardAction) :
    Tallies count (reports ++ board.heardIn actions) (board.run actions).1 := by
  induction actions generalizing board reports with
  | nil => rwa [heardIn, List.append_nil]
  | cons action rest ih =>
    rw [heardIn, ← List.append_assoc]
    exact ih (h.perform action)

/-- **A slot takes its first report and no other.** -/
theorem Tallies.takenIn_eq (h : Tallies count reports board) (actions : List BoardAction)
    (index : Nat) :
    (board.takenIn actions).filter (·.1 == index) =
      ((board.heardIn actions).filter (·.1 == index)).take
        (if index < count ∧ index ∉ reports.map Prod.fst then 1 else 0) := by
  induction actions generalizing board reports with
  | nil => exact List.take_nil.symm
  | cons action rest ih =>
    have hrest := ih (h.perform action)
    rw [takenIn, heardIn, List.filter_append, List.filter_append, hrest]
    rcases board.heard_cases action with hnone | ⟨other, result, rfl, hinUse⟩
    · rw [hnone, List.append_nil]
      rfl
    have hheard : board.heard (.report other result) = [(other, result)] := by
      rw [heard, if_pos hinUse]
    rw [hheard]
    by_cases hother : other = index
    · subst hother
      -- whatever its slot was before, it takes nothing later
      have hreported : ¬ (other < count ∧ other ∉ (reports ++ [(other, result)]).map Prod.fst) := by
        simp
      rw [if_neg hreported, List.take_zero, List.append_nil]
      by_cases hvacant : other < count ∧ other ∉ reports.map Prod.fst
      · have hempty := isVacant_iff.mpr ((h.vacant other).mpr hvacant)
        rw [if_pos hvacant]
        simp [hempty]
      · have hempty : board.isVacant other = false := by
          rw [← Bool.not_eq_true, isVacant_iff, h.vacant other]
          exact hvacant
        rw [if_neg hvacant]
        simp [hempty]
    · have hmem : index ∉ (reports ++ [(other, result)]).map Prod.fst ↔
          index ∉ reports.map Prod.fst := by
        simp [Ne.symm hother]
      have hdropped : ([(other, result)].filter (·.1 == index)) = [] := by
        simp [hother]
      have hnothing :
          (([(other, result)].filter (board.isVacant ·.1)).filter (·.1 == index)) = [] :=
        List.filter_eq_nil_iff.mpr fun report hreport => by
          rw [List.mem_singleton.mp (List.mem_filter.mp hreport).1]
          simp [hother]
      rw [hnothing, hdropped]
      simp only [hmem, List.nil_append]

/-- **A report is refused, or it is the first of its slot.** -/
theorem report_once {before : List BoardAction}
    (hstart : ofSlots? count policy kind = .ok start) (hboard : (start.run before).1 = board)
    (hinUse : board.inUse = true) (index : Nat) (result : Report) (later : List BoardAction) :
    (count ≤ index ∨ index ∈ (reportsIn before).map Prod.fst →
      board.perform (.report index result) = ⟨board.counted, .nothing, [],
          [(board.actions, .panicked (Race.refusal count index))]⟩ ∧
        board.counted.run later =
          ((board.run later).1.renumbered (skipping board.actions),
            (board.run later).2.map (BoardTurn.renumbered (skipping board.actions)))) ∧
    (index < count ∧ index ∉ (reportsIn before).map Prod.fst →
      (board.perform (.report index result)).board.race =
        if board.race.undecided then
          (Race.rule board.policy ⟨board.race.slots.set index (Race.slotOf result), true⟩).1
        else ⟨board.race.slots.set index .spent, false⟩) ∧
    (start.takenIn before).filter (·.1 == index) =
      ((reportsIn before).filter (·.1 == index)).take (if index < count then 1 else 0) := by
  have hheard : start.heardIn before = reportsIn before := by
    rw [heardIn_eq, if_pos (inUse_ofSlots? hstart)]
  have htallies := (tallies_ofSlots? hstart).run before
  have htaken := (tallies_ofSlots? hstart).takenIn_eq before index
  rw [List.nil_append, hheard, hboard] at htallies
  refine ⟨fun hrefused => ?_, fun hfirst => ?_, ?_⟩
  · obtain ⟨hrests, hknown⟩ := idle_ofSlots? hstart
    replace hrests : board.Rests := hboard ▸ hrests.run before
    replace hknown : NumbersKnown board := hboard ▸ hknown.run before
    have hslot : board.race.slots[index]? ≠ some .empty := by
      intro hempty
      obtain ⟨hlt, hnot⟩ := (htallies.vacant index).mp hempty
      rcases hrefused with hrange | hreported
      · omega
      · exact hnot hreported
    have hperform := hrests.perform_refused hknown hinUse hslot result
    rw [htallies.length_eq] at hperform
    exact ⟨hperform, hknown.run_counted later⟩
  · have hempty := (htallies.vacant index).mpr hfirst
    rw [race_perform_report hinUse]
    cases hundecided : board.race.undecided with
    | true => rw [Race.report_of_undecided hempty hundecided, if_pos rfl]
    | false => rw [Race.report_of_decided hempty hundecided, if_neg Bool.false_ne_true]
  · rw [htaken, hheard]
    simp only [List.map_nil, List.not_mem_nil, not_false_eq_true, and_true]

/-- A slot that reported late, when the race was decided, has reported. -/
theorem report_once_late : ∃ (start board : Board),
    ofSlots? 2 Policy.successOrRedirect .collecting = .ok start ∧
    (start.run [.report 0 (.ok (Reply.octets [1])), .report 1 (.ok (Reply.octets [2]))]).1 =
      board ∧
    board.inUse = true ∧ board.race.undecided = false ∧
    board.perform (.report 1 (.ok (Reply.octets [3]))) = ⟨board.counted, .nothing, [],
      [(2, .panicked "slot 1 reported twice")]⟩ ∧
    board.counted.run [.askOutcome] =
      ((board.run [.askOutcome]).1.renumbered (skipping 2),
        (board.run [.askOutcome]).2.map (BoardTurn.renumbered (skipping 2))) := by
  have hreported : 1 ∈ (reportsIn [.report 0 (.ok (Reply.octets [1])),
      .report 1 (.ok (Reply.octets [2]))]).map Prod.fst := by simp [reportsIn]
  obtain ⟨start, hstart⟩ : ∃ start,
      ofSlots? 2 Policy.successOrRedirect .collecting = .ok start := ⟨_, rfl⟩
  refine ⟨start, _, hstart, rfl, ?_, ?_, ?_⟩
  · cases hstart; rfl
  · cases hstart; rfl
  have hinUse : (start.run [.report 0 (.ok (Reply.octets [1])),
      .report 1 (.ok (Reply.octets [2]))]).1.inUse = true := by cases hstart; rfl
  have hactions : (start.run [.report 0 (.ok (Reply.octets [1])),
      .report 1 (.ok (Reply.octets [2]))]).1.actions = 2 := by cases hstart; rfl
  have hrefused := (report_once hstart rfl hinUse 1 (.ok (Reply.octets [3])) [.askOutcome]).1
    (.inr hreported)
  rw [hactions] at hrefused
  exact hrefused

end

end Board

end Switchboard
