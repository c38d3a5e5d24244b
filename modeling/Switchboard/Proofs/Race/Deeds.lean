import Switchboard.Race.Board
set_option autoImplicit false

/-! # What is done on a board

All that is done with the responses of a race, and with its outcome, comes down to a few deeds: the
connection is given a response and takes it, a response is cancelled, the outcome is sent.
`Board.deeds` lists the deeds of an action in their order. `Board.carriesOut` says that an action
does what its deeds say and nothing else: its notes are theirs, and the connection and the outcome
are left as they leave them.

They are what an `Aggregator` does to its `Captured` responses and to its `Outcome`. -/

namespace Switchboard

/-- Something that is done on a board. -/
inductive Deed where
  /-- A report that comes in time is taken note of. -/
  | hears (entry : LogEntry)
  /-- The connection is given the response of a slot, or the canonical 404. -/
  | replays (winner : Option (Nat × HeldReply))
  /-- The connection goes on with what it was given, and notes this. -/
  | takes (notes : List Note)
  /-- The connection has answered. -/
  | answers (result : Delivery)
  /-- A loser of the decision is cancelled. -/
  | cancels (loser : Nat × HeldReply)
  /-- A response that was reported after the decision is cancelled. -/
  | cancelsLate (late : Nat × HeldReply)
  /-- The outcome is sent. -/
  | sends (result : Delivery) (awaited : Bool)

namespace Deed

/-- What a deed leaves in the journal. -/
def notes (opened : List String) : Deed → List Note
  | .hears entry => [.log entry]
  | .replays winner => [.log (Race.chosenEntry winner)]
  | .takes notes => notes
  | .answers _ => []
  | .cancels loser => .log (.cancellingLoser loser.1) :: (loser.2.cancel opened).notes
  | .cancelsLate late => .log (.reportedLate late.1) :: (late.2.cancel opened).notes
  | .sends _ awaited => if awaited then [] else [.log .outcomeUnawaited]

/-- What a deed does to the connection and to the outcome. -/
def carryOut (opened : List String) (left : Connection × Announcement) :
    Deed → Connection × Announcement
  | .replays winner => (left.1.give (Race.chosen winner), left.2)
  | .takes _ => ((left.1.poll opened).1, left.2)
  | .sends result true => (left.1, .announced result)
  | _ => left

end Deed

/-! ## Cancelling the losers -/

namespace Race

/-- The losers whose cancelling begins. Those after one that keeps the report busy for ever are not
reached. -/
def begun (opened : List String) : List (Nat × HeldReply) → List (Nat × HeldReply)
  | [] => []
  | loser :: rest =>
    loser :: if (loser.2.cancel opened).size.isSome then begun opened rest else []

section

variable (opened : List String) (losers : List (Nat × HeldReply))

theorem begun_prefix : begun opened losers <+: losers := by
  induction losers with
  | nil => exact List.prefix_rfl
  | cons loser rest ih =>
    rw [begun, List.prefix_cons_inj]
    split
    · exact ih
    · exact List.nil_prefix

theorem notes_cancelLosers : (cancelLosers opened losers).1 =
    ((begun opened losers).map Deed.cancels).flatMap (Deed.notes opened) := by
  induction losers with
  | nil => rfl
  | cons loser rest ih =>
    rw [cancelLosers] at ih ⊢
    rw [begun, List.map_cons, List.map_cons, List.flatMap_cons, Deed.notes]
    cases hsize : (loser.2.cancel opened).size with
    | none =>
      rw [HeldReply.cancelAll_of_stuck hsize, Option.isSome_none, if_neg Bool.false_ne_true,
        List.map_nil, List.flatMap_nil, List.append_nil, List.singleton_append]
    | some size =>
      rw [HeldReply.cancelAll_of_done hsize, ih, Option.isSome_some, if_pos rfl,
        List.singleton_append]

theorem begun_of_finished {losers : List (Nat × HeldReply)}
    (h : (cancelLosers opened losers).2 = true) : begun opened losers = losers := by
  induction losers with
  | nil => rfl
  | cons loser rest ih =>
    rw [cancelLosers, List.map_cons] at h
    rw [begun]
    cases hsize : (loser.2.cancel opened).size with
    | none =>
      rw [HeldReply.cancelAll_of_stuck hsize] at h
      cases h
    | some size =>
      rw [HeldReply.cancelAll_of_done hsize] at h
      rw [Option.isSome_some, if_pos rfl, ih h]

end

end Race

/-! ## The deeds of an action -/

/-- The deeds that a ruling calls for at once. -/
def Ruling.deeds (index : Nat) : Ruling → List Deed
  | .late (some response) => [.cancelsLate (index, response)]
  | .decided winner _ => [.replays winner]
  | _ => []

theorem Race.notes_cancelLate (opened : List String) (index : Nat) (response : Option HeldReply) :
    (cancelLate opened index response).1 =
      ((Ruling.late response).deeds index).flatMap (Deed.notes opened) := by
  cases response with
  | none => rfl
  | some held =>
    rw [cancelLate, Ruling.deeds, List.flatMap_singleton, Deed.notes]
    cases hsize : (held.cancel opened).size with
    | none =>
      rw [HeldReply.cancelAll_of_stuck hsize, List.singleton_append]
    | some size =>
      rw [HeldReply.cancelAll_of_done hsize, HeldReply.cancelAll_nil, List.append_nil,
        List.singleton_append]

/-- Whether somebody still waits for the outcome. -/
def Announcement.isAwaited : Announcement → Bool
  | .taken => false
  | _ => true

/-- The outcome after it was sent. -/
def Announcement.afterSending (result : Delivery) : Announcement → Announcement
  | .taken => .taken
  | _ => .announced result

theorem Announcement.afterSending_cases (result : Delivery) (outcome : Announcement) :
    outcome.afterSending result = .announced result ∨ outcome.afterSending result = .taken := by
  cases outcome with
  | taken => exact .inr rfl
  | «open» => exact .inl rfl
  | announced other => exact .inl rfl

namespace Board

/-- The deeds of a report. -/
def deedsOfReport (board : Board) (index : Nat) (result : Report) : List Deed :=
  let (_, entries, ruling) := board.race.report board.policy index result
  entries.map .hears ++ ruling.deeds index

/-- The deeds of an action, before the report that is being replayed goes on. -/
def deedsOfAct (board : Board) : BoardAction → List Deed
  | .report index result => if board.inUse then board.deedsOfReport index result else []
  | _ => []

/-- The deeds of the report that is being replayed, as it goes on. -/
def deedsOfAdvance (board : Board) : List Deed :=
  match board.replay with
  | none => []
  | some replay =>
    if replay.busy then []
    else
      let (connection, notes) := board.connection.poll board.gates
      .takes notes ::
        match connection.state with
        | .answered result =>
          .answers result :: (Race.begun board.gates replay.losers).map .cancels ++
            if (Race.cancelLosers board.gates replay.losers).2 then
              [.sends result board.outcome.isAwaited]
            else []
        | _ => []

/-- The board when one more action has begun. -/
def counted (board : Board) : Board := { board with actions := board.actions + 1 }

/-- The deeds of an action. -/
def deeds (board : Board) (action : BoardAction) : List Deed :=
  board.deedsOfAct action ++ (board.counted.act board.actions action).board.deedsOfAdvance

/-- The deeds of one action after the other. -/
def deedsIn : Board → List BoardAction → List (List Deed)
  | _, [] => []
  | board, action :: rest => board.deeds action :: (board.perform action).board.deedsIn rest

/-! ## How the report that is being replayed goes on -/

/-- **What comes of going on with the replay**, and by which deeds. -/
inductive Advances (board : Board) : List Deed → BoardTurn → Prop where
  | rests (hreplay : ∀ replay, board.replay = some replay → replay.busy = true) :
      Advances board [] (board.quietTurn .nothing)
  | goesOn {replay : Replay} {connection : Connection} {notes : List Note}
      (hreplay : board.replay = some replay) (hbusy : replay.busy = false)
      (hpoll : board.connection.poll board.gates = (connection, notes))
      (hanswered : ∀ result, connection.state ≠ .answered result)
      (hpanicked : ∀ message, connection.state ≠ .panicked message) :
      Advances board [.takes notes] ⟨{ board with connection := connection }, .nothing, notes, []⟩
  | breaks {replay : Replay} {connection : Connection} {notes : List Note} {message : String}
      (hreplay : board.replay = some replay) (hbusy : replay.busy = false)
      (hpoll : board.connection.poll board.gates = (connection, notes))
      (hstate : connection.state = .panicked message) :
      Advances board [.takes notes]
        ⟨{ board with connection := connection, replay := none }, .nothing, notes,
          [(replay.report, .panicked message)]⟩
  | stalls {replay : Replay} {connection : Connection} {notes : List Note} {result : Delivery}
      {losers : List (Nat × HeldReply)}
      (hreplay : board.replay = some replay) (hbusy : replay.busy = false)
      (hpoll : board.connection.poll board.gates = (connection, notes))
      (hstate : connection.state = .answered result) (hlosers : losers <+: replay.losers) :
      Advances board (.takes notes :: .answers result :: losers.map .cancels)
        ⟨{ board with connection := connection, replay := some ⟨replay.report, [], true⟩ },
          .nothing, notes ++ (losers.map Deed.cancels).flatMap (Deed.notes board.gates), []⟩
  | concludes {replay : Replay} {connection : Connection} {notes : List Note} {result : Delivery}
      (hreplay : board.replay = some replay) (hbusy : replay.busy = false)
      (hpoll : board.connection.poll board.gates = (connection, notes))
      (hstate : connection.state = .answered result) :
      Advances board
        (.takes notes :: .answers result ::
          (replay.losers.map .cancels ++ [.sends result board.outcome.isAwaited]))
        ⟨{ board with connection := connection, replay := none,
                      outcome := board.outcome.afterSending result }, .nothing,
          notes ++ ((replay.losers.map Deed.cancels).flatMap (Deed.notes board.gates) ++
            (Deed.sends result board.outcome.isAwaited).notes board.gates),
          [(replay.report, .done)]⟩

theorem conclude_of_finished {board : Board} {replay : Replay} (result : Delivery)
    (h : (Race.cancelLosers board.gates replay.losers).2 = true) :
    board.conclude replay result =
      ⟨{ board with replay := none, outcome := board.outcome.afterSending result }, .nothing,
        (Race.cancelLosers board.gates replay.losers).1 ++
          (Deed.sends result board.outcome.isAwaited).notes board.gates,
        [(replay.report, .done)]⟩ := by
  simp only [conclude, h]
  cases houtcome : board.outcome <;>
    simp [Announcement.isAwaited, Announcement.afterSending, Deed.notes]

theorem conclude_of_unfinished {board : Board} {replay : Replay} (result : Delivery)
    (h : (Race.cancelLosers board.gates replay.losers).2 = false) :
    board.conclude replay result =
      ⟨{ board with replay := some ⟨replay.report, [], true⟩ }, .nothing,
        (Race.cancelLosers board.gates replay.losers).1, []⟩ := by
  simp only [conclude, h]
  rfl

theorem advances_advance (board : Board) :
    Advances board board.deedsOfAdvance board.advance := by
  obtain ⟨policy, race, before, replay, busy, outcome, inUse, found, gates, actions⟩ := board
  cases replay with
  | none => exact .rests nofun
  | some replay =>
    simp only [deedsOfAdvance, advance]
    cases hbusy : replay.busy with
    | true => exact .rests fun _ h => by cases h; exact hbusy
    | false =>
      rcases hpoll : before.poll gates with ⟨connection, notes⟩
      rw [if_neg Bool.false_ne_true, if_neg Bool.false_ne_true]
      dsimp only
      cases hstate : connection.state with
      | unused => exact .goesOn rfl hbusy hpoll (by simp [hstate]) (by simp [hstate])
      | taking script => exact .goesOn rfl hbusy hpoll (by simp [hstate]) (by simp [hstate])
      | dropped => exact .goesOn rfl hbusy hpoll (by simp [hstate]) (by simp [hstate])
      | panicked message => exact .breaks rfl hbusy hpoll hstate
      | answered result =>
        cases hfinished : (Race.cancelLosers gates replay.losers).2 with
        | false =>
          dsimp only
          rw [conclude_of_unfinished result hfinished, Race.notes_cancelLosers,
            if_neg Bool.false_ne_true, List.append_nil]
          exact .stalls rfl hbusy hpoll hstate (Race.begun_prefix gates replay.losers)
        | true =>
          dsimp only
          rw [conclude_of_finished result hfinished, Race.notes_cancelLosers,
            Race.begun_of_finished gates hfinished, if_pos rfl]
          exact .concludes rfl hbusy hpoll hstate

/-! ## Deeds are what is done -/

/-- **A turn does what these deeds say**, in their order, with the connection and the outcome that
it finds on a board. -/
structure Does (board : Board) (deeds : List Deed) (turn : BoardTurn) : Prop where
  gates_eq : turn.board.gates = board.gates
  notes_eq : turn.notes = deeds.flatMap (Deed.notes board.gates)
  left_eq : (turn.board.connection, turn.board.outcome) =
    deeds.foldl (Deed.carryOut board.gates) (board.connection, board.outcome)

section

variable {board : Board}

theorem Does.append {deeds deeds' : List Deed} {turn turn' : BoardTurn} (h : Does board deeds turn)
    (h' : Does turn.board deeds' turn') (answer : BoardAnswer) (ended : List (Nat × ReportEnd)) :
    Does board (deeds ++ deeds') ⟨turn'.board, answer, turn.notes ++ turn'.notes, ended⟩ where
  gates_eq := h'.gates_eq.trans h.gates_eq
  notes_eq := by rw [h.notes_eq, h'.notes_eq, h.gates_eq, List.flatMap_append]
  left_eq := by rw [h'.left_eq, h.gates_eq, h.left_eq, List.foldl_append]

variable (opened : List String) (left : Connection × Announcement)

theorem foldl_carryOut_hears (entries : List LogEntry) :
    (entries.map Deed.hears).foldl (Deed.carryOut opened) left = left := by
  induction entries with
  | nil => rfl
  | cons entry rest ih => exact ih

theorem flatMap_notes_hears (entries : List LogEntry) :
    (entries.map Deed.hears).flatMap (Deed.notes opened) = entries.map .log := by
  induction entries with
  | nil => rfl
  | cons entry rest ih => exact congrArg (Note.log entry :: ·) ih

theorem foldl_carryOut_cancels (losers : List (Nat × HeldReply)) :
    (losers.map Deed.cancels).foldl (Deed.carryOut opened) left = left := by
  induction losers with
  | nil => rfl
  | cons loser rest ih => exact ih

theorem foldl_carryOut_late (index : Nat) (response : Option HeldReply) :
    ((Ruling.late response).deeds index).foldl (Deed.carryOut opened) left = left := by
  cases response <;> rfl

end

theorem does_report (board : Board) (number index : Nat) (result : Report) :
    Does board (board.deedsOfReport index result) (board.report number index result) := by
  rw [deedsOfReport, report]
  rcases board.race.report board.policy index result with ⟨race, entries, ruling⟩
  cases ruling with
  | undecided =>
    exact ⟨rfl, by simp [Ruling.deeds, flatMap_notes_hears],
      by simp [Ruling.deeds, foldl_carryOut_hears]⟩
  | panicked message =>
    exact ⟨rfl, by simp [Ruling.deeds, flatMap_notes_hears],
      by simp [Ruling.deeds, foldl_carryOut_hears]⟩
  | decided winner losers =>
    exact ⟨rfl, by simp [Ruling.deeds, flatMap_notes_hears, Deed.notes],
      by simp [Ruling.deeds, foldl_carryOut_hears, Deed.carryOut]⟩
  | late response =>
    have hnotes := Race.notes_cancelLate board.gates index response
    dsimp only
    split
    · exact ⟨rfl, by simp [flatMap_notes_hears, hnotes],
        by simp [foldl_carryOut_hears, foldl_carryOut_late]⟩
    · exact ⟨rfl, by simp [flatMap_notes_hears, hnotes],
        by simp [foldl_carryOut_hears, foldl_carryOut_late]⟩

/-- A board as it is when nothing but the deeds of an action is still to be done. -/
def prepared (board : Board) : BoardAction → Board
  | .report _ _ => board
  | action => (board.act board.actions action).board

theorem does_act (board : Board) (number : Nat) (action : BoardAction) :
    Does (board.prepared action) (board.deedsOfAct action) (board.act number action) := by
  cases action with
  | report index result =>
    rw [prepared, deedsOfAct, act]
    split
    · exact does_report board number index result
    · exact ⟨rfl, rfl, rfl⟩
  | openGate name => exact ⟨rfl, rfl, rfl⟩
  | close => exact ⟨rfl, rfl, rfl⟩
  | ignoreOutcome => exact ⟨rfl, rfl, rfl⟩
  | askOutcome => exact ⟨rfl, rfl, rfl⟩
  | look => exact ⟨rfl, rfl, rfl⟩
  | pass => exact ⟨rfl, rfl, rfl⟩

section

variable {board : Board} {deeds : List Deed} {turn : BoardTurn}

theorem Advances.does (h : Advances board deeds turn) : Does board deeds turn := by
  cases h with
  | rests hreplay => exact ⟨rfl, rfl, rfl⟩
  | goesOn hreplay hbusy hpoll hanswered hpanicked =>
    exact ⟨rfl, by simp [Deed.notes], by simp [Deed.carryOut, hpoll]⟩
  | breaks hreplay hbusy hpoll hstate =>
    exact ⟨rfl, by simp [Deed.notes], by simp [Deed.carryOut, hpoll]⟩
  | stalls hreplay hbusy hpoll hstate hlosers =>
    exact ⟨rfl, by simp [Deed.notes],
      by simp [Deed.carryOut, hpoll, foldl_carryOut_cancels]⟩
  | concludes hreplay hbusy hpoll hstate =>
    refine ⟨rfl, by simp [Deed.notes], ?_⟩
    cases houtcome : board.outcome <;>
      simp [Deed.carryOut, hpoll, foldl_carryOut_cancels, Announcement.isAwaited,
        Announcement.afterSending]

theorem Advances.answered (h : Advances board deeds turn) {result : Delivery}
    (hanswers : .answers result ∈ deeds) : turn.board.connection.state = .answered result := by
  cases h with
  | rests hreplay => simp at hanswers
  | goesOn hreplay hbusy hpoll hanswered hpanicked => simp at hanswers
  | breaks hreplay hbusy hpoll hstate => simp at hanswers
  | stalls hreplay hbusy hpoll hstate hlosers =>
    obtain rfl : result = _ := by simpa using hanswers
    exact hstate
  | concludes hreplay hbusy hpoll hstate =>
    obtain rfl : result = _ := by simpa using hanswers
    exact hstate

end

theorem answers_notMem_deedsOfAct (board : Board) (action : BoardAction) (result : Delivery) :
    .answers result ∉ board.deedsOfAct action := by
  cases action with
  | report index reported =>
    rw [deedsOfAct, deedsOfReport]
    rcases board.race.report board.policy index reported with ⟨race, entries, ruling⟩
    rcases ruling with _ | (_ | _) | _ | _ <;> simp [Ruling.deeds]
  | _ => exact List.not_mem_nil

/-- **An action does what its deeds say**, and the connection answers what they say. -/
structure CarriesOut (board : Board) (action : BoardAction) : Prop where
  does : Does (board.counted.prepared action) (board.deeds action) (board.perform action)
  answered : ∀ result, .answers result ∈ board.deeds action →
    (board.perform action).board.connection.state = .answered result

theorem carriesOut (board : Board) (action : BoardAction) : CarriesOut board action where
  does := (does_act board.counted board.actions action).append (advances_advance _).does _ _
  answered := fun result hanswers => by
    rcases List.mem_append.mp hanswers with hact | hadvance
    · exact absurd hact (answers_notMem_deedsOfAct board action result)
    · exact (advances_advance _).answered hadvance

end Board

end Switchboard
