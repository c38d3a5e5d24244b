import Switchboard.Proofs.Delivery.Contest
set_option autoImplicit false

/-! # Lanes of a broadcast

`Sending.slotReport?` is what a choice reports in the name of a slot, and so `reportsIn` is what the
race of a broadcast hears in a run. `Accounts` says of one lane that its slot reports what the lane
lets be seen first, and `LanesRun` says so of all lanes. It holds whatever the lanes do: a lane is
a run of its own, and nothing else is known of it.

A lane is the task that a `GroupResponse` spawns for a backend, and its slot the `SlotState` of that
task. -/

namespace Switchboard

/-! ## Steps of lanes -/

namespace Sending

theorem stepLane_eq (lanes : List Sending) (index : Nat) (path : Path) :
    stepLane lanes index path = (lanes[index]?).map fun lane =>
      (lane.step path, lanes.modify index fun lane => (lane.step path).next) := by
  induction lanes generalizing index with
  | nil => rw [stepLane, List.getElem?_nil, Option.map_none]
  | cons lane rest ih =>
    cases index with
    | zero => rw [stepLane, List.getElem?_cons_zero, Option.map_some, List.modify_zero_cons]
    | succ index =>
      rw [stepLane, ih, List.getElem?_cons_succ]
      cases rest[index]? with
      | none => rfl
      | some other => rw [Option.map_some, Option.map_some, List.modify_succ_cons]

theorem resumeLane_eq (response : Response) (lanes : List Sending) (index : Nat) :
    (resumeLane response lanes index).2.2 =
      lanes.modify index fun lane => (lane.resume response).next := by
  induction lanes generalizing index with
  | nil => rw [resumeLane, List.modify_nil]
  | cons lane rest ih =>
    cases index with
    | zero => rw [resumeLane, List.modify_zero_cons]
    | succ index => rw [resumeLane, List.modify_succ_cons, ← ih]

theorem endingBy_wrappedTurn (w : Wrapper) {t : Turn} (h : Run.endingBy t.signal = none) :
    Run.endingBy (wrappedTurn w t).signal = none := by
  unfold wrappedTurn
  cases hsignal : t.signal with
  | returned result => rw [hsignal] at h; cases h
  | panicked message => rw [hsignal] at h; cases h
  | _ => rfl

theorem endingBy_detachedTurn (name : String) (own : Bool) (t : Turn) :
    Run.endingBy (detachedTurn name own t).signal = none := by
  unfold detachedTurn
  cases t.signal with
  | returned result => cases own <;> rfl
  | _ => rfl

theorem endingBy_laneTurn (c : Contest) (index : Nat) (own : Bool) (t : Turn)
    (lanes : List Sending) : Run.endingBy (laneTurn c index own t lanes).signal = none := by
  unfold laneTurn
  cases t.signal with
  | delivers reply =>
    dsimp only
    obtain ⟨c, notes, reaction⟩ := c.receive index reply
    cases reaction <;> rfl
  | returned result =>
    cases own with
    | false => rfl
    | true =>
      dsimp only [if_true]
      obtain ⟨c, notes, reaction⟩ := c.closeSlot (some index) index result
      rcases reaction with (_ | _ | _) | _ <;> rfl
  | panicked message => cases own <;> rfl
  | _ => rfl

/-- Only the main task of a sending lets an end be seen. -/
theorem endingBy_step_cons (s : Sending) (index : Nat) (path : Path) :
    Run.endingBy (s.step (index :: path)).signal = none := by
  match s with
  | .wrapped w inner =>
    rw [step]
    exact endingBy_wrappedTurn w (endingBy_step_cons inner index path)
  | .detached name started inner =>
    rw [step]
    cases started with
    | false => rfl
    | true => exact endingBy_detachedTurn name path.isEmpty (inner.step path)
  | .broadcast c lanes =>
    rw [step]
    split
    · rfl
    · split
      · exact endingBy_laneTurn c index path.isEmpty _ _
      · rfl
  | .ended => rfl
  | .stalled => rfl
  | .returns _ => rfl
  | .panics _ => rfl
  | .note _ _ => rfl
  | .pause _ _ => rfl
  | .deliver _ => rfl
  | .delivered => rfl

theorem path_eq_nil_of_endingBy {s : Sending} {path : Path}
    (h : Run.endingBy (s.step path).signal ≠ none) : path = [] := by
  cases path with
  | nil => rfl
  | cons index path => exact absurd (s.endingBy_step_cons index path) h

/-! ## Reports -/

/-- What a step of a lane reports. The flag says that it was the task of the lane itself. -/
def laneReport? (own : Bool) : Signal → Option Report
  | .delivers reply => some (.ok reply)
  | .returned result => if own then some (.error (Contest.failureOf result)) else none
  | _ => none

/-- What the main task of a broadcast reports in the name of a lane that has panicked. -/
def mainReport? (c : Contest) (lanes : Nat) : Option (Nat × Report) :=
  match c.main with
  | .closing index =>
    if c.replay.any (·.owner.isNone) || lanes ≤ index then none
    else
      match c.phaseOf index with
      | .ended (some message) =>
        some (index, .error (.closed ("backend task aborted: " ++
          Contest.abortCause (quoted message))))
      | _ => none
  | _ => none

/-- What a choice reports, and the slot in whose name. -/
def slotReport? : Sending → Choice → Option (Nat × Report)
  | .broadcast c lanes, .task [] => mainReport? c lanes.length
  | .broadcast c lanes, .task (index :: path) =>
    if laneBlocks c index path then none
    else
      (lanes[index]?).bind fun lane =>
        (laneReport? path.isEmpty (lane.step path).signal).map (index, ·)
  | _, _ => none

/-- What the slots report while a sending makes choices. -/
def reportsIn : Sending → List Choice → List (Nat × Report)
  | _, [] => []
  | s, choice :: rest => (s.slotReport? choice).toList ++ reportsIn (s.after choice) rest

/-- What was told after one more choice. -/
theorem foldl_reportsIn_cons (told : List (Option Report)) (s : Sending) (choice : Choice)
    (rest : List Choice) :
    (s.reportsIn (choice :: rest)).foldl Contest.tellFirst told =
      ((s.after choice).reportsIn rest).foldl Contest.tellFirst
        (Contest.tell? told (s.slotReport? choice)) := by
  rw [reportsIn, List.foldl_append]
  cases s.slotReport? choice <;> rfl

end Sending

/-! ## Lanes -/

/-- **What the slot of a lane has to do with the run of that lane.** It reports the response that
the lane delivers first, or a failure once the lane has come to its end without one. -/
structure Accounts (run : Run) (told : Option Report) (phase : LanePhase) : Prop where
  quiet : told = none → run.delivered = [] ∧ ∀ result, run.ending ≠ some (.returned result)
  first : ∀ reply, told = some (.ok reply) → run.delivered.head? = some reply
  failed : ∀ cause, told = some (.error cause) → run.ending ≠ none
  running_iff : phase = .running ↔ run.ending = none

section

variable {run : Run} {told : Option Report} {phase : LanePhase}

theorem accounts_start (s : Sending) : Accounts (Run.start s) none .running where
  quiet := fun _ => ⟨rfl, fun _ h => by cases h⟩
  first := fun _ h => by cases h
  failed := fun _ h => by cases h
  running_iff := ⟨fun _ => rfl, fun _ => rfl⟩

theorem Accounts.answer (h : Accounts run told phase) (response : Response) :
    Accounts (run.choose (.answer response)) told phase :=
  ⟨h.quiet, h.first, h.failed, h.running_iff⟩

theorem Run.ending_choose_eq_none (run : Run) (path : Path) :
    (run.choose (.task path)).ending = none ↔
      run.ending = none ∧ Run.endingBy (run.sending.step path).signal = none := by
  rw [Run.choose]
  cases run.ending with
  | none => simp
  | some ending => simp

/-- The run of a lane has come to its end for good. -/
theorem Run.ending_choose_ne_none {path : Path} (h : run.ending ≠ none) :
    (run.choose (.task path)).ending ≠ none := fun hnone =>
  h ((run.ending_choose_eq_none path).mp hnone).1

/-- **A step of a lane.** -/
theorem Accounts.step (h : Accounts run told phase) (path : Path) {phase' : LanePhase}
    (hphase : phase' = .running ↔
      phase = .running ∧ Run.endingBy (run.sending.step path).signal = none) :
    Accounts (run.choose (.task path))
      (told <|> Sending.laneReport? path.isEmpty (run.sending.step path).signal) phase' := by
  have hrunning : phase' = .running ↔ (run.choose (.task path)).ending = none := by
    rw [hphase, run.ending_choose_eq_none, h.running_iff]
  cases told with
  -- The slot has reported. The run keeps what it has delivered first, and its end.
  | some result =>
    refine ⟨by simp, fun reply htold => ?_, fun cause htold => ?_, hrunning⟩
    · have hfirst := h.first reply htold
      rw [Run.choose, List.head?_append, hfirst]
      rfl
    · exact Run.ending_choose_ne_none (h.failed cause htold)
  | none =>
    obtain ⟨hdelivered, hreturned⟩ := h.quiet rfl
    have hending : (run.choose (.task path)).ending =
        (run.ending <|> Run.endingBy (run.sending.step path).signal) := rfl
    have hnext : (run.choose (.task path)).delivered =
        Run.deliveredBy (run.sending.step path).signal := by
      rw [Run.choose, hdelivered, List.nil_append]
    cases hsignal : (run.sending.step path).signal with
    | delivers reply =>
      rw [hsignal] at hnext
      refine ⟨by simp [Sending.laneReport?], fun other htold => ?_, by simp [Sending.laneReport?],
        hrunning⟩
      cases htold
      rw [hnext]
      rfl
    | returned result =>
      obtain rfl : path = [] :=
        Sending.path_eq_nil_of_endingBy (by rw [hsignal]; simp [Run.endingBy])
      refine ⟨by simp [Sending.laneReport?], by simp [Sending.laneReport?], fun _ _ => ?_, hrunning⟩
      rw [hending, hsignal]
      cases run.ending <;> exact fun heq => by cases heq
    -- Nothing is reported, and the run has returned now only if it had before.
    | _ =>
      rw [hsignal] at hnext hending
      refine ⟨fun _ => ⟨hnext, fun result heq => ?_⟩, by simp [Sending.laneReport?],
        by simp [Sending.laneReport?], hrunning⟩
      rw [hending] at heq
      have hquiet := hreturned result
      cases hbefore : run.ending with
      | none =>
        rw [hbefore] at heq
        cases heq
      | some ending =>
        rw [hbefore] at heq hquiet
        exact hquiet heq

/-- A lane that has come to its end. -/
theorem Accounts.setPhase (h : Accounts run told phase) (hphase : phase ≠ .running)
    {phase' : LanePhase} (hphase' : phase' ≠ .running) : Accounts run told phase' :=
  ⟨h.quiet, h.first, h.failed,
    iff_of_false hphase' fun hnone => hphase (h.running_iff.mpr hnone)⟩

/-- A lane that is over without a report. -/
theorem Accounts.fail (h : Accounts run told phase) (hphase : phase ≠ .running)
    (cause : SendError) : Accounts run (told <|> some (.error cause)) phase := by
  cases told with
  | some result => exact h
  | none =>
    exact ⟨by simp, by simp, fun _ _ hnone => hphase (h.running_iff.mpr hnone), h.running_iff⟩

end

open Contest (tellFirst tell? length_tell? getElem?_tell?_self getElem?_tell?_ne)

/-- **The lanes of a broadcast.** Each of them is a run of its own, and its slot accounts for it. -/
structure LanesRun (starts : List Sending) (told : List (Option Report))
    (phaseOf : Nat → LanePhase) (lanes : List Sending) : Prop where
  length_eq : lanes.length = starts.length
  length_told : told.length = starts.length
  accounts : ∀ (index : Nat) (start : Sending) (result : Option Report),
    starts[index]? = some start → told[index]? = some result → ∃ own : List Choice,
      lanes[index]? = some ((Run.start start).choices own).sending ∧
        Accounts ((Run.start start).choices own) result (phaseOf index)

section

variable {starts lanes : List Sending} {told : List (Option Report)} {phaseOf : Nat → LanePhase}

theorem lanesRun_start (starts : List Sending) {phaseOf : Nat → LanePhase}
    (hphase : ∀ index < starts.length, phaseOf index = .running) :
    LanesRun starts (List.replicate starts.length none) phaseOf starts where
  length_eq := rfl
  length_told := List.length_replicate
  accounts := by
    intro index start result hstart htold
    rw [List.getElem?_replicate] at htold
    split at htold
    · next hlt =>
      cases htold
      rw [hphase index hlt]
      exact ⟨[], hstart, accounts_start start⟩
    · cases htold

/-- One lane goes on, and nothing changes for the others. -/
theorem LanesRun.update (h : LanesRun starts told phaseOf lanes) {told' : List (Option Report)}
    {phaseOf' : Nat → LanePhase} {index : Nat} {next : Sending → Sending}
    (hlength : told'.length = told.length)
    (hother : ∀ other, other ≠ index →
      told'[other]? = told[other]? ∧ phaseOf' other = phaseOf other)
    (hindex : ∀ run result, told[index]? = some result → lanes[index]? = some run.sending →
      Accounts run result (phaseOf index) → ∃ (result' : Option Report) (own : List Choice),
        told'[index]? = some result' ∧ next run.sending = (run.choices own).sending ∧
          Accounts (run.choices own) result' (phaseOf' index)) :
    LanesRun starts told' phaseOf' (lanes.modify index next) where
  length_eq := by rw [List.length_modify, h.length_eq]
  length_told := hlength.trans h.length_told
  accounts := by
    intro other start result hstart htold
    by_cases hne : other = index
    · subst hne
      have hlt : other < told.length := by
        rw [← hlength]
        exact (List.getElem?_eq_some_iff.mp htold).1
      obtain ⟨own, hlane, haccounts⟩ :=
        h.accounts other start told[other] hstart (List.getElem?_eq_getElem hlt)
      obtain ⟨result', more, htold', hnext, haccounts'⟩ :=
        hindex _ _ (List.getElem?_eq_getElem hlt) hlane haccounts
      rw [htold, Option.some.injEq] at htold'
      refine ⟨own ++ more, ?_, ?_⟩
      · rw [List.getElem?_modify_eq, hlane, Run.choices_append, Option.map_eq_map, Option.map_some,
          hnext]
      · rw [Run.choices_append, htold']
        exact haccounts'
    · obtain ⟨htold', hphase⟩ := hother other hne
      rw [htold'] at htold
      obtain ⟨own, hlane, haccounts⟩ := h.accounts other start result hstart htold
      refine ⟨own, ?_, ?_⟩
      · rw [List.getElem?_modify_ne _ _ (Ne.symm hne)]
        exact hlane
      · rwa [hphase]

/-- The slots have to account for the lanes after a change of what is known. -/
theorem LanesRun.congr (h : LanesRun starts told phaseOf lanes) {told' : List (Option Report)}
    {phaseOf' : Nat → LanePhase} {index : Nat} (hlength : told'.length = told.length)
    (hother : ∀ other, other ≠ index →
      told'[other]? = told[other]? ∧ phaseOf' other = phaseOf other)
    (hindex : ∀ run result, told[index]? = some result → Accounts run result (phaseOf index) →
      ∃ result' : Option Report, told'[index]? = some result' ∧
        Accounts run result' (phaseOf' index)) :
    LanesRun starts told' phaseOf' lanes := by
  have hupdate : LanesRun starts told' phaseOf' (lanes.modify index id) := by
    refine h.update hlength hother fun run result htold _ haccounts => ?_
    obtain ⟨result', htold', haccounts'⟩ := hindex run result htold haccounts
    exact ⟨result', [], htold', rfl, haccounts'⟩
  rwa [List.modify_id] at hupdate

/-- A lane does one thing. -/
theorem LanesRun.step (h : LanesRun starts told phaseOf lanes) {index : Nat} {lane : Sending}
    (hlane : lanes[index]? = some lane) (path : Path) (phaseOf' : Nat → LanePhase)
    (hother : ∀ other, other ≠ index → phaseOf' other = phaseOf other)
    (hindex : phaseOf' index = .running ↔
      phaseOf index = .running ∧ Run.endingBy (lane.step path).signal = none) :
    LanesRun starts
      (tell? told ((Sending.laneReport? path.isEmpty (lane.step path).signal).map (index, ·)))
      phaseOf' (lanes.modify index fun lane => (lane.step path).next) := by
  refine h.update (length_tell? _ _) (fun other hne => ⟨?_, hother other hne⟩)
    fun run result htold hrun haccounts => ?_
  · exact getElem?_tell?_ne _ _ hne
  · obtain rfl : lane = run.sending := by
      rw [hlane, Option.some.injEq] at hrun
      exact hrun
    refine ⟨result <|> Sending.laneReport? path.isEmpty (run.sending.step path).signal,
      [.task path], ?_, rfl, haccounts.step path hindex⟩
    rw [getElem?_tell?_self, htold, Option.map_some]

/-- The connection of a lane answers. -/
theorem LanesRun.answer (h : LanesRun starts told phaseOf lanes) (index : Nat)
    (response : Response) :
    LanesRun starts told phaseOf
      (lanes.modify index fun lane => (lane.resume response).next) :=
  h.update rfl (fun _ _ => ⟨rfl, rfl⟩) fun _ result htold _ haccounts =>
    ⟨result, [.answer response], htold, rfl, haccounts.answer response⟩

/-- A lane goes on without coming to its end. -/
theorem LanesRun.stepOn (h : LanesRun starts told phaseOf lanes)
    {index : Nat} {lane : Sending} (hlane : lanes[index]? = some lane) (path : Path)
    (hending : Run.endingBy (lane.step path).signal = none) {phaseOf' : Nat → LanePhase}
    (hsame : ∀ other, phaseOf' other = phaseOf other) :
    LanesRun starts
      (tell? told ((Sending.laneReport? path.isEmpty (lane.step path).signal).map (index, ·)))
      phaseOf' (lanes.modify index fun lane => (lane.step path).next) :=
  h.step hlane path phaseOf' (fun other _ => hsame other) (by simp [hsame, hending])

/-- A lane comes to its end. -/
theorem LanesRun.stepOver (h : LanesRun starts told phaseOf lanes)
    {index : Nat} {lane : Sending} (hlane : lanes[index]? = some lane) {path : Path}
    (hending : Run.endingBy (lane.step path).signal ≠ none) {phaseOf' : Nat → LanePhase}
    (hother : ∀ other, other ≠ index → phaseOf' other = phaseOf other)
    (hphase : phaseOf' index ≠ .running) :
    LanesRun starts
      (tell? told ((Sending.laneReport? path.isEmpty (lane.step path).signal).map (index, ·)))
      phaseOf' (lanes.modify index fun lane => (lane.step path).next) :=
  h.step hlane path phaseOf' hother (iff_of_false hphase fun h => hending h.2)

/-- The main task reports in the name of a lane that is over without a report. -/
theorem LanesRun.abort (h : LanesRun starts told phaseOf lanes)
    {index : Nat} (hphase : phaseOf index ≠ .running) (cause : SendError) :
    LanesRun starts (tellFirst told (index, .error cause)) phaseOf lanes := by
  refine h.congr (Contest.length_tellFirst _) (fun other hne =>
    ⟨Contest.getElem?_tellFirst_ne told hne, rfl⟩) fun run result htold haccounts => ?_
  exact ⟨result <|> some (.error cause),
    by rw [Contest.getElem?_tellFirst_self, htold, Option.map_some], haccounts.fail hphase cause⟩

end

end Switchboard
