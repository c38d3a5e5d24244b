import Switchboard.Proofs.Delivery.Lanes
set_option autoImplicit false

/-! # What a choice does to a broadcast

`Moves` lists everything that one choice can do to a broadcast: to its contest, to the connection,
and to its lanes. `Sending.going` says which lane goes on with a choice, and by which choices of its
own, so that the lanes after a choice are known as well (`goOn`). `moves_after` is the case split of
the step function; what holds of every run of a broadcast, whatever the policy and the connection
do, is shown by going through `Moves`.

The broadcast is a `GroupResponse` that is being sent. -/

namespace Switchboard

/-! ## Lanes that go on -/

/-- The responses that a reaction gives to the connection. -/
def Reaction.delivered : Reaction → List Reply
  | .replays reply => [reply]
  | .answers _ => []

/-- How a lane is answered at once after it has delivered. -/
def Reaction.choices : Reaction → List Choice
  | .replays _ => []
  | .answers response => [.answer response]

namespace Sending

/-- The responses that a choice gives to the connection. -/
def gives (s : Sending) : Choice → List Reply
  | .task path => Run.deliveredBy (s.step path).signal
  | .answer _ => []

/-- The end of the main task that a choice shows. -/
def ends? (s : Sending) : Choice → Option Ending
  | .task path => Run.endingBy (s.step path).signal
  | .answer _ => none

end Sending

theorem Run.delivered_choose (r : Run) (choice : Choice) :
    (r.choose choice).delivered = r.delivered ++ r.sending.gives choice := by
  cases choice with
  | task path => rfl
  | answer response => exact (List.append_nil _).symm

theorem Run.ending_choose (r : Run) (choice : Choice) :
    (r.choose choice).ending = (r.ending <|> r.sending.ends? choice) := by
  cases choice with
  | task path => rfl
  | answer response => cases hending : r.ending <;> simp [Run.choose, Sending.ends?, hending]

namespace Sending

/-- A sending after choices. -/
def afterAll (s : Sending) (choices : List Choice) : Sending := choices.foldl after s

@[simp] theorem afterAll_nil (s : Sending) : s.afterAll [] = s := rfl

@[simp] theorem afterAll_cons (s : Sending) (choice : Choice) (rest : List Choice) :
    s.afterAll (choice :: rest) = (s.after choice).afterAll rest := rfl

theorem afterAll_append (s : Sending) (first next : List Choice) :
    s.afterAll (first ++ next) = (s.afterAll first).afterAll next := List.foldl_append

end Sending

namespace Run

theorem sending_choices (r : Run) (choices : List Choice) :
    (r.choices choices).sending = r.sending.afterAll choices := by
  induction choices generalizing r with
  | nil => rfl
  | cons choice rest ih =>
    rw [Sending.afterAll_cons, ← sending_choose]
    exact ih (r.choose choice)

/-- What a run lets be seen from now on does not depend on what it has let be seen before. -/
theorem seen_choices (r : Run) (choices : List Choice) :
    (r.choices choices).delivered =
        r.delivered ++ ((start r.sending).choices choices).delivered ∧
      (r.choices choices).ending =
        (r.ending <|> ((start r.sending).choices choices).ending) := by
  induction choices generalizing r with
  | nil =>
    refine ⟨(List.append_nil _).symm, ?_⟩
    rw [choices, choices, List.foldl_nil, List.foldl_nil, start]
    cases r.ending <;> rfl
  | cons choice rest ih =>
    obtain ⟨hdelivered, hending⟩ := ih (r.choose choice)
    obtain ⟨hdelivered', hending'⟩ := ih ((start r.sending).choose choice)
    have hsending : ((start r.sending).choose choice).sending = (r.choose choice).sending := by
      rw [sending_choose, sending_choose, start]
    rw [hsending, delivered_choose] at hdelivered'
    rw [hsending, ending_choose] at hending'
    rw [delivered_choose, List.append_assoc] at hdelivered
    rw [ending_choose] at hending
    constructor
    · exact hdelivered.trans (congrArg _ hdelivered'.symm)
    · refine hending.trans ?_
      have hstart : ((start r.sending).choices (choice :: rest)).ending =
          (((start r.sending).choose choice).choices rest).ending := rfl
      rw [hstart, hending', start]
      cases r.ending <;> rfl

end Run

namespace Sending

/-- The lane that goes on with a choice, and the choices of its own by which it does. -/
def going : Sending → Choice → Option (Nat × List Choice)
  | .broadcast c lanes, .task (index :: path) =>
    if laneBlocks c index path then none
    else
      (lanes[index]?).map fun lane =>
        match (lane.step path).signal with
        | .delivers reply => (index, .task path :: (c.receive index reply).2.2.choices)
        | _ => (index, [.task path])
  | .broadcast c _, .answer response =>
    match c.replay with
    | some ⟨some index, losers⟩ =>
      let (concluded, _, answer) := c.conclude ⟨some index, losers⟩ response
      match concluded.phaseOf index with
      | .replaying => none
      | _ => some (index, [.answer answer])
    | _ => none
  | _, _ => none

/-- The choices of its own by which a lane goes on, when this is what goes on. -/
def ownOf : Option (Nat × List Choice) → Nat → List Choice
  | none, _ => []
  | some (other, own), index => if other = index then own else []

/-- The choices of its own by which a lane goes on with a choice. -/
def goingOf (s : Sending) (choice : Choice) (index : Nat) : List Choice :=
  ownOf (s.going choice) index

/-- The choices of its own by which a lane goes on while a sending makes choices. -/
def ownIn : Sending → List Choice → Nat → List Choice
  | _, [], _ => []
  | s, choice :: rest, index => s.goingOf choice index ++ (s.after choice).ownIn rest index

/-- The lanes when one of them has gone on. -/
def goOn (lanes : List Sending) : Option (Nat × List Choice) → List Sending
  | none => lanes
  | some (index, own) => lanes.modify index fun lane => lane.afterAll own

@[simp] theorem length_goOn (lanes : List Sending) (going : Option (Nat × List Choice)) :
    (goOn lanes going).length = lanes.length := by
  rcases going with _ | ⟨index, own⟩
  · rfl
  · exact List.length_modify _ _ _

/-- Each lane has gone on by the choices of its own. -/
theorem getElem?_goOn (lanes : List Sending) (going : Option (Nat × List Choice)) (index : Nat) :
    (goOn lanes going)[index]? = (lanes[index]?).map (·.afterAll (ownOf going index)) := by
  rcases going with _ | ⟨other, own⟩
  · simp [goOn, ownOf, afterAll]
  · rw [goOn, List.getElem?_modify, ownOf]
    by_cases hsame : other = index
    · simp [hsame]
    · simp [hsame, afterAll]

end Sending

/-! ## The main task -/

namespace Contest

/-- The result with which the main task leaves. -/
def result (c : Contest) : Delivery :=
  match c.verdict with
  | .announced result => result
  | _ => .error (.closed "race dropped before it was decided")

/-- The main task replays the chosen response itself. -/
def replaysItself (c : Contest) : Bool := c.replay.any (·.owner.isNone)

/-- **Where the main task goes by itself**, with this many lanes, and the end that it comes to. -/
inductive MainGoes (c : Contest) (lanes : Nat) : MainPhase → Option Ending → Prop where
  | spawns (hmain : c.main = .spawning none) : MainGoes c lanes c.afterSpawning none
  | breaks {message : String} (hmain : c.main = .spawning (some message)) :
      MainGoes c lanes (.panicking message) none
  | yields (hmain : c.main = .yielding) : MainGoes c lanes (.joining 0) none
  | joins {seen : Nat} (hmain : c.main = .joining seen) (hseen : seen < c.overCount) :
      MainGoes c lanes (.joining (seen + 1)) none
  | closes {seen : Nat} (hmain : c.main = .joining seen) (hover : c.allOver = true) :
      MainGoes c lanes (.closing 0) none
  | passes {index : Nat} (hmain : c.main = .closing index) (hown : c.replaysItself = false)
      (hlt : index < lanes) (hphase : ∀ message, c.phaseOf index ≠ .ended (some message)) :
      MainGoes c lanes (.closing (index + 1)) none
  | awaits {index : Nat} (hmain : c.main = .closing index) (hown : c.replaysItself = false)
      (hle : lanes ≤ index) : MainGoes c lanes .awaiting none
  | notices (hmain : c.main = .awaiting) (hverdict : c.verdict ≠ .open) :
      MainGoes c lanes .leaving none
  | leaves (hmain : c.main = .leaving) : MainGoes c lanes .gone (some (.returned c.result))
  | panics {message : String} (hmain : c.main = .panicking message) :
      MainGoes c lanes .gone (some (.panicked message))

/-- **Why the main task rests**: it waits for a lane, for its own replay, or for the verdict, or it
is gone. -/
inductive MainRests (c : Contest) : Prop where
  | lanes {seen : Nat} (hmain : c.main = .joining seen) (hseen : c.overCount ≤ seen)
      (hover : c.allOver = false)
  | replay {index : Nat} (hmain : c.main = .closing index) (hown : c.replaysItself = true)
  | verdict (hmain : c.main = .awaiting) (hverdict : c.verdict = .open)
  | gone (hmain : c.main = .gone)

/-- The main task after what it did for a slot has been answered. -/
def mainTold (c : Contest) : Reaction → Contest
  | .answers (.unwinds message) => { c with main := .panicking message }
  | _ => c

/-- A lane that has come back after what it did for its slot has been answered. -/
def laneTold (c : Contest) (index : Nat) : Reaction → Contest
  | .replays _ => c.setPhase index .replaying
  | .answers (.result _) => c.setPhase index (.ended none)
  | .answers (.unwinds message) => c.setPhase index (.ended (some message))
  | .answers .never => c

end Contest

/-! ## Choices -/

open Sending (laneBlocks)

/-- **What a choice does to a broadcast**: the lane that goes on, what happens at a slot, what the
connection is given, the end of the main task, and the contest that is left. -/
inductive Moves (c : Contest) (lanes : List Sending) :
    Choice → Option (Nat × List Choice) → Option (Nat × Report) → List Reply → Option Ending →
      Contest → Prop where
  | mainRests (h : c.MainRests) : Moves c lanes (.task []) none none [] none c
  | laneRests {index : Nat} {path : Path}
      (h : laneBlocks c index path = true ∨ lanes[index]? = none) :
      Moves c lanes (.task (index :: path)) none none [] none c
  /-- An answer that nobody waits for. -/
  | ignores {response : Response} (hreplay : c.replay = none) :
      Moves c lanes (.answer response) none none [] none c
  | main {main : MainPhase} {ending : Option Ending} (h : c.MainGoes lanes.length main ending) :
      Moves c lanes (.task []) none none [] ending { c with main := main }
  /-- The main task closes the slot of a lane that has panicked. -/
  | closes {index : Nat} {message : String} {cause : SendError}
      {closed : Contest × List Note × Reaction} (hmain : c.main = .closing index)
      (hown : c.replaysItself = false) (hlt : index < lanes.length)
      (hphase : c.phaseOf index = .ended (some message))
      (hclosed :
        { c with main := .closing (index + 1) }.closeSlot none index (.error cause) = closed) :
      Moves c lanes (.task []) none (some (index, .error cause)) closed.2.2.delivered none
        (closed.1.mainTold closed.2.2)
  /-- A lane does something that its slot does not notice. -/
  | runs {index : Nat} {path : Path} {lane : Sending} (hfree : laneBlocks c index path = false)
      (hlane : lanes[index]? = some lane)
      (hdelivered : Run.deliveredBy (lane.step path).signal = [])
      (hending : Run.endingBy (lane.step path).signal = none) :
      Moves c lanes (.task (index :: path)) (some (index, [.task path])) none [] none c
  | delivers {index : Nat} {path : Path} {lane : Sending} {reply : Reply}
      {received : Contest × List Note × Reaction} (hfree : laneBlocks c index path = false)
      (hlane : lanes[index]? = some lane) (hsignal : (lane.step path).signal = .delivers reply)
      (hreceived : c.receive index reply = received) :
      Moves c lanes (.task (index :: path)) (some (index, .task path :: received.2.2.choices))
        (some (index, .ok reply)) received.2.2.delivered none received.1
  | returns {index : Nat} {lane : Sending} {result : Delivery}
      {closed : Contest × List Note × Reaction} (hfree : laneBlocks c index [] = false)
      (hlane : lanes[index]? = some lane) (hsignal : (lane.step []).signal = .returned result)
      (hclosed : c.closeSlot (some index) index result = closed) :
      Moves c lanes (.task [index]) (some (index, [.task []]))
        (some (index, .error (Contest.failureOf result))) closed.2.2.delivered none
        (closed.1.laneTold index closed.2.2)
  | panics {index : Nat} {lane : Sending} {message : String}
      (hfree : laneBlocks c index [] = false) (hlane : lanes[index]? = some lane)
      (hsignal : (lane.step []).signal = .panicked message) :
      Moves c lanes (.task [index]) (some (index, [.task []])) none [] none
        (c.setPhase index (.ended (some message)))
  /-- The connection answers a replay of the main task. -/
  | answersMain {response : Response} {losers : List (Nat × HeldReply)}
      {concluded : Contest × List Note × Response} (hreplay : c.replay = some ⟨none, losers⟩)
      (hconcluded : c.conclude ⟨none, losers⟩ response = concluded) :
      Moves c lanes (.answer response) none none [] none
        (concluded.1.mainTold (.answers concluded.2.2))
  /-- The connection answers the replay of a lane that has come back. -/
  | answersReplay {response : Response} {index : Nat} {losers : List (Nat × HeldReply)}
      {concluded : Contest × List Note × Response} (hreplay : c.replay = some ⟨some index, losers⟩)
      (hconcluded : c.conclude ⟨some index, losers⟩ response = concluded)
      (hphase : concluded.1.phaseOf index = .replaying) :
      Moves c lanes (.answer response) none none [] none
        (concluded.1.laneTold index (.answers concluded.2.2))
  /-- The connection answers the response that a lane has delivered. -/
  | answersLane {response : Response} {index : Nat} {losers : List (Nat × HeldReply)}
      {concluded : Contest × List Note × Response} (hreplay : c.replay = some ⟨some index, losers⟩)
      (hconcluded : c.conclude ⟨some index, losers⟩ response = concluded)
      (hphase : concluded.1.phaseOf index ≠ .replaying) :
      Moves c lanes (.answer response) (some (index, [.answer concluded.2.2])) none [] none
        concluded.1

/-- The main task leaves the verdict to whoever replays the response. -/
theorem Moves.verdict_eq_of_main {c c' : Contest} {lanes : List Sending}
    {going : Option (Nat × List Choice)} {report : Option (Nat × Report)} {gives : List Reply}
    {ends : Option Ending} (h : Moves c lanes (.task []) going report gives ends c') :
    c'.verdict = c.verdict := by
  cases h with
  | mainRests hrests => rfl
  | main hgoes => rfl
  | @closes index message cause closed hmain hown hlt hphase hclosed =>
    have hsame := Contest.sameTasks_of_closeSlot hclosed
    have htold : (closed.1.mainTold closed.2.2).verdict = closed.1.verdict := by
      rcases closed.2.2 with (_ | _ | _) | _ <;> rfl
    exact htold.trans hsame.verdict_eq

/-- Only lanes have slots at which something happens. -/
theorem Moves.lt_of_report {c c' : Contest} {lanes : List Sending} {choice : Choice}
    {going : Option (Nat × List Choice)} {report : Nat × Report} {gives : List Reply}
    {ends : Option Ending} (h : Moves c lanes choice going (some report) gives ends c') :
    report.1 < lanes.length := by
  generalize hreport : some report = reports at h
  cases h with
  | closes hmain hown hlt hphase hclosed =>
    cases hreport
    exact hlt
  | delivers hfree hlane hsignal hreceived =>
    cases hreport
    exact (List.getElem?_eq_some_iff.mp hlane).1
  | returns hfree hlane hsignal hclosed =>
    cases hreport
    exact (List.getElem?_eq_some_iff.mp hlane).1
  | _ => cases hreport

namespace Sending

section

variable {c : Contest} {lanes : List Sending}

theorem stepMain_of_verdict (hmain : c.main = .awaiting) (hverdict : c.verdict ≠ .open) :
    stepMain c lanes =
      ⟨[], .noticed 0 false, [], [], .broadcast { c with main := .leaving } lanes⟩ := by
  rw [stepMain, hmain]
  dsimp only
  split
  · next hopen => exact absurd hopen hverdict
  · rfl

/-- The main task does one thing. -/
theorem moves_stepMain (c : Contest) (lanes : List Sending) :
    ∃ c', (stepMain c lanes).next = .broadcast c' lanes ∧
      Moves c lanes (.task []) none (mainReport? c lanes.length)
        (Run.deliveredBy (stepMain c lanes).signal)
        (Run.endingBy (stepMain c lanes).signal) c' := by
  cases hmain : c.main with
  | spawning panic =>
    rw [mainReport?, stepMain, hmain]
    cases panic with
    | none => exact ⟨_, rfl, .main (.spawns hmain)⟩
    | some message => exact ⟨_, rfl, .main (.breaks hmain)⟩
  | yielding =>
    rw [mainReport?, stepMain, hmain]
    exact ⟨_, rfl, .main (.yields hmain)⟩
  | joining seen =>
    rw [mainReport?, stepMain, hmain]
    dsimp only
    split
    · next hseen => exact ⟨_, rfl, .main (.joins hmain hseen)⟩
    · split
      · next hover => exact ⟨_, rfl, .main (.closes hmain hover)⟩
      · next hseen hover =>
        exact ⟨_, rfl,
          .mainRests (.lanes hmain (Nat.le_of_not_lt hseen) (eq_false_of_ne_true hover))⟩
  | closing index =>
    rw [mainReport?, stepMain, hmain]
    dsimp only
    cases hown : c.replaysItself with
    | true =>
      have hown' := hown
      rw [Contest.replaysItself] at hown'
      rw [hown', Bool.true_or, if_pos rfl, if_pos rfl]
      exact ⟨_, rfl, .mainRests (.replay hmain hown)⟩
    | false =>
      have hown' := hown
      rw [Contest.replaysItself] at hown'
      rw [hown', Bool.false_or, if_neg Bool.false_ne_true]
      by_cases hle : lanes.length ≤ index
      · rw [if_pos hle, if_pos (decide_eq_true hle)]
        exact ⟨_, rfl, .main (.awaits hmain hown hle)⟩
      · rw [if_neg hle, if_neg (by simpa using hle)]
        have hlt := Nat.lt_of_not_le hle
        have hpasses (hphase : ∀ message, c.phaseOf index ≠ .ended (some message)) :
            Moves c lanes _ none none [] none _ := .main (.passes hmain hown hlt hphase)
        cases hphase : c.phaseOf index with
        | running => exact ⟨_, rfl, hpasses (by simp [hphase])⟩
        | replaying => exact ⟨_, rfl, hpasses (by simp [hphase])⟩
        | ended panic =>
          cases panic with
          | none => exact ⟨_, rfl, hpasses (by simp [hphase])⟩
          | some message =>
            dsimp only
            generalize hclosed : Contest.closeSlot _ none index _ = closed
            have hmoves : Moves c lanes _ _ _ _ _ _ := .closes hmain hown hlt hphase hclosed
            obtain ⟨c', notes, reaction⟩ := closed
            rcases reaction with (_ | _ | _) | _ <;> exact ⟨_, rfl, hmoves⟩
  | awaiting =>
    by_cases hverdict : c.verdict = .open
    · rw [mainReport?, stepMain, hmain]
      dsimp only
      rw [hverdict]
      exact ⟨_, rfl, .mainRests (.verdict hmain hverdict)⟩
    · rw [mainReport?, stepMain_of_verdict hmain hverdict, hmain]
      exact ⟨_, rfl, .main (.notices hmain hverdict)⟩
  | leaving =>
    rw [mainReport?, stepMain, hmain]
    exact ⟨_, rfl, .main (.leaves hmain)⟩
  | panicking message =>
    rw [mainReport?, stepMain, hmain]
    exact ⟨_, rfl, .main (.panics hmain)⟩
  | gone =>
    rw [mainReport?, stepMain, hmain]
    exact ⟨_, rfl, .mainRests (.gone hmain)⟩

/-! ## Lanes and answers -/

/-- A task of a lane does one thing. -/
theorem moves_laneTurn {index : Nat} {path : Path} {lane : Sending}
    (hfree : laneBlocks c index path = false) (hlane : lanes[index]? = some lane) :
    ∃ c', (laneTurn c index path.isEmpty (lane.step path)
        (lanes.modify index fun lane => (lane.step path).next)).next =
        .broadcast c' (goOn lanes ((broadcast c lanes).going (.task (index :: path)))) ∧
      Moves c lanes (.task (index :: path)) ((broadcast c lanes).going (.task (index :: path)))
        ((laneReport? path.isEmpty (lane.step path).signal).map (index, ·))
        (Run.deliveredBy (laneTurn c index path.isEmpty (lane.step path)
          (lanes.modify index fun lane => (lane.step path).next)).signal) none c' := by
  have hgoing : (broadcast c lanes).going (.task (index :: path)) =
      match (lane.step path).signal with
      | .delivers reply => some (index, .task path :: (c.receive index reply).2.2.choices)
      | _ => some (index, [.task path]) := by
    rw [going, hfree, if_neg Bool.false_ne_true, hlane]
    dsimp only [Option.map]
    cases (lane.step path).signal <;> rfl
  rw [hgoing]
  unfold laneTurn
  cases hsignal : (lane.step path).signal with
  | delivers reply =>
    dsimp only
    have hmoves := Moves.delivers hfree hlane hsignal rfl
    generalize c.receive index reply = received at hmoves ⊢
    obtain ⟨c', notes, reaction⟩ := received
    cases reaction with
    | replays chosen => exact ⟨c', rfl, hmoves⟩
    | answers response =>
      refine ⟨c', ?_, hmoves⟩
      have hlanes := resumeLane_eq response (lanes.modify index fun lane => (lane.step path).next)
        index
      rw [List.modify_modify_eq] at hlanes
      exact congrArg (broadcast c') hlanes
  | returned result =>
    obtain rfl : path = [] := path_eq_nil_of_endingBy (by rw [hsignal]; simp [Run.endingBy])
    have hmoves := Moves.returns hfree hlane hsignal rfl
    dsimp only [List.isEmpty_nil, if_true]
    generalize c.closeSlot (some index) index result = closed at hmoves ⊢
    obtain ⟨c', notes, reaction⟩ := closed
    rcases reaction with (_ | _ | _) | _ <;> exact ⟨_, rfl, hmoves⟩
  | panicked message =>
    obtain rfl : path = [] := path_eq_nil_of_endingBy (by rw [hsignal]; simp [Run.endingBy])
    exact ⟨_, rfl, .panics hfree hlane hsignal⟩
  | _ => exact ⟨c, rfl, .runs hfree hlane (by rw [hsignal]; rfl) (by rw [hsignal]; rfl)⟩

/-- The connection answers. -/
theorem moves_resume (c : Contest) (lanes : List Sending) (response : Response) :
    ∃ c', ((broadcast c lanes).resume response).next =
        .broadcast c' (goOn lanes ((broadcast c lanes).going (.answer response))) ∧
      Moves c lanes (.answer response) ((broadcast c lanes).going (.answer response)) none []
        none c' := by
  rw [resume, going]
  cases hreplay : c.replay with
  | none => exact ⟨c, rfl, .ignores hreplay⟩
  | some replay =>
    obtain ⟨owner, losers⟩ := replay
    cases owner with
    | none =>
      have hmoves : Moves c lanes (.answer response) _ _ _ _ _ := .answersMain hreplay rfl
      dsimp only
      generalize c.conclude ⟨none, losers⟩ response = concluded at hmoves ⊢
      obtain ⟨c', notes, answer⟩ := concluded
      cases answer <;> exact ⟨_, rfl, hmoves⟩
    | some index =>
      dsimp only
      generalize hconcluded : c.conclude ⟨some index, losers⟩ response = concluded
      by_cases hphase : concluded.1.phaseOf index = .replaying
      · have hmoves : Moves c lanes _ _ _ _ _ _ := .answersReplay hreplay hconcluded hphase
        obtain ⟨c', notes, answer⟩ := concluded
        dsimp only at hphase ⊢
        rw [hphase]
        cases answer <;> exact ⟨_, rfl, hmoves⟩
      · have hmoves : Moves c lanes _ _ _ _ _ _ := .answersLane hreplay hconcluded hphase
        obtain ⟨c', notes, answer⟩ := concluded
        dsimp only at hphase ⊢
        have hlanes := resumeLane_eq answer lanes index
        cases hphase' : c'.phaseOf index with
        | replaying => exact absurd hphase' hphase
        | running => exact ⟨c', congrArg (broadcast c') hlanes, hmoves⟩
        | ended panic => exact ⟨c', congrArg (broadcast c') hlanes, hmoves⟩

/-- **What a choice does to a broadcast** is one of its moves. -/
theorem moves_after (c : Contest) (lanes : List Sending) (choice : Choice) :
    ∃ c', (broadcast c lanes).after choice =
        .broadcast c' (goOn lanes ((broadcast c lanes).going choice)) ∧
      Moves c lanes choice ((broadcast c lanes).going choice)
        ((broadcast c lanes).slotReport? choice) ((broadcast c lanes).gives choice)
        ((broadcast c lanes).ends? choice) c' := by
  cases choice with
  | answer response => exact moves_resume c lanes response
  | task path =>
    cases path with
    | nil => exact moves_stepMain c lanes
    | cons index path =>
      rw [after, gives, ends?, slotReport?, endingBy_step_cons, step]
      cases hblocks : laneBlocks c index path with
      | true =>
        rw [going, hblocks]
        exact ⟨c, rfl, .laneRests (.inl hblocks)⟩
      | false =>
        rw [if_neg Bool.false_ne_true, if_neg Bool.false_ne_true, stepLane_eq]
        cases hlane : lanes[index]? with
        | none =>
          rw [going, hblocks, hlane]
          exact ⟨c, rfl, .laneRests (.inr hlane)⟩
        | some lane => exact moves_laneTurn hblocks hlane

end

end Sending

end Switchboard
