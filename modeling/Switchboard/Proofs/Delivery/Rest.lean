import Switchboard.Proofs.Delivery.Slots
set_option autoImplicit false

/-! # Sendings at rest

A sending is at rest when none of its tasks can change anything: each has come to its end, or waits
for another one or for the connection. Every sending comes to rest: each step of a task that changes
anything takes from its rank (`Sending.rank_step`), and no answer of the connection adds to it
(`Sending.rank_resume`). So what is shown of a sending at rest is what becomes of it under any
schedule that leaves no task out for ever.

The tasks are those of a `send`, with all that it has spawned. -/

namespace Switchboard

/-! ## The rank -/

/-- A bound of the steps that a main task still makes, when so many lanes are known and started. -/
def MainPhase.rank (known started : Nat) : MainPhase → Nat
  | .spawning _ => known + started + 7
  | .yielding => known + started + 6
  | .joining seen => known - seen + started + 5
  | .closing next => started - next + 4
  | .awaiting => 3
  | .leaving => 2
  | .panicking _ => 1
  | .gone => 0

/-- The rank of a contest: a decision and the replay that follows it are still to come. -/
def Contest.rank (c : Contest) (lanes : Nat) : Nat :=
  c.main.rank c.lanes.length lanes + 2 * c.race.undecided.toNat + 2 * c.replay.isSome.toNat

namespace Sending

mutual

/-- A bound of the steps by which the tasks of a sending can still change anything. -/
def rank : Sending → Nat
  | .ended => 0
  | .stalled => 0
  | .returns _ => 1
  | .panics _ => 1
  | .note _ next => next.rank + 1
  | .pause _ next => next.rank + 1
  | .deliver _ => 3
  | .delivered => 2
  | .wrapped _ inner => inner.rank
  | .detached _ started inner => inner.rank + if started then 0 else 1
  | .broadcast c lanes => ranks lanes + c.rank lanes.length

/-- The bound for all lanes. -/
def ranks : List Sending → Nat
  | [] => 0
  | lane :: rest => lane.rank + ranks rest

end

/-- **No task of a sending can change anything.** -/
def Rests (s : Sending) : Prop := ∀ path, (s.step path).next = s

/-- A step that changes nothing, and lets nothing be seen. -/
structure Idles (s : Sending) (path : Path) : Prop where
  next_eq : (s.step path).next = s
  delivered_eq : Run.deliveredBy (s.step path).signal = []
  ending_eq : Run.endingBy (s.step path).signal = none

section

variable {c c' : Contest} {lanes : List Sending}

theorem ranks_modify {index : Nat} {lane : Sending} (h : lanes[index]? = some lane)
    (f : Sending → Sending) :
    ranks (lanes.modify index f) + lane.rank = ranks lanes + (f lane).rank := by
  induction lanes generalizing index with
  | nil => cases h
  | cons first rest ih =>
    cases index with
    | zero =>
      rw [List.getElem?_cons_zero, Option.some.injEq] at h
      rw [List.modify_zero_cons, ranks, ranks, h]
      omega
    | succ index =>
      have hrest := ih h
      rw [List.modify_succ_cons, ranks, ranks]
      omega

theorem modify_of_same {index : Nat} {f : Sending → Sending}
    (h : ∀ lane, lanes[index]? = some lane → f lane = lane) : lanes.modify index f = lanes := by
  refine List.ext_getElem? fun other => ?_
  rw [List.getElem?_modify]
  by_cases hsame : index = other
  · subst hsame
    cases hlane : lanes[index]? with
    | none => rfl
    | some lane => simp [h lane hlane]
  · simp [hsame]

end

end Sending

namespace Contest

section

variable {c c' : Contest} {lanes : Nat}

/-- A report adds nothing to the rank: a replay starts only with the decision. -/
theorem rank_reportSlot (c : Contest) (owner : Option Nat) (index : Nat) (result : Report)
    (lanes : Nat) : (c.reportSlot owner index result).1.rank lanes ≤ c.rank lanes := by
  obtain ⟨policy, ⟨slots, undecided⟩, states, main, replay, verdict⟩ := c
  unfold reportSlot Race.report
  dsimp only
  cases slots[index]? with
  | none => simp [rank]
  | some slot =>
    cases slot with
    | empty =>
      cases undecided with
      | false => simp [rank]
      | true =>
        rcases Race.rule_cases policy (slots.set index (Race.slotOf result)) with
          ⟨-, hrule⟩ | ⟨message, -, hrule⟩ | ⟨winner, losers, hrule⟩
        · simp [hrule, rank]
        · simp [hrule, rank]
        · simp only [if_true, hrule, rank, List.length_modify, Option.isSome_some, Bool.toNat_true,
            Bool.toNat_false]
          omega
    | failed => simp [rank]
    | holds response => simp [rank]
    | spent => simp [rank]

theorem rank_hears {owner : Option Nat} {index : Nat} {result : Report}
    {heard : Contest × List Note × Reaction} (h : c.Hears owner index result heard) (lanes : Nat) :
    heard.1.rank lanes ≤ c.rank lanes := by
  cases h with
  | refused hreported notes response => exact Nat.le_refl _
  | reports hfirst => exact rank_reportSlot c owner index result lanes

theorem rank_setPhase (c : Contest) (index : Nat) (phase : LanePhase) (lanes : Nat) :
    (c.setPhase index phase).rank lanes = c.rank lanes := by
  rw [setPhase, rank, rank, List.length_modify]

theorem rank_laneTold (c : Contest) (index : Nat) (reaction : Reaction) (lanes : Nat) :
    (c.laneTold index reaction).rank lanes = c.rank lanes := by
  rcases reaction with (_ | _ | _) | _
  · exact rank_setPhase ..
  · exact rank_setPhase ..
  · rfl
  · exact rank_setPhase ..

/-- The main task comes nearer to its end by what it does itself. -/
theorem rank_mainGoes {main : MainPhase} {ends : Option Ending} (h : c.MainGoes lanes main ends) :
    main.rank c.lanes.length lanes < c.main.rank c.lanes.length lanes := by
  have hcount : c.overCount ≤ c.lanes.length := List.countP_le_length
  cases h with
  | spawns hmain =>
    rw [hmain]
    unfold afterSpawning
    split <;> simp only [MainPhase.rank] <;> omega
  | breaks hmain | yields hmain | joins hmain hseen | closes hmain hover
  | passes hmain hown hlt hphase | awaits hmain hown hle
  | notices hmain hverdict | leaves hmain | panics hmain =>
    rw [hmain]
    simp only [MainPhase.rank]
    omega

/-- The main task comes nearer to its end when it closes the slot of a lane. -/
theorem rank_closes {index : Nat} {cause : SendError} {closed : Contest × List Note × Reaction}
    (hmain : c.main = .closing index) (hlt : index < lanes)
    (hclosed : ({ c with main := .closing (index + 1) } : Contest).closeSlot none index
      (.error cause) = closed) :
    (closed.1.mainTold closed.2.2).rank lanes < c.rank lanes := by
  have hhears := hears_of_closeSlot hclosed
  have hsame := sameTasks_of_closeSlot hclosed
  have hrank := rank_hears hhears lanes
  have hmain' : closed.1.main = .closing (index + 1) := hsame.main_eq
  have htold : (closed.1.mainTold closed.2.2).rank lanes ≤ closed.1.rank lanes := by
    rcases closed.2.2 with (_ | _ | _) | _
    · exact Nat.le_refl _
    · simp only [mainTold, rank, hmain', MainPhase.rank]
      omega
    · exact Nat.le_refl _
    · exact Nat.le_refl _
  simp only [rank, MainPhase.rank, hmain] at hrank htold ⊢
  omega

/-- The answer of the connection takes the replay from the rank, unless it changes nothing. -/
theorem rank_concludes {replay : ReplayState} {response answer : Response}
    (h : c.Concludes replay response c' answer) (hreplay : c.replay = some replay)
    (lanes : Nat) :
    c'.rank lanes ≤ c.rank lanes ∧
      ∀ message, answer = .unwinds message → c'.rank lanes + 2 ≤ c.rank lanes := by
  cases h with
  | silent => exact ⟨Nat.le_refl _, nofun⟩
  | busy hbusy => exact ⟨Nat.le_refl _, nofun⟩
  | answers hfinished hverdict => exact ⟨by simp [rank, hreplay], nofun⟩
  | unwinds message =>
    refine ⟨by simp [rank, hreplay], fun _ _ => ?_⟩
    simp [rank, hreplay]

end

end Contest

namespace Sending

section

variable {c c' : Contest} {lanes : List Sending}

/-! ## Answers -/

/-- What a lane does by itself, when nothing adds to its rank. -/
theorem ranks_goOn {index : Nat} {own : List Choice}
    (h : ∀ lane, lanes[index]? = some lane → (lane.afterAll own).rank ≤ lane.rank) :
    ranks (goOn lanes (some (index, own))) ≤ ranks lanes := by
  rw [goOn]
  cases hlane : lanes[index]? with
  | none => exact Nat.le_of_eq (congrArg ranks (modify_of_same (by simp [hlane])))
  | some lane =>
    have hmodify := ranks_modify hlane fun lane => lane.afterAll own
    have hlane' := h lane hlane
    omega

theorem rank_mainTold {response : Response}
    (h : ∀ message, response = .unwinds message → c'.rank lanes.length + 2 ≤ c.rank lanes.length)
    (hle : c'.rank lanes.length ≤ c.rank lanes.length) :
    (c'.mainTold (.answers response)).rank lanes.length ≤ c.rank lanes.length := by
  cases response with
  | result result => exact hle
  | never => exact hle
  | unwinds message =>
    have hunwinds := h message rfl
    rw [Contest.mainTold, Contest.rank, MainPhase.rank]
    rw [Contest.rank] at hunwinds
    dsimp only
    omega

/-- **No answer of the connection adds to the rank.** -/
theorem rank_resume (s : Sending) (response : Response) :
    (s.resume response).next.rank ≤ s.rank := by
  match s with
  | .delivered =>
    cases response <;> simp [resume, rank]
  | .wrapped w inner =>
    have hinner := rank_resume inner response
    rw [resume, rank, rank]
    exact hinner
  | .detached name started inner =>
    have hinner := rank_resume inner response
    rw [resume, rank, rank]
    exact Nat.add_le_add_right hinner _
  | .broadcast c lanes =>
    obtain ⟨c', hnext, hmoves⟩ := moves_after c lanes (.answer response)
    have hafter : ((broadcast c lanes).resume response).next =
        .broadcast c' (goOn lanes ((broadcast c lanes).going (.answer response))) := hnext
    rw [hafter, rank, rank, length_goOn]
    generalize (broadcast c lanes).going (.answer response) = going at hmoves
    generalize (broadcast c lanes).slotReport? (.answer response) = report at hmoves
    generalize (broadcast c lanes).gives (.answer response) = gives at hmoves
    generalize (broadcast c lanes).ends? (.answer response) = ends at hmoves
    cases hmoves with
    | ignores hreplay => exact Nat.le_refl _
    | @answersMain response losers concluded hreplay hconcluded =>
      have hconcludes := Contest.concludes_of_conclude hconcluded
      obtain ⟨hle, hunwinds⟩ := Contest.rank_concludes hconcludes hreplay lanes.length
      exact Nat.add_le_add_left (rank_mainTold hunwinds hle) _
    | @answersReplay response index losers concluded hreplay hconcluded hphase =>
      have hconcludes := Contest.concludes_of_conclude hconcluded
      obtain ⟨hle, -⟩ := Contest.rank_concludes hconcludes hreplay lanes.length
      rw [Contest.rank_laneTold]
      exact Nat.add_le_add_left hle _
    | @answersLane response index losers concluded hreplay hconcluded hphase =>
      have hconcludes := Contest.concludes_of_conclude hconcluded
      obtain ⟨hle, -⟩ := Contest.rank_concludes hconcludes hreplay lanes.length
      refine Nat.add_le_add (ranks_goOn fun lane hlane => ?_) hle
      have hmem : lane ∈ lanes := List.mem_of_getElem? hlane
      exact rank_resume lane concluded.2.2
  | .ended => exact Nat.le_refl _
  | .stalled => exact Nat.le_refl _
  | .returns _ => exact Nat.le_refl _
  | .panics _ => exact Nat.le_refl _
  | .note _ _ => exact Nat.le_refl _
  | .pause _ _ => exact Nat.le_refl _
  | .deliver _ => exact Nat.le_refl _
termination_by sizeOf s
decreasing_by
  all_goals simp_wf
  all_goals first
    | omega
    | (have hlt := List.sizeOf_lt_of_mem hmem; omega)

/-! ## Steps -/

/-- A lane goes on with a step and is answered at once. -/
theorem rank_answered (lane : Sending) (path : Path) (reaction : Reaction) :
    (lane.afterAll (.task path :: reaction.choices)).rank ≤ (lane.step path).next.rank := by
  cases reaction with
  | replays reply => exact Nat.le_refl _
  | answers response => exact rank_resume _ response

theorem ranks_goOn_lt {index : Nat} {own : List Choice} {lane : Sending}
    (hlane : lanes[index]? = some lane) (h : (lane.afterAll own).rank < lane.rank) :
    ranks (goOn lanes (some (index, own))) < ranks lanes := by
  have hmodify := ranks_modify hlane fun lane => lane.afterAll own
  rw [goOn]
  omega

/-- A step idles, or it takes from the rank. -/
def Progresses (s : Sending) (path : Path) : Prop :=
  s.Idles path ∨ (s.step path).next.rank < s.rank

theorem progresses_wrapped {w : Wrapper} {inner : Sending} {path : Path}
    (h : inner.Progresses path) : (Sending.wrapped w inner).Progresses path := by
  have hnext : ((Sending.wrapped w inner).step path).next = .wrapped w (inner.step path).next := by
    rw [step, wrappedTurn]
    split <;> rfl
  rcases h with ⟨heq, hdelivered, hending⟩ | hlt
  · refine .inl ⟨by rw [hnext, heq], ?_, ?_⟩
    · rw [step, wrappedTurn]
      split
      · next hsignal => rw [hsignal] at hdelivered; cases hdelivered
      · rfl
      · exact hdelivered
    · rw [step]
      exact endingBy_wrappedTurn w hending
  · refine .inr ?_
    rw [hnext, rank, rank]
    exact hlt

theorem progresses_detached {name : String} {inner : Sending} {index : Nat} {path : Path}
    (h : inner.Progresses path) :
    (Sending.detached name true inner).Progresses (index :: path) := by
  have hnext : ((Sending.detached name true inner).step (index :: path)).next =
      .detached name true (inner.step path).next := by
    rw [step, if_pos rfl, detachedTurn]
    split
    · split <;> rfl
    · rfl
    · rfl
  rcases h with ⟨heq, hdelivered, hending⟩ | hlt
  · refine .inl ⟨by rw [hnext, heq], ?_, endingBy_step_cons _ _ _⟩
    rw [step, if_pos rfl, detachedTurn]
    split
    · split <;> rfl
    · rfl
    · exact hdelivered
  · refine .inr ?_
    rw [hnext, rank, rank]
    exact Nat.add_lt_add_right hlt _

/-- A step of a broadcast, when the steps of its lanes progress. -/
theorem progresses_broadcast (h : ∀ lane ∈ lanes, ∀ path, lane.Progresses path) (path : Path) :
    (broadcast c lanes).Progresses path := by
  obtain ⟨c', hnext, hmoves⟩ := moves_after c lanes (.task path)
  have hafter : ((broadcast c lanes).step path).next =
      .broadcast c' (goOn lanes ((broadcast c lanes).going (.task path))) := hnext
  rw [gives, ends?] at hmoves
  have hidle : c' = c → goOn lanes ((broadcast c lanes).going (.task path)) = lanes →
      Run.deliveredBy ((broadcast c lanes).step path).signal = [] →
      Run.endingBy ((broadcast c lanes).step path).signal = none →
      (broadcast c lanes).Progresses path := by
    intro hc hlanes hdelivered hending
    exact .inl ⟨by rw [hafter, hc, hlanes], hdelivered, hending⟩
  have hlt : ranks (goOn lanes ((broadcast c lanes).going (.task path))) +
      c'.rank lanes.length < ranks lanes + c.rank lanes.length →
      (broadcast c lanes).Progresses path := by
    intro hlt
    refine .inr ?_
    rw [hafter, rank, rank, length_goOn]
    exact hlt
  -- A lane that lets something be seen has made a step that takes from its rank.
  have hstep : ∀ {index : Nat} {lane : Sending} {path : Path}, lanes[index]? = some lane →
      (Run.deliveredBy (lane.step path).signal = [] → Run.endingBy (lane.step path).signal ≠ none) →
      (lane.step path).next.rank < lane.rank := by
    intro index lane path hlane hseen
    rcases h lane (List.mem_of_getElem? hlane) path with ⟨-, hdelivered, hending⟩ | hlt
    · exact absurd hending (hseen hdelivered)
    · exact hlt
  generalize (broadcast c lanes).going (.task path) = going at hmoves hidle hlt
  generalize (broadcast c lanes).slotReport? (.task path) = report at hmoves
  generalize hgives : Run.deliveredBy ((broadcast c lanes).step path).signal = gives at hmoves hidle
  generalize hends : Run.endingBy ((broadcast c lanes).step path).signal = ends at hmoves hidle
  cases hmoves with
  | mainRests hrests => exact hidle rfl rfl rfl rfl
  | laneRests hrests => exact hidle rfl rfl rfl rfl
  | main hgoes =>
    refine hlt (Nat.add_lt_add_left ?_ _)
    have hrank := Contest.rank_mainGoes hgoes
    simp only [Contest.rank]
    omega
  | closes hmain hown hindex hphase hclosed =>
    exact hlt (Nat.add_lt_add_left (Contest.rank_closes hmain hindex hclosed) _)
  | @runs index path lane hfree hlane hdelivered hending =>
    rcases h lane (List.mem_of_getElem? hlane) path with ⟨heq, -, -⟩ | hless
    · refine hidle rfl ?_ rfl rfl
      refine List.ext_getElem? fun other => ?_
      rw [goOn, List.getElem?_modify]
      by_cases hsame : index = other
      · rw [← hsame, hlane]
        simp [afterAll, after, heq]
      · simp [hsame]
    · have hown : (lane.afterAll [.task path]).rank < lane.rank := hless
      exact hlt (Nat.add_lt_add_right (ranks_goOn_lt hlane hown) _)
  | @delivers index path lane reply received hfree hlane hsignal hreceived =>
    have hless := hstep hlane (by rw [hsignal]; simp [Run.deliveredBy])
    have hhears := Contest.hears_of_receive hreceived
    exact hlt (Nat.add_lt_add_of_lt_of_le
      (ranks_goOn_lt hlane (Nat.lt_of_le_of_lt (rank_answered lane path received.2.2) hless))
      (Contest.rank_hears hhears _))
  | @returns index lane result closed hfree hlane hsignal hclosed =>
    have hless : (lane.afterAll [.task []]).rank < lane.rank :=
      hstep hlane fun _ => by rw [hsignal]; simp [Run.endingBy]
    have hhears := Contest.hears_of_closeSlot hclosed
    rw [Contest.rank_laneTold] at hlt
    exact hlt (Nat.add_lt_add_of_lt_of_le (ranks_goOn_lt hlane hless) (Contest.rank_hears hhears _))
  | @panics index lane message hfree hlane hsignal =>
    have hless : (lane.afterAll [.task []]).rank < lane.rank :=
      hstep hlane fun _ => by rw [hsignal]; simp [Run.endingBy]
    rw [Contest.rank_setPhase] at hlt
    exact hlt (Nat.add_lt_add_right (ranks_goOn_lt hlane hless) _)

/-- **Each step of a task idles, or takes from the rank.** -/
theorem rank_step (s : Sending) (path : Path) : s.Progresses path := by
  have hnowhere : ∀ {s : Sending} {index : Nat} {path : Path},
      s.step (index :: path) = ⟨[], .finishes, [], [], s⟩ → s.Progresses (index :: path) :=
    fun heq => .inl ⟨by rw [heq], by rw [heq]; rfl, by rw [heq]; rfl⟩
  match s with
  | .wrapped w inner => exact progresses_wrapped (rank_step inner path)
  | .detached name started inner =>
    cases path with
    | nil =>
      cases started with
      | false => exact .inr (by simp [step, rank])
      | true => exact .inl ⟨rfl, rfl, rfl⟩
    | cons index path =>
      cases started with
      | false => exact .inl ⟨rfl, rfl, rfl⟩
      | true => exact progresses_detached (rank_step inner path)
  | .broadcast c lanes =>
    exact progresses_broadcast (fun lane hmem path => rank_step lane path) path
  | .ended =>
    cases path with
    | nil => exact .inl ⟨rfl, rfl, rfl⟩
    | cons index path => exact hnowhere rfl
  | .stalled =>
    cases path with
    | nil => exact .inl ⟨rfl, rfl, rfl⟩
    | cons index path => exact hnowhere rfl
  | .delivered =>
    cases path with
    | nil => exact .inl ⟨rfl, rfl, rfl⟩
    | cons index path => exact hnowhere rfl
  | .returns result =>
    cases path with
    | nil => exact .inr (by simp [step, rank])
    | cons index path => exact hnowhere rfl
  | .panics message =>
    cases path with
    | nil => exact .inr (by simp [step, rank])
    | cons index path => exact hnowhere rfl
  | .note n next =>
    cases path with
    | nil => exact .inr (by simp [step, rank])
    | cons index path => exact hnowhere rfl
  | .pause p next =>
    cases path with
    | nil => exact .inr (by simp [step, rank])
    | cons index path => exact hnowhere rfl
  | .deliver reply =>
    cases path with
    | nil => exact .inr (by simp [step, rank])
    | cons index path => exact hnowhere rfl
termination_by sizeOf s
decreasing_by
  all_goals simp_wf
  all_goals first
    | omega
    | (have hlt := List.sizeOf_lt_of_mem hmem; omega)

end

/-! ## At rest -/

/-- **Every sending comes to rest** when its tasks go on. -/
theorem exists_rests (s : Sending) :
    ∃ paths : List Path, (s.afterAll (paths.map .task)).Rests := by
  -- On the rank, which each step takes from until nothing changes any more.
  induction hrank : s.rank using Nat.strongRecOn generalizing s with
  | ind rank ih =>
    by_cases hrests : s.Rests
    · exact ⟨[], hrests⟩
    · obtain ⟨path, hpath⟩ := Classical.not_forall.mp hrests
      rcases rank_step s path with hidles | hlt
      · exact absurd hidles.next_eq hpath
      · obtain ⟨paths, hpaths⟩ := ih _ (hrank ▸ hlt) (s.step path).next rfl
        exact ⟨path :: paths, hpaths⟩

/-- At rest nothing is let be seen either. -/
theorem Rests.idles {s : Sending} (h : s.Rests) (path : Path) : s.Idles path := by
  rcases rank_step s path with hidles | hlt
  · exact hidles
  · rw [h path] at hlt
    exact absurd hlt (Nat.lt_irrefl _)

theorem Rests.wrapped {w : Wrapper} {inner : Sending} (h : (Sending.wrapped w inner).Rests) :
    inner.Rests := by
  intro path
  have hnext := h path
  rw [step, wrappedTurn] at hnext
  split at hnext <;> injection hnext

section

variable {c : Contest} {lanes : List Sending}

/-- The main task of a broadcast at rest has a reason to. -/
theorem Rests.main (h : (broadcast c lanes).Rests) : c.MainRests := by
  obtain ⟨c', hnext, hmoves⟩ := moves_after c lanes (.task [])
  have hsame : broadcast c' (goOn lanes ((broadcast c lanes).going (.task []))) =
      .broadcast c lanes := hnext.symm.trans (h [])
  injection hsame with hsame
  generalize (broadcast c lanes).going (.task []) = going at hmoves
  generalize (broadcast c lanes).slotReport? (.task []) = report at hmoves
  generalize (broadcast c lanes).gives (.task []) = gives at hmoves
  generalize (broadcast c lanes).ends? (.task []) = ends at hmoves
  cases hmoves with
  | mainRests hrests => exact hrests
  | main hgoes =>
    have hlt := Contest.rank_mainGoes hgoes
    have hmain := congrArg Contest.main hsame
    dsimp only at hmain
    rw [hmain] at hlt
    exact absurd hlt (Nat.lt_irrefl _)
  | @closes index message cause closed hmain hown hindex hphase hclosed =>
    have htasks := Contest.sameTasks_of_closeSlot hclosed
    have hafter := congrArg Contest.main hsame
    have hmain' : closed.1.main ≠ .closing index := by
      rw [htasks.main_eq]
      simp
    rw [hmain] at hafter
    obtain ⟨c', notes, reaction⟩ := closed
    rcases reaction with (_ | _ | _) | _
    · exact absurd hafter hmain'
    · cases hafter
    · exact absurd hafter hmain'
    · exact absurd hafter hmain'

/-- A lane whose tasks may go on is at rest itself. -/
theorem Rests.lane (h : (broadcast c lanes).Rests) {index : Nat} {lane : Sending}
    (hlane : lanes[index]? = some lane) (hfree : ∀ path, laneBlocks c index path = false) :
    lane.Rests := by
  intro path
  obtain ⟨c', hnext, hmoves⟩ := moves_after c lanes (.task (index :: path))
  have hsame : broadcast c' (goOn lanes ((broadcast c lanes).going (.task (index :: path)))) =
      .broadcast c lanes := hnext.symm.trans (h _)
  injection hsame with hcontest hlanes
  have hown : ∀ own, goOn lanes (some (index, own)) = lanes → lane.afterAll own = lane := by
    intro own heq
    have hget := congrArg (·[index]?) heq
    simpa [goOn, hlane] using hget
  generalize (broadcast c lanes).going (.task (index :: path)) = going at hmoves hlanes
  generalize (broadcast c lanes).slotReport? (.task (index :: path)) = report at hmoves
  generalize (broadcast c lanes).gives (.task (index :: path)) = gives at hmoves
  generalize (broadcast c lanes).ends? (.task (index :: path)) = ends at hmoves
  cases hmoves with
  | laneRests hrests =>
    rcases hrests with hblocks | hnone
    · rw [hfree] at hblocks
      cases hblocks
    · rw [hlane] at hnone
      cases hnone
  | runs hfree' hlane' hdelivered hending => exact hown _ hlanes
  | returns hfree' hlane' hsignal hclosed => exact hown _ hlanes
  | panics hfree' hlane' hsignal => exact hown _ hlanes
  | @delivers _ _ other reply received hfree' hlane' hsignal hreceived =>
    -- What it delivers has taken from its rank, and the answer does not give that back.
    have heq := congrArg Sending.rank (hown _ hlanes)
    have hanswered := rank_answered lane path received.2.2
    rw [hlane, Option.some.injEq] at hlane'
    rw [← hlane'] at hsignal
    rcases rank_step lane path with hidles | hlt
    · have hnothing := hidles.delivered_eq
      rw [hsignal] at hnothing
      cases hnothing
    · omega

theorem rests_ended : Sending.ended.Rests := by
  intro path
  cases path <;> rfl

/-- A broadcast is at rest when its main task is over and its lanes are at rest. -/
theorem rests_broadcast (hmain : c.main = .gone) (hlanes : ∀ lane ∈ lanes, lane.Rests) :
    (broadcast c lanes).Rests := by
  intro path
  cases path with
  | nil => rw [step, stepMain, hmain]
  | cons index path =>
    rw [step]
    split
    · rfl
    · rw [stepLane_eq]
      cases hlane : lanes[index]? with
      | none => rfl
      | some lane =>
        obtain ⟨hnext, hdelivered, hending⟩ := (hlanes lane (List.mem_of_getElem? hlane)).idles path
        have hsame : lanes.modify index (fun other => (other.step path).next) = lanes := by
          refine modify_of_same fun other hother => ?_
          rw [hlane, Option.some.injEq] at hother
          rw [← hother, hnext]
        rw [Option.map_some, hsame]
        dsimp only [laneTurn]
        cases hsignal : (lane.step path).signal with
        | delivers reply =>
          rw [hsignal] at hdelivered
          cases hdelivered
        | returned result =>
          rw [hsignal] at hending
          cases hending
        | panicked message =>
          rw [hsignal] at hending
          cases hending
        | _ => rfl

end

end Sending

/-- **Every run comes to rest** when the tasks go on. -/
theorem Run.exists_rests (r : Run) :
    ∃ paths : List Path, (r.choices (paths.map .task)).sending.Rests := by
  obtain ⟨paths, hpaths⟩ := r.sending.exists_rests
  exact ⟨paths, by rw [sending_choices]; exact hpaths⟩

end Switchboard
