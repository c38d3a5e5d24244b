import Switchboard.Proofs.Segment.Distribution
set_option autoImplicit false

/-! # When the source is asked

Both sides go on in the same way: they do a turn, and where that needs more from the source, they
ask it, take in what it gives, wake the other side and do the next turn. `Loops` is this way of
going on, with the questions to the source that are made (`Ask`); both loops of a dispenser are
instances of it, and what every turn keeps a whole loop keeps (`Loops.preserves`). The questions of
a loop are as many as the source counts (`Loops.polls_eq`), for all that has gone from it
(`Loops.given_eq`). -/

namespace Switchboard

namespace Dispenser

/-! ## Questions to the source -/

/-- A question to the source: the dispenser that asks, and what it is given, unless it has to
wait. -/
structure Ask where
  dispenser : Dispenser
  given : Option Supply

/-- What the source gives for these questions. -/
def givenIn (asks : List Ask) : List Supply := asks.filterMap Ask.given

theorem givenIn_append (first next : List Ask) :
    givenIn (first ++ next) = givenIn first ++ givenIn next := List.filterMap_append

theorem givenIn_cons (ask : Ask) (rest : List Ask) :
    givenIn (ask :: rest) = ask.given.toList ++ givenIn rest := by
  cases hask : ask.given <;> simp [givenIn, hask]

/-- The dispenser at the end of a turn. -/
def Turn.dispenser {α : Type} : Turn α → Dispenser
  | .answers d _ => d
  | .reads d => d

/-- The dispenser with this left at its source. -/
def leaving (d : Dispenser) (items : List Supply) : Dispenser :=
  { d with source := { d.source with queue := items } }

/-- The questions of a loop that does these turns and wakes somebody after each question. -/
def asksBy {α : Type} (turn : Dispenser → Turn α) (wake : Dispenser → Dispenser) (d : Dispenser) :
    List Supply → List Ask
  | [] => match turn d with | .answers _ _ => [] | .reads d => [⟨d, none⟩]
  | item :: rest =>
    match turn d with
    | .answers _ _ => []
    | .reads d => ⟨d, some item⟩ :: asksBy turn wake (wake (d.absorb item)) rest

/-- A loop comes to its answer, with these questions to a source that holds these items. -/
inductive Loops {α : Type} (turn : Dispenser → Turn α) (wake : Dispenser → Dispenser)
    (waiting : α) : Dispenser → List Supply → List Ask → Dispenser → α → Prop where
  | answers {d d' : Dispenser} {items : List Supply} {answer : α}
      (hturn : turn d = .answers d' answer) :
      Loops turn wake waiting d items [] (d'.leaving items) answer
  | waits {d d' : Dispenser} (hturn : turn d = .reads d') :
      Loops turn wake waiting d [] [⟨d', none⟩] d'.park waiting
  | absorbs {d d' d'' : Dispenser} {item : Supply} {rest : List Supply} {asks : List Ask}
      {answer : α} (hturn : turn d = .reads d')
      (hrest : Loops turn wake waiting (wake (d'.absorb item)) rest asks d'' answer) :
      Loops turn wake waiting d (item :: rest) (⟨d', some item⟩ :: asks) d'' answer

theorem loops_outerLoop (d : Dispenser) (items : List Supply) :
    Loops outerTurn wakeInner .pending d items (asksBy outerTurn wakeInner d items)
      (d.outerLoop items).1 (d.outerLoop items).2 := by
  induction items generalizing d with
  | nil =>
    rw [outerLoop, asksBy]
    cases hturn : d.outerTurn with
    | answers d' answer => exact .answers hturn
    | reads d' => exact .waits hturn
  | cons item rest ih =>
    rw [outerLoop, asksBy]
    cases hturn : d.outerTurn with
    | answers d' answer => exact .answers hturn
    | reads d' => exact .absorbs hturn (ih _)

theorem loops_innerLoop (d : Dispenser) (items : List Supply) :
    Loops innerTurn wakeOuter (.pending, false) d items (asksBy innerTurn wakeOuter d items)
      (d.innerLoop items).1 (d.innerLoop items).2 := by
  induction items generalizing d with
  | nil =>
    rw [innerLoop, asksBy]
    cases hturn : d.innerTurn with
    | answers d' answer => exact .answers hturn
    | reads d' => exact .waits hturn
  | cons item rest ih =>
    rw [innerLoop, asksBy]
    cases hturn : d.innerTurn with
    | answers d' answer => exact .answers hturn
    | reads d' => exact .absorbs hturn (ih _)

/-! ## What a turn leaves alone -/

theorem source_skipOrphan (d : Dispenser) : d.skipOrphan.source = d.source := by
  unfold skipOrphan
  split <;> rfl

theorem source_issue (d : Dispenser) : d.issue.1.source = d.source := by
  unfold issue
  split <;> rfl

/-- The dispenser after the outer side has looked after an orphan. -/
def skipped (d : Dispenser) : Dispenser :=
  if d.issued != d.ended && d.orphaned then d.skipOrphan else d

/-- What a turn of the outer side is. -/
inductive OuterTurns (d : Dispenser) : Turn OuterPoll → Prop where
  /-- It has been told of the failure. -/
  | knows {error : SplitError} (hfailure : d.failure = some error) (htold : d.failureTold = true) :
      OuterTurns d (.answers d .ended)
  | learns {error : SplitError} (hfailure : d.failure = some error)
      (htold : d.failureTold = false) :
      OuterTurns d (.answers { d with failureTold := true } (.failed error))
  /-- No segment is open. -/
  | issues (hfailure : d.failure = none) (hclosed : d.skipped.issued = d.skipped.ended) :
      OuterTurns d (.answers d.skipped.issue.1 d.skipped.issue.2)
  /-- There is something queued for whoever holds the open segment. -/
  | lets (hfailure : d.failure = none) (hopen : d.skipped.issued ≠ d.skipped.ended)
      (hheld : d.skipped.orphaned = false) (hqueue : d.skipped.queue ≠ []) :
      OuterTurns d (.answers d.skipped .pending)
  /-- The input is used up, and the open segment without an end. -/
  | stops (hfailure : d.failure = none) (hopen : d.skipped.issued ≠ d.skipped.ended)
      (hfree : d.skipped.orphaned = true ∨ d.skipped.queue = [])
      (hconnected : d.skipped.connected = false) : OuterTurns d (.answers d.skipped .ended)
  | reads (hfailure : d.failure = none) (hopen : d.skipped.issued ≠ d.skipped.ended)
      (hfree : d.skipped.orphaned = true ∨ d.skipped.queue = [])
      (hconnected : d.skipped.connected = true) : OuterTurns d (.reads d.skipped)

theorem outerTurns_outerTurn (d : Dispenser) : OuterTurns d d.outerTurn := by
  cases hfailure : d.failure with
  | some error =>
    cases htold : d.failureTold with
    | true =>
      have hturn : d.outerTurn = .answers d .ended := by simp [outerTurn, hfailure, htold]
      exact hturn ▸ .knows hfailure htold
    | false =>
      have hturn : d.outerTurn = .answers { d with failureTold := true } (.failed error) := by
        simp [outerTurn, hfailure, htold]
      exact hturn ▸ .learns hfailure htold
  | none =>
    have hturn : d.outerTurn =
        if d.skipped.issued = d.skipped.ended then
          .answers d.skipped.issue.1 d.skipped.issue.2
        else if !d.skipped.orphaned && !d.skipped.queue.isEmpty then .answers d.skipped .pending
        else if !d.skipped.connected then .answers d.skipped .ended
        else .reads d.skipped := by
      rw [outerTurn, hfailure]
      rfl
    rw [hturn]
    by_cases hclosed : d.skipped.issued = d.skipped.ended
    · rw [if_pos hclosed]
      exact .issues hfailure hclosed
    · rw [if_neg hclosed]
      by_cases hlets : (!d.skipped.orphaned && !d.skipped.queue.isEmpty) = true
      · rw [if_pos hlets]
        exact .lets hfailure hclosed (by simp_all) (by simp_all)
      · have hfree : d.skipped.orphaned = true ∨ d.skipped.queue = [] := by
          cases horphaned : d.skipped.orphaned with
          | true => exact .inl rfl
          | false => exact .inr (by simpa [horphaned] using hlets)
        rw [if_neg hlets]
        cases hconnected : d.skipped.connected with
        | true => exact .reads hfailure hclosed hfree hconnected
        | false => exact .stops hfailure hclosed hfree hconnected

/-- What a turn of the holder of the open segment is. -/
inductive InnerTurns (d : Dispenser) : Turn (InnerPoll × Bool) → Prop where
  | chunk {bytes : Bytes} {rest : List Entry} (hqueue : d.queue = .chunk bytes :: rest) :
      InnerTurns d (.answers { d with queue := rest } (.chunk bytes, false))
  | closes {rest : List Entry} (hqueue : d.queue = .close :: rest) :
      InnerTurns d (.answers { d with queue := rest, ended := d.ended + 1 }.wakeOuter
        (.ended, true))
  | fails {error : SplitError} (hqueue : d.queue = []) (hfailure : d.failure = some error) :
      InnerTurns d (.answers d.wakeOuter (.failed error, true))
  /-- The input is used up, and the segment without an end. -/
  | stops (hqueue : d.queue = []) (hfailure : d.failure = none) (hconnected : d.connected = false) :
      InnerTurns d (.answers d (.ended, true))
  | reads (hqueue : d.queue = []) (hfailure : d.failure = none) (hconnected : d.connected = true) :
      InnerTurns d (.reads d)

theorem innerTurns_innerTurn (d : Dispenser) : InnerTurns d d.innerTurn := by
  cases hqueue : d.queue with
  | cons entry rest =>
    cases entry with
    | chunk bytes =>
      have hturn : d.innerTurn = .answers { d with queue := rest } (.chunk bytes, false) := by
        simp only [innerTurn, hqueue]
      exact hturn ▸ .chunk hqueue
    | close =>
      have hturn : d.innerTurn =
          .answers { d with queue := rest, ended := d.ended + 1 }.wakeOuter (.ended, true) := by
        simp only [innerTurn, hqueue]
      exact hturn ▸ .closes hqueue
  | nil =>
    cases hfailure : d.failure with
    | some error =>
      have hturn : d.innerTurn = .answers d.wakeOuter (.failed error, true) := by
        simp only [innerTurn, hqueue, hfailure]
      exact hturn ▸ .fails hqueue hfailure
    | none =>
      cases hconnected : d.connected with
      | true =>
        have hturn : d.innerTurn = .reads d := by simp [innerTurn, hqueue, hfailure, hconnected]
        exact hturn ▸ .reads hqueue hfailure hconnected
      | false =>
        have hturn : d.innerTurn = .answers d (.ended, true) := by
          simp [innerTurn, hqueue, hfailure, hconnected]
        exact hturn ▸ .stops hqueue hfailure hconnected

theorem source_skipped (d : Dispenser) : d.skipped.source = d.source := by
  unfold skipped
  split
  · exact source_skipOrphan d
  · rfl

theorem source_outerTurn (d : Dispenser) : d.outerTurn.dispenser.source = d.source := by
  have hturn := d.outerTurns_outerTurn
  generalize d.outerTurn = turn at hturn
  cases hturn with
  | issues => exact (source_issue _).trans d.source_skipped
  | lets => exact d.source_skipped
  | stops => exact d.source_skipped
  | reads => exact d.source_skipped
  | _ => rfl

theorem source_innerTurn (d : Dispenser) : d.innerTurn.dispenser.source = d.source := by
  have hturn := d.innerTurns_innerTurn
  generalize d.innerTurn = turn at hturn
  cases hturn with
  | closes => exact source_wakeOuter _
  | fails => exact source_wakeOuter _
  | _ => rfl

theorem source_dropSegment (d : Dispenser) (s : Segment) :
    (d.dropSegment s).source = d.source := by
  unfold dropSegment
  split
  · rfl
  · rw [source_wakeOuter]
    split
    · exact source_skipOrphan _
    · rfl

theorem polls_supply (d : Dispenser) (item : Supply) :
    (d.supply item).source.polls = d.source.polls := by
  unfold supply
  split
  · rw [source_wakeInner, source_wakeOuter]
  · rfl

theorem source_absorb (d : Dispenser) (item : Supply) :
    (d.absorb item).source = { d.source with polls := d.source.polls + 1 } := by
  cases item <;> rfl

/-! ## Counting and accounting -/

section

variable {α : Type} {turn : Dispenser → Turn α} {wake : Dispenser → Dispenser} {waiting : α}
  {d d' : Dispenser} {items : List Supply} {asks : List Ask} {answer : α}

/-- The source is asked as often as it counts. -/
theorem Loops.polls_eq (h : Loops turn wake waiting d items asks d' answer)
    (hturn : ∀ d, (turn d).dispenser.source = d.source) (hwake : ∀ d, (wake d).source = d.source) :
    d'.source.polls = d.source.polls + asks.length := by
  induction h with
  | @answers d d' items answer hanswers =>
    have hsource := hturn d
    rw [hanswers] at hsource
    rw [← hsource]
    rfl
  | @waits d d' hreads =>
    have hsource := hturn d
    rw [hreads] at hsource
    rw [← hsource]
    rfl
  | @absorbs d d' d'' item rest asks answer hreads hrest ih =>
    have hsource := hturn d
    rw [hreads] at hsource
    rw [ih, hwake, source_absorb, ← hsource, List.length_cons]
    simp only [Turn.dispenser]
    omega

/-- What the source gives is what is missing from it then. -/
theorem Loops.given_eq (h : Loops turn wake waiting d items asks d' answer) :
    givenIn asks ++ d'.source.queue = items := by
  induction h with
  | answers hanswers => rfl
  | waits hreads => rfl
  | absorbs hreads hrest ih => exact congrArg (_ :: ·) ih

/-- The source is told to wake the dispenser only when it had nothing to give. -/
theorem Loops.queue_of_parked (h : Loops turn wake waiting d items asks d' answer)
    (hturn : ∀ d, (turn d).dispenser.source = d.source) (hwake : ∀ d, (wake d).source = d.source)
    (hitems : d.source.parked = true → items = []) (hparked : d'.source.parked = true) :
    d'.source.queue = [] := by
  induction h with
  | @answers d d' items answer hanswers =>
    have hsource := hturn d
    rw [hanswers] at hsource
    exact hitems (by rw [← hsource]; exact hparked)
  | waits hreads => rfl
  | @absorbs d d' d'' item rest asks answer hreads hrest ih =>
    refine ih (fun hearlier => ?_) hparked
    have hsource := hturn d
    rw [hreads] at hsource
    rw [hwake, source_absorb] at hearlier
    -- There was something to give, so nobody was told to wake.
    exact absurd (hitems (by rw [← hsource]; exact hearlier)) (List.cons_ne_nil _ _)

/-! ## Asking only when it is needed -/

/-- The source may be asked: a segment is open, nothing is queued, and the source has not ended. -/
structure Ready (d : Dispenser) : Prop where
  opened : d.issued = d.ended + 1
  queue_eq : d.queue = []
  connected : d.connected = true

/-- A dispenser that has taken in `taken` asks its source only when it may. -/
inductive Restrained : List Supply → List Ask → Prop where
  | nil {taken : List Supply} : Restrained taken []
  | cons {taken : List Supply} {ask : Ask} {rest : List Ask} (hready : ask.dispenser.Ready)
      (harriving : stateOf taken = .arriving)
      (hrest : Restrained (taken ++ ask.given.toList) rest) : Restrained taken (ask :: rest)

theorem Restrained.append {taken : List Supply} {first next : List Ask}
    (h : Restrained taken first) (h' : Restrained (taken ++ givenIn first) next) :
    Restrained taken (first ++ next) := by
  induction h with
  | nil => simpa [givenIn] using h'
  | @cons taken ask rest hready harriving hrest ih =>
    rw [givenIn_cons, ← List.append_assoc] at h'
    exact .cons hready harriving (ih h')

/-- Whatever was asked for before, the source had not ended. -/
theorem Restrained.at_ask {taken : List Supply} {before after : List Ask} {ask : Ask}
    (h : Restrained taken (before ++ ask :: after)) :
    ask.dispenser.Ready ∧ stateOf (taken ++ givenIn before) = .arriving ∧
      Restrained (taken ++ givenIn before ++ ask.given.toList) after := by
  induction before generalizing taken with
  | nil =>
    cases h with
    | cons hready harriving hrest =>
      rw [givenIn, List.filterMap_nil, List.append_nil]
      exact ⟨hready, harriving, hrest⟩
  | cons first before ih =>
    cases h with
    | cons hready harriving hrest =>
      rw [givenIn_cons, ← List.append_assoc]
      exact ih hrest

theorem Restrained.arriving {taken : List Supply} {ask : Ask} (h : Restrained taken asks)
    (hask : ask ∈ asks) : stateOf taken = .arriving := by
  cases h with
  | nil => cases hask
  | cons hready harriving hrest => exact harriving

theorem Restrained.eq_nil {taken : List Supply} (h : Restrained taken asks)
    (hover : stateOf taken ≠ .arriving) : asks = [] := by
  cases h with
  | nil => rfl
  | cons hready harriving hrest => exact absurd harriving hover

/-- **What a loop keeps.** A property of the dispenser and of what it has taken in that every turn
and every question keeps holds when the loop has its answer. -/
theorem Loops.preserves {I : List Supply → Dispenser → Prop}
    {Q : List Supply → Dispenser → α → Prop}
    (hreads : ∀ {taken : List Supply} {d d' : Dispenser}, I taken d → turn d = .reads d' →
      I taken d' ∧ d'.Ready ∧ stateOf taken = .arriving)
    (habsorb : ∀ {taken : List Supply} {d : Dispenser} (item : Supply), I taken d → d.Ready →
      I (taken ++ [item]) (wake (d.absorb item)))
    (hanswers : ∀ {taken : List Supply} {d d' : Dispenser} {answer : α} (items : List Supply),
      I taken d → turn d = .answers d' answer → Q taken (d'.leaving items) answer)
    (hwaits : ∀ {taken : List Supply} {d : Dispenser}, I taken d → d.Ready →
      Q taken d.park waiting)
    (h : Loops turn wake waiting d items asks d' answer) {taken : List Supply} (hI : I taken d) :
    Q (taken ++ givenIn asks) d' answer ∧ Restrained taken asks := by
  induction h generalizing taken with
  | @answers d d' items answer hturn =>
    rw [givenIn, List.filterMap_nil, List.append_nil]
    exact ⟨hanswers items hI hturn, .nil⟩
  | waits hturn =>
    obtain ⟨hI', hready, harriving⟩ := hreads hI hturn
    rw [givenIn, List.filterMap_cons_none rfl, List.filterMap_nil, List.append_nil]
    exact ⟨hwaits hI' hready, .cons hready harriving .nil⟩
  | @absorbs d d' d'' item rest asks answer hturn hrest ih =>
    obtain ⟨hI', hready, harriving⟩ := hreads hI hturn
    obtain ⟨hQ, hrestrained⟩ := ih (habsorb item hI' hready)
    rw [List.append_assoc] at hQ
    exact ⟨hQ, .cons hready harriving hrestrained⟩

end

/-! ## The operations of a dispenser -/

/-- The questions of asking for the next segment. -/
def asksOfOuter (d : Dispenser) (caller : Caller) : List Ask :=
  asksBy outerTurn wakeInner { d with outerWaiter := some caller } d.source.queue

/-- The questions of asking a segment for its next chunk. -/
def asksOfSegment (d : Dispenser) (caller : Caller) (s : Segment) : List Ask :=
  if s.done || s.index < d.ended then []
  else asksBy innerTurn wakeOuter { d with innerWaiter := some caller } d.source.queue

/-- The questions of reading a segment until it ends, fails or has to wait. -/
def asksOfMeasure : Nat → Dispenser → Segment → List Ask
  | 0, _, _ => []
  | bound + 1, d, s =>
    d.asksOfSegment .nobody s ++
      match d.pollSegment .nobody s with
      | (d, s, .chunk _) => asksOfMeasure bound d s
      | _ => []

/-- The questions of reading a segment without waiting, up to a limit. -/
def asksOfSkim (limit : Nat) : Nat → Nat → Dispenser → Segment → List Ask
  | fuel, size, d, s =>
    if limit ≤ size then []
    else
      match fuel with
      | 0 => []
      | fuel + 1 =>
        d.asksOfSegment .nobody s ++
          match d.pollSegment .nobody s with
          | (d, s, .chunk bytes) => asksOfSkim limit fuel (size + bytes.length) d s
          | _ => []

/-- The questions of skimming a segment. -/
def asksOfSkimming (d : Dispenser) (s : Segment) (limit : Nat) : List Ask :=
  match Body.skimWithin (pollAsBody .nobody) limit (d.chunkBound + 1) 0 (d, s) with
  | some _ => asksOfSkim limit (d.chunkBound + 1) 0 d s
  | none => []

/-! ## What a poll keeps -/

section

variable {delimiter : Bytes} {taken : List Supply} {past : List Entry} {d : Dispenser} {s : Segment}

theorem Tracks.stateOf_taken (h : d.Tracks delimiter taken past) (hready : d.Ready) :
    stateOf taken = .arriving := h.reflects.connected_iff.mp hready.connected

theorem Tracks.failure_of_ready (h : d.Tracks delimiter taken past) (hready : d.Ready) :
    d.failure = none := by
  have hreflects := h.reflects
  rw [h.stateOf_taken hready] at hreflects
  exact (reflects_arriving.mp hreflects).2.2

/-- **What asking for the next segment keeps.** The outer side looks after an orphan at the
beginning of each turn; a turn asks the source, or it has the answer. -/
theorem Tracks.pollOuter_keeps {I : List Supply → Dispenser → Prop}
    {Q : List Supply → Dispenser → OuterPoll → Prop} (h : d.Tracks delimiter taken past)
    (caller : Caller) (hstart : I taken { d with outerWaiter := some caller })
    (hskip : ∀ {taken : List Supply} {d : Dispenser}, d.failure = none → I taken d →
      I taken d.skipped)
    (habsorb : ∀ {taken : List Supply} {past : List Entry} {d : Dispenser} (item : Supply),
      d.Tracks delimiter taken past → d.Ready → I taken d →
      I (taken ++ [item]) (d.absorb item).wakeInner)
    (hanswers : ∀ {taken : List Supply} {past : List Entry} {d d' : Dispenser}
      {answer : OuterPoll} (items : List Supply), d.Tracks delimiter taken past → I taken d →
      d.OuterTurns (.answers d' answer) → Q taken (d'.leaving items) answer)
    (hwaits : ∀ {taken : List Supply} {past : List Entry} {d : Dispenser},
      d.Tracks delimiter taken past → d.Ready → I taken d → Q taken d.park .pending) :
    Q (taken ++ givenIn (d.asksOfOuter caller)) (d.pollOuter caller).1 (d.pollOuter caller).2 ∧
      Restrained taken (d.asksOfOuter caller) := by
  have hloop := loops_outerLoop { d with outerWaiter := some caller } d.source.queue
  refine hloop.preserves (I := fun taken d => (∃ past, d.Tracks delimiter taken past) ∧ I taken d)
    (Q := Q) ?_ ?_ ?_ ?_ ⟨⟨past, h.congr rfl⟩, hstart⟩
  · rintro taken d d' ⟨⟨past, htracks⟩, hI⟩ hturn
    have hturns := d.outerTurns_outerTurn
    rcases htracks.outerTurn with ⟨_, _, _, hanswers, -⟩ |
      ⟨left, past', hreads, htracks', -, -, hopen, hqueue, hconnected⟩
    · rw [hturn] at hanswers
      cases hanswers
    · rw [hturn] at hreads hturns
      cases hreads
      have hready : d'.Ready := ⟨hopen, hqueue, hconnected⟩
      cases hturns with
      | reads hfailure =>
        exact ⟨⟨⟨past', htracks'⟩, hskip hfailure hI⟩, hready, htracks'.stateOf_taken hready⟩
  · rintro taken d item ⟨⟨past, htracks⟩, hI⟩ hready
    have habsorbed := htracks.absorb hready.connected hready.queue_eq hready.opened item
    exact ⟨⟨past, habsorbed.congr (core_wakeInner _)⟩, habsorb item htracks hready hI⟩
  · rintro taken d d' answer items ⟨⟨past, htracks⟩, hI⟩ hturn
    have hturns := d.outerTurns_outerTurn
    rw [hturn] at hturns
    exact hanswers items htracks hI hturns
  · rintro taken d ⟨⟨past, htracks⟩, hI⟩ hready
    exact hwaits htracks hready hI

/-- Somebody holds the open segment. -/
structure Held (d : Dispenser) : Prop where
  opened : d.issued = d.ended + 1
  orphaned_eq : d.orphaned = false

theorem Held.of_core (h : d.Held) {d' : Dispenser} (hcore : d'.core = d.core) : d'.Held := by
  simp only [core, Core.mk.injEq] at hcore
  obtain ⟨-, -, -, -, -, hissued, hended, horphaned⟩ := hcore
  exact ⟨by rw [hissued, hended, h.opened], horphaned.trans h.orphaned_eq⟩

theorem Held.absorb (h : d.Held) (item : Supply) : (d.absorb item).Held := by
  obtain ⟨hopen, horphaned⟩ := h
  cases item <;> exact ⟨hopen, horphaned⟩

theorem pollSegment_of_held (hindex : s.index = d.ended) (hopen : s.done = false)
    (caller : Caller) :
    d.pollSegment caller s =
      ((innerLoop { d with innerWaiter := some caller } d.source.queue).1,
        { s with done := (innerLoop { d with innerWaiter := some caller } d.source.queue).2.2 },
        (innerLoop { d with innerWaiter := some caller } d.source.queue).2.1) := by
  rw [pollSegment, if_neg (by simp [hopen]), if_neg (by simp [hindex])]

/-- **What asking the open segment for its next chunk keeps.** -/
theorem Tracks.pollSegment_keeps {I : List Supply → Dispenser → Prop}
    {Q : List Supply → Dispenser → InnerPoll × Bool → Prop} (h : d.Tracks delimiter taken past)
    (hs : d.Stands s) (hopen : s.done = false) (caller : Caller)
    (hstart : I taken { d with innerWaiter := some caller })
    (habsorb : ∀ {taken : List Supply} {past : List Entry} {d : Dispenser} (item : Supply),
      d.Tracks delimiter taken past → d.Ready → I taken d →
      I (taken ++ [item]) (d.absorb item).wakeOuter)
    (hanswers : ∀ {taken : List Supply} {past : List Entry} {d d' : Dispenser}
      {answer : InnerPoll × Bool} (items : List Supply), d.Tracks delimiter taken past → d.Held →
      I taken d → d.InnerTurns (.answers d' answer) → Q taken (d'.leaving items) answer)
    (hwaits : ∀ {taken : List Supply} {past : List Entry} {d : Dispenser},
      d.Tracks delimiter taken past → d.Ready → d.Held → I taken d →
      Q taken d.park (.pending, false)) :
    Q (taken ++ givenIn (d.asksOfSegment caller s)) (d.pollSegment caller s).1
        ((d.pollSegment caller s).2.2, (d.pollSegment caller s).2.1.done) ∧
      Restrained taken (d.asksOfSegment caller s) := by
  obtain ⟨hindex, hissued, horphaned⟩ := hs.opened hopen
  have hloop := loops_innerLoop { d with innerWaiter := some caller } d.source.queue
  rw [asksOfSegment, pollSegment_of_held hindex hopen, if_neg (by simp [hopen, hindex])]
  refine hloop.preserves
    (I := fun taken d => (∃ past, d.Tracks delimiter taken past) ∧ d.Held ∧ I taken d)
    (Q := Q) ?_ ?_ ?_ ?_ ⟨⟨past, h.congr rfl⟩, ⟨hissued, horphaned⟩, hstart⟩
  · rintro taken d d' ⟨⟨past, htracks⟩, hheld, hI⟩ hturn
    rcases htracks.innerTurn hheld.opened hheld.orphaned_eq with ⟨_, _, _, hanswers, -⟩ |
      ⟨hreads, hqueue, hconnected⟩
    · rw [hturn] at hanswers
      cases hanswers
    · rw [hturn] at hreads
      cases hreads
      have hready : d.Ready := ⟨hheld.opened, hqueue, hconnected⟩
      exact ⟨⟨⟨past, htracks⟩, hheld, hI⟩, hready, htracks.stateOf_taken hready⟩
  · rintro taken d item ⟨⟨past, htracks⟩, hheld, hI⟩ hready
    have hcore := core_wakeOuter (d.absorb item)
    have habsorbed := htracks.absorb hready.connected hready.queue_eq hready.opened item
    exact ⟨⟨past, habsorbed.congr hcore⟩, (hheld.absorb item).of_core hcore,
      habsorb item htracks hready hI⟩
  · rintro taken d d' answer items ⟨⟨past, htracks⟩, hheld, hI⟩ hturn
    have hturns := d.innerTurns_innerTurn
    rw [hturn] at hturns
    exact hanswers items htracks hheld hI hturns
  · rintro taken d ⟨⟨past, htracks⟩, hheld, hI⟩ hready
    exact hwaits htracks hready hheld hI

end

end Dispenser

end Switchboard
