import Switchboard.Proofs.Segment.Attendance
set_option autoImplicit false

/-! # The counters, the flags and the queue agree

After every demand the fields of a dispenser fit together, and they fit what its holders hold
(`Distribution.Consistent`). A segment that is open when the input is used up therefore has its end
in the queue, so that nobody is told an end that did not come (`Distribution.EndsTruly`): those
branches of the two sides are never taken that would tell one. -/

namespace Switchboard

namespace Dispenser

/-! ## The turns of a loop -/

/-- A loop that does these turns comes to a dispenser: it begins with it, or a turn before has read
the source. -/
inductive ComesTo {α : Type} (turn : Dispenser → Turn α) (wake : Dispenser → Dispenser) :
    Dispenser → List Supply → Dispenser → Prop where
  | begins (d : Dispenser) (items : List Supply) : ComesTo turn wake d items d
  | absorbs {d d' later : Dispenser} {item : Supply} {rest : List Supply}
      (hturn : turn d = .reads d') (hrest : ComesTo turn wake (wake (d'.absorb item)) rest later) :
      ComesTo turn wake d (item :: rest) later

/-- What every turn that reads the source keeps, with the waking after it, holds at every turn. -/
theorem ComesTo.preserves {α : Type} {turn : Dispenser → Turn α} {wake : Dispenser → Dispenser}
    {d later : Dispenser} {items : List Supply} {I : Dispenser → Prop}
    (h : ComesTo turn wake d items later)
    (hreads : ∀ {d d' : Dispenser} (item : Supply), I d → turn d = .reads d' →
      I (wake (d'.absorb item))) (hI : I d) : I later := by
  induction h with
  | begins d items => exact hI
  | absorbs hturn hrest ih => exact ih (hreads _ hI hturn)

section

variable {delimiter : Bytes} {taken : List Supply} {past : List Entry} {d later : Dispenser}
  {items : List Supply}

theorem ComesTo.tracks_outer (hcomes : ComesTo outerTurn wakeInner d items later)
    (h : d.Tracks delimiter taken past) : ∃ taken' past', later.Tracks delimiter taken' past' := by
  refine hcomes.preserves (I := fun d => ∃ taken past, d.Tracks delimiter taken past) ?_
    ⟨taken, past, h⟩
  rintro d d' item ⟨taken, past, htracks⟩ hturn
  rcases htracks.outerTurn with ⟨_, _, _, hanswers, -⟩ |
    ⟨left, past', hreads, htracks', -, -, hopen, hqueue, hconnected⟩
  · rw [hturn] at hanswers
    cases hanswers
  · rw [hturn] at hreads
    cases hreads
    have habsorbed := htracks'.absorb hconnected hqueue hopen item
    exact ⟨_, _, habsorbed.congr (core_wakeInner _)⟩

theorem ComesTo.tracks_inner (hcomes : ComesTo innerTurn wakeOuter d items later)
    (h : d.Tracks delimiter taken past) (hheld : d.Held) :
    ∃ taken' past', later.Tracks delimiter taken' past' ∧ later.Held := by
  refine hcomes.preserves
    (I := fun d => ∃ taken past, d.Tracks delimiter taken past ∧ d.Held) ?_ ⟨taken, past, h, hheld⟩
  rintro d d' item ⟨taken, past, htracks, hheld⟩ hturn
  rcases htracks.innerTurn hheld.opened hheld.orphaned_eq with ⟨_, _, _, hanswers, -⟩ |
    ⟨hreads, hqueue, hconnected⟩
  · rw [hturn] at hanswers
    cases hanswers
  · rw [hturn] at hreads
    cases hreads
    have hcore := core_wakeOuter (d.absorb item)
    have habsorbed := htracks.absorb hconnected hqueue hheld.opened item
    exact ⟨_, _, habsorbed.congr hcore, (hheld.absorb item).of_core hcore⟩

/-! ## Telling the end -/

/-- The outer side is told the end when the source has failed, or when the input is used up and no
segment is open. -/
theorem Tracks.outerTurn_ended (h : d.Tracks delimiter taken past) {left : Dispenser}
    (hturn : d.outerTurn = .answers left .ended) :
    left.failure.isSome = true ∨ (left.drained = true ∧ left.issued = left.ended) := by
  rcases h.outerTurn with ⟨_, _, _, hanswers, hoffers⟩ | ⟨_, _, hreads, -⟩
  · rw [hturn] at hanswers
    cases hanswers
    cases hoffers.step with
    | ended hissued hover => exact hover
  · rw [hturn] at hreads
    cases hreads

/-- The holder of the open segment is told the end when this is queued. -/
theorem Tracks.innerTurn_ended (h : d.Tracks delimiter taken past) (hheld : d.Held)
    {left : Dispenser} {done : Bool} (hturn : d.innerTurn = .answers left (.ended, done)) :
    ∃ rest, d.queue = .close :: rest := by
  have hturns := d.innerTurns_innerTurn
  rw [hturn] at hturns
  cases hturns with
  | closes hqueue => exact ⟨_, hqueue⟩
  | stops hqueue hfailure hgone =>
    -- The source could still be read.
    have hconnected := h.connected_of_open hfailure hheld.opened hqueue
    rw [hgone] at hconnected
    cases hconnected

end

end Dispenser

namespace Distribution

open Dispenser (ComesTo PollsOn outerTurn innerTurn wakeInner wakeOuter)

/-- **The fields of a dispenser fit together**, and they fit what is held. At most one segment is
open, and only the open one can be held unfinished. When the open one is an orphan, nothing is
queued and nobody holds an unfinished segment. -/
structure Consistent (d : Distribution) : Prop where
  ended_le : d.dispenser.ended ≤ d.dispenser.issued
  issued_le : d.dispenser.issued ≤ d.dispenser.ended + 1
  index_eq : ∀ handle s, (d.holding handle).segment? = some s → s.done = false →
    s.index = d.dispenser.ended
  handle_eq : ∀ handle other s t, (d.holding handle).segment? = some s → s.done = false →
    (d.holding other).segment? = some t → t.done = false → handle = other
  of_orphaned : d.dispenser.orphaned = true → d.dispenser.issued = d.dispenser.ended + 1 ∧
    d.dispenser.queue = [] ∧ ∀ handle s, (d.holding handle).segment? = some s → s.done = true
  of_failure : d.dispenser.failure.isSome = true →
    d.dispenser.queue = [] ∧ d.dispenser.connected = false ∧ d.dispenser.drained = false
  connected_iff : d.dispenser.failure = none →
    (d.dispenser.connected = false ↔ d.dispenser.drained = true)
  of_drained : d.dispenser.failure = none → d.dispenser.drained = true →
    d.dispenser.issued ≠ d.dispenser.ended →
      ∃ chunks : List Bytes, d.dispenser.queue = chunks.map .chunk ++ [.close]

/-- **Nobody is told an end that did not come.** Whatever turn the outer side comes to when it asks,
it is told the end after a failure, or when the input is used up and no segment is open. However
often an unfinished segment was polled already, it is the open one when it is polled, and at every
turn of this poll its holder is told the end only when that is next in the queue. -/
structure EndsTruly (d : Distribution) : Prop where
  outer : ∀ caller later left,
    ComesTo outerTurn wakeInner { d.dispenser with outerWaiter := some caller }
      d.dispenser.source.queue later → later.outerTurn = .answers left .ended →
    left.failure.isSome = true ∨ (left.drained = true ∧ left.issued = left.ended)
  opened : ∀ handle s asks answers dispenser s', (d.holding handle).segment? = some s →
    PollsOn d.dispenser s asks answers dispenser s' → s'.done = false →
    s'.index = dispenser.ended
  inner : ∀ handle s asks answers dispenser s', (d.holding handle).segment? = some s →
    PollsOn d.dispenser s asks answers dispenser s' → s'.done = false →
    ∀ caller later left done,
      ComesTo innerTurn wakeOuter { dispenser with innerWaiter := some caller }
        dispenser.source.queue later → later.innerTurn = .answers left (.ended, done) →
      ∃ rest, later.queue = .close :: rest

section

variable {delimiter : Bytes} {initial : List Supply} {history : History} {taken : List Supply}
  {past : List Entry} {d : Distribution}

/-- An orphan has nothing queued: nobody holds the open segment, so that nobody has to. -/
theorem Attended.queue_of_orphaned (h : d.Attended)
    (haccords : d.Accords delimiter initial history taken past)
    (horphaned : d.dispenser.orphaned = true) : d.dispenser.queue = [] := by
  rcases h.holder with (hfailure | hclosed | ⟨-, hqueue⟩) | ⟨s, hs, hopen⟩
  · exact haccords.tracks.queue_of_failure hfailure
  · have hissued := haccords.tracks.issued_of_orphaned horphaned
    omega
  · exact hqueue
  · have hheld := ((haccords.held _ s hs).2.1.opened hopen).2.2
    rw [horphaned] at hheld
    cases hheld

theorem Accords.consistent (h : d.Accords delimiter initial history taken past)
    (hattended : d.Attended) : d.Consistent := by
  have hopened : ∀ handle s, (d.holding handle).segment? = some s → s.done = false →
      s.index = handle ∧ s.index = d.dispenser.ended ∧ d.dispenser.orphaned = false := by
    intro handle s hs hopen
    obtain ⟨hindex, hstands, -⟩ := h.held handle s hs
    exact ⟨hindex, (hstands.opened hopen).1, (hstands.opened hopen).2.2⟩
  have hissued := h.tracks.issued_eq
  refine ⟨by omega, by omega, fun handle s hs hopen => (hopened handle s hs hopen).2.1, ?_, ?_, ?_,
    ?_, fun _ hdrained hne => ?_⟩
  · intro handle other s t hs hopen ht hopen'
    obtain ⟨rfl, hindex, -⟩ := hopened handle s hs hopen
    obtain ⟨rfl, hindex', -⟩ := hopened other t ht hopen'
    exact hindex.trans hindex'.symm
  · intro horphaned
    refine ⟨h.tracks.issued_of_orphaned horphaned, hattended.queue_of_orphaned h horphaned,
      fun handle s hs => ?_⟩
    cases hdone : s.done with
    | true => rfl
    | false =>
      have hheld := (hopened handle s hs hdone).2.2
      rw [horphaned] at hheld
      cases hheld
  · intro hfailure
    obtain ⟨error, herror⟩ := Option.isSome_iff_exists.mp hfailure
    obtain ⟨cause, hstate, -⟩ := (h.tracks.reflects.failure_iff error).mp herror
    obtain ⟨hgone, hdrained, -⟩ := Dispenser.reflects_failed.mp (hstate ▸ h.tracks.reflects)
    exact ⟨h.tracks.queue_of_failure hfailure, hgone, hdrained⟩
  · intro hfailure
    constructor
    · intro hgone
      cases hdrained : d.dispenser.drained with
      | true => rfl
      | false =>
        have hconnected := h.tracks.connected_of hfailure hdrained
        rw [hgone] at hconnected
        cases hconnected
    · intro hdrained
      have hstate := h.tracks.reflects.drained_iff.mp hdrained
      exact (Dispenser.reflects_done.mp (hstate ▸ h.tracks.reflects)).1
  · rcases h.tracks.queue_of_drained hdrained with ⟨hclosed, -⟩ | ⟨-, hqueue⟩
    · exact absurd hclosed hne
    · exact hqueue

theorem Accords.endsTruly (h : d.Accords delimiter initial history taken past) : d.EndsTruly := by
  have hpolled : ∀ handle s asks answers dispenser s', (d.holding handle).segment? = some s →
      PollsOn d.dispenser s asks answers dispenser s' → s'.done = false →
      ∃ taken' past', dispenser.Tracks delimiter taken' past' ∧ dispenser.Held ∧
        s'.index = dispenser.ended := by
    intro handle s asks answers dispenser s' hs hpolls hopen
    obtain ⟨chunks, taken', past', htakes⟩ := hpolls.takes h.tracks (h.held handle s hs).2.1
    obtain ⟨hindex, hissued, hheld⟩ := htakes.stands.opened hopen
    exact ⟨taken', past', htakes.tracks, ⟨hissued, hheld⟩, hindex⟩
  constructor
  · intro caller later left hcomes hturn
    obtain ⟨taken', past', htracks⟩ := hcomes.tracks_outer (h.tracks.congr rfl)
    exact htracks.outerTurn_ended hturn
  · intro handle s asks answers dispenser s' hs hpolls hopen
    obtain ⟨-, -, -, -, hindex⟩ := hpolled handle s asks answers dispenser s' hs hpolls hopen
    exact hindex
  · intro handle s asks answers dispenser s' hs hpolls hopen caller later left done hcomes hturn
    obtain ⟨taken', past', htracks, hheld, -⟩ :=
      hpolled handle s asks answers dispenser s' hs hpolls hopen
    obtain ⟨taken'', past'', htracks', hheld'⟩ :=
      hcomes.tracks_inner (htracks.congr rfl) (hheld.of_core rfl)
    exact htracks'.innerTurn_ended hheld' hturn

end

/-- **The fields fit together after every run**, for every delimiter that is not empty, everything
that a source may give, and every order of demands; and nobody is told an end that did not come. -/
theorem consistent_run {delimiter : Bytes} (hd : delimiter ≠ []) :
    ∃ splitter, Splitter.ofDelimiter? delimiter = .ok splitter ∧
      ∀ (queue : List Supply) (demands : List Demand),
        ((ofSplitter splitter queue).run demands).1.Consistent ∧
          ((ofSplitter splitter queue).run demands).1.EndsTruly := by
  obtain ⟨splitter, hsplitter⟩ : ∃ splitter, Splitter.ofDelimiter? delimiter = .ok splitter :=
    ⟨_, if_neg hd⟩
  refine ⟨splitter, hsplitter, fun queue demands => ?_⟩
  have hbegins := accords_ofSplitter hsplitter queue
  obtain ⟨taken, past, haccords, -⟩ := hbegins.run demands
  have hattended := (attended_ofSplitter splitter queue).run hbegins demands
  exact ⟨haccords.consistent hattended, haccords.endsTruly⟩

/-- A segment is dropped half-read and skipped to the next one, which the end of the input finds
open; its end is then the last entry of the queue. -/
theorem consistent_run_drained :
    ([10] : Bytes) ≠ [] ∧ ∃ splitter, Splitter.ofDelimiter? [10] = .ok splitter ∧
      ((ofSplitter splitter [.chunk [1, 2]]).run [.next, .read 0, .drop 0]).1.Consistent ∧
      ((ofSplitter splitter [.chunk [1, 2]]).run
        [.next, .read 0, .drop 0]).1.dispenser.orphaned = true ∧
      ((ofSplitter splitter [.chunk [1, 2], .chunk [3, 10, 4], .done]).run
        [.next, .read 0, .drop 0, .next, .next]).1.Consistent ∧
      ((ofSplitter splitter [.chunk [1, 2], .chunk [3, 10, 4], .done]).run
        [.next, .read 0, .drop 0, .next, .next]).1.EndsTruly ∧
      ((ofSplitter splitter [.chunk [1, 2], .chunk [3, 10, 4], .done]).run
        [.next, .read 0, .drop 0, .next, .next]).1.dispenser.drained = true ∧
      ((ofSplitter splitter [.chunk [1, 2], .chunk [3, 10, 4], .done]).run
        [.next, .read 0, .drop 0, .next, .next]).1.dispenser.queue = [.chunk [4], .close] := by
  obtain ⟨splitter, hsplitter, hrun⟩ := consistent_run (show ([10] : Bytes) ≠ [] by decide)
  refine ⟨by decide, splitter, hsplitter, (hrun _ _).1, ?_, (hrun _ _).1, (hrun _ _).2, ?_, ?_⟩ <;>
    cases hsplitter
  · rfl
  · rfl
  · decide

end Distribution

end Switchboard
