import Switchboard.Proofs.Segment.History
import Switchboard.Proofs.Segment.Holding
set_option autoImplicit false

/-! # The invariant of a distribution

A distribution goes on with one demand after the other, in whatever order the two sides, those who
leave and the source make them. `Distribution.Accords` compares the history of its run with the two
histories that `Dispenser.Tracks` keeps. `Accords.extend` is the step of the invariant: each demand
instantiates it with what the dispenser does, and `Accords.run` follows for every run. -/

namespace Switchboard

namespace Distribution

/-! ## The invariant -/

/-- **The invariant of a distribution** after a history: the dispenser tracks what the source was
given, every holder has got what has left the queue of its segment, and a segment ends when somebody
was told so, or after it was given up. -/
structure Accords (delimiter : Bytes) (initial : List Supply) (history : History)
    (taken : List Supply) (past : List Entry) (d : Distribution) : Prop where
  tracks : d.dispenser.Tracks delimiter taken past
  supplied : taken ++ d.dispenser.source.queue = initial ++ suppliedIn (history.map Prod.fst)
  length_handles : d.handles.length = d.dispenser.issued
  handedOut_eq : handedOut history = (List.range d.dispenser.issued).map (⟨·, false⟩)
  held : ∀ handle s, (d.holding handle).segment? = some s → s.index = handle ∧
    d.dispenser.Stands s ∧ (chunksOf handle history).flatten = contentAt past handle
  chunks_begin : ∀ handle, (chunksOf handle history).flatten <+: contentAt past handle
  chunk_ne_nil : ∀ handle, ∀ bytes ∈ chunksOf handle history, bytes ≠ []
  finished : ∀ handle < d.dispenser.ended, Finished handle history
  gaveUp_of_orphaned : d.dispenser.orphaned = true → GaveUp d.dispenser.ended history

section

variable {delimiter : Bytes} {initial : List Supply} {history : History} {taken : List Supply}
  {past : List Entry} {d : Distribution}

theorem accords_ofSplitter {splitter : Splitter}
    (h : Splitter.ofDelimiter? delimiter = .ok splitter) (queue : List Supply) :
    (ofSplitter splitter queue).Accords delimiter queue [] [] [] where
  tracks := Dispenser.tracks_ofSplitter h queue
  supplied := by simp [ofSplitter, Dispenser.ofSplitter, suppliedIn]
  length_handles := rfl
  handedOut_eq := rfl
  held := by simp [ofSplitter, holding, Holding.segment?]
  chunks_begin := fun _ => List.nil_prefix
  chunk_ne_nil := by simp [chunksOf]
  finished := by simp [ofSplitter, Dispenser.ofSplitter]
  gaveUp_of_orphaned := nofun

/-! ## One demand -/

/-- **The step of the invariant**: what has to be known of a demand and of how it was served. -/
theorem Accords.extend (h : d.Accords delimiter initial history taken past)
    {event : Demand × Service} {taken' : List Supply} {past' : List Entry} {d' : Distribution}
    (htracks : d'.dispenser.Tracks delimiter taken' past')
    (hsupplied : taken' ++ d'.dispenser.source.queue =
      taken ++ d.dispenser.source.queue ++ suppliedIn [event.1])
    (hgrows : d.dispenser.Grows past d'.dispenser past')
    (hlength : d'.handles.length = d'.dispenser.issued)
    (hhanded : handedOut (history ++ [event]) =
      (List.range d'.dispenser.issued).map (⟨·, false⟩))
    (hheld : ∀ handle s, (d'.holding handle).segment? = some s → s.index = handle ∧
      d'.dispenser.Stands s ∧ contentAt past' handle =
        (chunksOf handle history).flatten ++ (chunksOf handle [event]).flatten)
    (hchunks : ∀ handle, chunksOf handle [event] = [] ∨
      ((d'.holding handle).segment?.isSome = true ∧
        ∀ bytes ∈ chunksOf handle [event], bytes ≠ []))
    (hended : d'.dispenser.ended = d.dispenser.ended ∨
      (d'.dispenser.ended = d.dispenser.ended + 1 ∧
        Finished d.dispenser.ended (history ++ [event])))
    (horphaned : d'.dispenser.orphaned = true →
      (d.dispenser.orphaned = true ∧ d'.dispenser.ended = d.dispenser.ended) ∨
        GaveUp d'.dispenser.ended (history ++ [event])) :
    d'.Accords delimiter initial (history ++ [event]) taken' past' where
  tracks := htracks
  supplied := by
    rw [hsupplied, h.supplied, List.map_append, suppliedIn_append, List.append_assoc]
    rfl
  length_handles := hlength
  handedOut_eq := hhanded
  held := by
    intro handle s hs
    obtain ⟨hindex, hstands, hcontent⟩ := hheld handle s hs
    exact ⟨hindex, hstands, by rw [chunksOf_append, List.flatten_append, hcontent]⟩
  chunks_begin := by
    intro handle
    rw [chunksOf_append, List.flatten_append]
    rcases hchunks handle with hnone | ⟨hsome, -⟩
    · rw [hnone, List.flatten_nil, List.append_nil]
      exact (h.chunks_begin handle).trans (hgrows.content_begins handle)
    · obtain ⟨s, hs⟩ := Option.isSome_iff_exists.mp hsome
      simp [(hheld handle s hs).2.2]
  chunk_ne_nil := by
    intro handle bytes hbytes
    rw [chunksOf_append, List.mem_append] at hbytes
    rcases hbytes with hold | hnew
    · exact h.chunk_ne_nil handle bytes hold
    · rcases hchunks handle with hnone | ⟨-, hne⟩
      · rw [hnone] at hnew
        cases hnew
      · exact hne bytes hnew
  finished := by
    intro handle hlt
    rcases hended with hsame | ⟨hnext, hfinished⟩
    · exact (h.finished handle (by omega)).append _
    · rcases Nat.lt_or_ge handle d.dispenser.ended with hold | hge
      · exact (h.finished handle hold).append _
      · rw [show handle = d.dispenser.ended by omega]
        exact hfinished
  gaveUp_of_orphaned := by
    intro h'
    rcases horphaned h' with ⟨hbefore, hsame⟩ | hnow
    · rw [hsame]
      exact (h.gaveUp_of_orphaned hbefore).append _
    · exact hnow

/-- A holder that an operation does not concern still holds what it held. -/
theorem Accords.still_held (h : d.Accords delimiter initial history taken past) {handle : Nat}
    {s : Segment} (hs : (d.holding handle).segment? = some s) {dispenser : Dispenser}
    {past' : List Entry} (hgrows : d.dispenser.Grows past dispenser past')
    (hopen : s.done = false → past' = past ∧ dispenser.ended = d.dispenser.ended ∧
      dispenser.issued = d.dispenser.issued ∧ dispenser.orphaned = d.dispenser.orphaned) :
    s.index = handle ∧ dispenser.Stands s ∧
      contentAt past' handle = (chunksOf handle history).flatten := by
  obtain ⟨rfl, hstands, hcontent⟩ := h.held handle s hs
  cases hdone : s.done with
  | true =>
    -- What has left the queue of a segment that has ended, or was cut off, stays.
    have hclosed := hstands.closed hdone
    refine ⟨rfl, ⟨fun h' => ?_, fun _ => ?_⟩, ?_⟩
    · rw [hdone] at h'
      cases h'
    · rcases hclosed with hlt | hfailure
      · exact .inl (Nat.lt_of_lt_of_le hlt hgrows.ended_le)
      · obtain ⟨error, herror⟩ := Option.isSome_iff_exists.mp hfailure
        exact .inr (Option.isSome_iff_exists.mpr ⟨error, hgrows.failure_mono error herror⟩)
    · rw [hgrows.content_eq s.index hclosed, hcontent]
  | false =>
    obtain ⟨rfl, hended, hissued, horphaned⟩ := hopen hdone
    refine ⟨rfl, ⟨fun _ => ?_, fun h' => ?_⟩, hcontent.symm⟩
    · rw [hended, hissued, horphaned]
      exact hstands.opened hdone
    · rw [hdone] at h'
      cases h'

theorem chunksOf_of_chunk?_eq_none {event : Demand × Service} (h : event.2.chunk? = none)
    (handle : Nat) : chunksOf handle [event] = [] := by
  simp [chunksOf, h]

theorem chunksOf_read (handle : Nat) (service : Service) :
    chunksOf handle [(.read handle, service)] = service.chunk?.toList := by
  cases hchunk : service.chunk? <;> simp [chunksOf, Demand.reads?, hchunk]

theorem chunksOf_read_ne {handle other : Nat} (h : other ≠ handle) (service : Service) :
    chunksOf other [(.read handle, service)] = [] := by
  simp [chunksOf, Demand.reads?, h.symm]

/-- The step for a demand that gives nobody a chunk or a segment. -/
theorem Accords.extend_of_none (h : d.Accords delimiter initial history taken past)
    {event : Demand × Service} {taken' : List Supply} {past' : List Entry} {d' : Distribution}
    (hchunk : event.2.chunk? = none) (hsegment : event.2.segment? = none)
    (htracks : d'.dispenser.Tracks delimiter taken' past')
    (hsupplied : taken' ++ d'.dispenser.source.queue =
      taken ++ d.dispenser.source.queue ++ suppliedIn [event.1])
    (hgrows : d.dispenser.Grows past d'.dispenser past')
    (hlength : d'.handles.length = d.handles.length)
    (hissued : d'.dispenser.issued = d.dispenser.issued)
    (hheld : ∀ handle s, (d'.holding handle).segment? = some s → s.index = handle ∧
      d'.dispenser.Stands s ∧ contentAt past' handle = (chunksOf handle history).flatten)
    (hended : d'.dispenser.ended = d.dispenser.ended ∨
      (d'.dispenser.ended = d.dispenser.ended + 1 ∧
        Finished d.dispenser.ended (history ++ [event])))
    (horphaned : d'.dispenser.orphaned = true →
      (d.dispenser.orphaned = true ∧ d'.dispenser.ended = d.dispenser.ended) ∨
        GaveUp d'.dispenser.ended (history ++ [event])) :
    d'.Accords delimiter initial (history ++ [event]) taken' past' := by
  have hnone := chunksOf_of_chunk?_eq_none hchunk
  refine h.extend htracks hsupplied hgrows ?_ ?_ ?_ (fun handle => .inl (hnone handle)) hended
    horphaned
  · rw [hlength, h.length_handles, hissued]
  · rw [handedOut_append, h.handedOut_eq, hissued]
    simp [handedOut, hsegment]
  · intro handle s hs
    rw [hnone handle, List.flatten_nil, List.append_nil]
    exact hheld handle s hs

/-- The step for a demand that changes nothing that decides over the segments. -/
theorem Accords.extend_of_core (h : d.Accords delimiter initial history taken past)
    {event : Demand × Service} {d' : Distribution}
    (hchunk : event.2.chunk? = none) (hsegment : event.2.segment? = none)
    (hcore : d'.dispenser.core = d.dispenser.core)
    (hqueue : d'.dispenser.source.queue = d.dispenser.source.queue ++ suppliedIn [event.1])
    (hlength : d'.handles.length = d.handles.length)
    (hholding : ∀ handle, (d'.holding handle).segment? = (d.holding handle).segment?) :
    d'.Accords delimiter initial (history ++ [event]) taken past := by
  have hended := congrArg Dispenser.Core.ended hcore
  have hissued := congrArg Dispenser.Core.issued hcore
  have horphaned := congrArg Dispenser.Core.orphaned hcore
  have hgrows : d.dispenser.Grows past d'.dispenser past := Dispenser.grows_of_core hcore
  refine h.extend_of_none hchunk hsegment (h.tracks.congr hcore) ?_ hgrows hlength hissued ?_
    (.inl hended) fun h' => .inl ⟨horphaned.symm.trans h', hended⟩
  · rw [hqueue, List.append_assoc]
  · intro handle s hs
    rw [hholding handle] at hs
    exact h.still_held hs hgrows fun _ => ⟨rfl, hended, hissued, horphaned⟩

/-! ## What handles hold -/

theorem lt_length_of_segment? {handle : Nat} {s : Segment}
    (h : (d.holding handle).segment? = some s) : handle < d.handles.length := by
  refine Nat.lt_of_not_le fun hle => ?_
  rw [holding, List.getElem?_eq_none hle] at h
  cases h

theorem holding_update_self {handle : Nat} (h : handle < d.handles.length)
    (dispenser : Dispenser) (holding : Holding) :
    (d.update dispenser handle holding).holding handle = holding := by
  simp [Distribution.holding, update, h]

theorem holding_update_ne {handle other : Nat} (h : other ≠ handle) (dispenser : Dispenser)
    (holding : Holding) :
    (d.update dispenser handle holding).holding other = d.holding other := by
  simp [Distribution.holding, update, List.getElem?_set_ne h.symm]

/-- Only one holder has an unfinished segment. -/
theorem Accords.done_of_other (h : d.Accords delimiter initial history taken past)
    {handle other : Nat} {s t : Segment} (hs : (d.holding handle).segment? = some s)
    (ht : (d.holding other).segment? = some t) (hne : other ≠ handle) (hopen : t.done = false) :
    s.done = true := by
  cases hdone : s.done with
  | true => rfl
  | false =>
    obtain ⟨rfl, hstands, -⟩ := h.held handle s hs
    obtain ⟨rfl, hstands', -⟩ := h.held other t ht
    exact absurd ((hstands'.opened hopen).1.trans (hstands.opened hdone).1.symm) hne

/-! ## Each demand -/

/-- A holder that is not there any more changes nothing. -/
theorem Accords.gone (h : d.Accords delimiter initial history taken past) {demand : Demand}
    (hdemand : suppliedIn [demand] = []) :
    d.Accords delimiter initial (history ++ [(demand, .gone)]) taken past :=
  h.extend_of_core rfl rfl rfl (by simp [hdemand]) rfl fun _ => rfl

theorem Accords.supply (h : d.Accords delimiter initial history taken past) (item : Supply) :
    Accords delimiter initial (history ++ [(.supply item, .nothing)]) taken past
      { d with dispenser := d.dispenser.supply item } :=
  h.extend_of_core rfl rfl (Dispenser.core_supply _ _) (Dispenser.queue_supply _ _) rfl
    fun _ => rfl

theorem Accords.leave (h : d.Accords delimiter initial history taken past) :
    Accords delimiter initial (history ++ [(.leave, .nothing)]) taken past
      { d with outerHeld := false } :=
  h.extend_of_core rfl rfl rfl (by simp [suppliedIn]) rfl fun _ => rfl

theorem Accords.toBody (h : d.Accords delimiter initial history taken past) {handle : Nat}
    {s : Segment} (hs : (d.holding handle).segment? = some s) :
    (d.update d.dispenser handle (.body s)).Accords delimiter initial
      (history ++ [(.toBody handle, .nothing)]) taken past := by
  refine h.extend_of_core rfl rfl rfl ?_ (by simp [update]) fun other => ?_
  · simp [update, suppliedIn]
  · by_cases hother : other = handle
    · rw [hother, holding_update_self (lt_length_of_segment? hs), hs]
      rfl
    · rw [holding_update_ne hother]

/-- Whoever holds a segment, or its body, is given a chunk, told the end, or has to wait. -/
theorem Accords.take (h : d.Accords delimiter initial history taken past) {handle : Nat}
    {s s' : Segment} (hs : (d.holding handle).segment? = some s) {chunks : List Bytes}
    {taken' : List Supply} {past' : List Entry} {dispenser : Dispenser}
    (htakes : Dispenser.Takes delimiter taken past d.dispenser s chunks taken' past' dispenser s')
    {holding : Holding} (hholding : holding.segment? = some s') {service : Service}
    (hchunk : service.chunk?.toList = chunks) (hsegment : service.segment? = none)
    (hend : dispenser.ended = d.dispenser.ended + 1 → service.tellsEnd = true) :
    (d.update dispenser handle holding).Accords delimiter initial
      (history ++ [(.read handle, service)]) taken' past' := by
  obtain ⟨hindex, hstands, hcontent⟩ := h.held handle s hs
  have hlt := lt_length_of_segment? hs
  have hself : chunksOf handle [(.read handle, service)] = chunks := by
    rw [chunksOf_read, hchunk]
  have hother : ∀ other, other ≠ handle → chunksOf other [(.read handle, service)] = [] :=
    fun other hne => chunksOf_read_ne hne service
  refine h.extend htakes.tracks ?_ htakes.grows ?_ ?_ ?_ ?_ ?_ ?_
  · simp only [suppliedIn, List.filterMap_cons, List.filterMap_nil, List.append_nil]
    exact htakes.supplied
  · rw [update, List.length_set, h.length_handles]
    exact htakes.issued_eq.symm
  · have hissued : (d.update dispenser handle holding).dispenser.issued = d.dispenser.issued :=
      htakes.issued_eq
    rw [handedOut_append, h.handedOut_eq, hissued]
    simp [handedOut, hsegment]
  · intro other t ht
    by_cases hne : other = handle
    · subst hne
      rw [holding_update_self hlt, hholding, Option.some.injEq] at ht
      subst ht
      refine ⟨htakes.index_eq.trans hindex, htakes.stands, ?_⟩
      rw [hself, hcontent, ← hindex]
      exact htakes.content_eq
    · rw [holding_update_ne hne] at ht
      rw [hother other hne, List.flatten_nil, List.append_nil]
      refine h.still_held ht htakes.grows fun hopen => ?_
      obtain ⟨-, hpast, hended⟩ := htakes.of_done (h.done_of_other hs ht hne hopen)
      exact ⟨hpast, hended, htakes.issued_eq, htakes.orphaned_eq⟩
  · intro other
    by_cases hne : other = handle
    · subst hne
      rw [holding_update_self hlt, hholding, hself]
      exact .inr ⟨rfl, htakes.chunk_ne_nil⟩
    · exact .inl (hother other hne)
  -- The segment that has ended is the one that is read, and its holder is told so.
  · rcases htakes.ended_eq with hsame | ⟨hopen, -, hnext⟩
    · exact .inl hsame
    · refine .inr ⟨hnext, .inl ⟨_, List.mem_append_right _ (List.mem_singleton_self _), ?_, ?_⟩⟩
      · rw [← (hstands.opened hopen).1, hindex]
        rfl
      · exact hend hnext
  · intro horphaned
    refine .inl ⟨htakes.orphaned_eq ▸ horphaned, ?_⟩
    rcases htakes.ended_eq with hsame | ⟨hopen, -, -⟩
    · exact hsame
    · have hnot := (hstands.opened hopen).2.2
      rw [← htakes.orphaned_eq, show dispenser.orphaned = true from horphaned] at hnot
      cases hnot

/-- A segment, or its body, is given up. -/
theorem Accords.giveUp (h : d.Accords delimiter initial history taken past) {handle : Nat}
    {s : Segment} (hs : (d.holding handle).segment? = some s) {content : Bytes}
    {taken' : List Supply} {past' : List Entry} {dispenser : Dispenser}
    (hleaves : Dispenser.Leaves delimiter taken past d.dispenser s content taken' past' dispenser)
    {demand : Demand} (hdemand : demand.givesUp? = some handle) {service : Service}
    (hchunk : service.chunk? = none) (hsegment : service.segment? = none)
    (hgone : service.isGone = false) :
    (d.update dispenser handle .released).Accords delimiter initial
      (history ++ [(demand, service)]) taken' past' := by
  obtain ⟨hindex, hstands, -⟩ := h.held handle s hs
  have hgaveUp : GaveUp handle (history ++ [(demand, service)]) :=
    ⟨_, List.mem_append_right _ (List.mem_singleton_self _), hdemand, hgone⟩
  refine h.extend_of_none hchunk hsegment hleaves.tracks ?_ hleaves.grows (by simp [update])
    hleaves.issued_eq ?_ ?_ ?_
  · have hnothing : suppliedIn [demand] = [] := by
      cases demand with
      | supply item => cases hdemand
      | _ => rfl
    simp only [hnothing, List.append_nil]
    exact hleaves.supplied
  · intro other t ht
    have hne : other ≠ handle := by
      rintro rfl
      rw [holding_update_self (lt_length_of_segment? hs)] at ht
      cases ht
    rw [holding_update_ne hne] at ht
    refine h.still_held ht hleaves.grows fun hopen => ?_
    obtain ⟨hpast, hended, horphaned⟩ := hleaves.of_done (h.done_of_other hs ht hne hopen)
    exact ⟨hpast, hended, hleaves.issued_eq, horphaned⟩
  -- A segment that was skipped to its end, or is an orphan now, is the one that is given up.
  · cases hdone : s.done with
    | true => exact .inl (hleaves.of_done hdone).2.1
    | false =>
      rcases hleaves.of_open hdone with hsame | ⟨hnext, -⟩
      · exact .inl hsame
      · refine .inr ⟨hnext, .inr ?_⟩
        rwa [← (hstands.opened hdone).1, hindex]
  · intro horphaned
    cases hdone : s.done with
    | true =>
      obtain ⟨-, hended, hsame⟩ := hleaves.of_done hdone
      exact .inl ⟨hsame ▸ horphaned, hended⟩
    | false =>
      rcases hleaves.of_open hdone with hsame | ⟨-, hnot⟩
      · refine .inr ?_
        rwa [show (d.update dispenser handle .released).dispenser.ended = d.dispenser.ended from
          hsame, ← (hstands.opened hdone).1, hindex]
      · rw [show dispenser.orphaned = true from horphaned] at hnot
        cases hnot

theorem consume_cases (d : Distribution) (handle : Nat)
    (operation : Segment → Dispenser × Service) :
    d.consume handle operation = (d, .gone) ∨ ∃ s, (d.holding handle).segment? = some s ∧
      d.consume handle operation =
        (d.update (operation s).1 handle .released, (operation s).2) := by
  rw [Distribution.consume]
  cases hs : (d.holding handle).segment? with
  | none => exact .inl rfl
  | some s => exact .inr ⟨s, rfl, rfl⟩

/-- The step for every demand that gives a segment up for what an operation on it gives. -/
theorem Accords.consume (h : d.Accords delimiter initial history taken past) {demand : Demand}
    {handle : Nat} (hdemand : demand.givesUp? = some handle)
    {operation : Segment → Dispenser × Service}
    (hoperation : ∀ s, d.dispenser.Stands s → ∃ content taken' past',
      Dispenser.Leaves delimiter taken past d.dispenser s content taken' past' (operation s).1)
    (hservice : ∀ s, (operation s).2.chunk? = none ∧ (operation s).2.segment? = none ∧
      (operation s).2.isGone = false) :
    ∃ taken' past', (d.consume handle operation).1.Accords delimiter initial
        (history ++ [(demand, (d.consume handle operation).2)]) taken' past' ∧
      d.dispenser.Grows past (d.consume handle operation).1.dispenser past' := by
  rcases d.consume_cases handle operation with hgone | ⟨s, hs, hconsume⟩
  · rw [hgone]
    refine ⟨taken, past, h.gone ?_, .refl _ _⟩
    cases demand with
    | supply item => cases hdemand
    | _ => rfl
  · rw [hconsume]
    obtain ⟨content, taken', past', hleaves⟩ := hoperation s (h.held handle s hs).2.1
    obtain ⟨hchunk, hsegment, hnotGone⟩ := hservice s
    exact ⟨taken', past', h.giveUp hs hleaves hdemand hchunk hsegment hnotGone, hleaves.grows⟩

theorem next_of_left (h : d.outerHeld = false) : d.next = (d, .gone) := by
  rw [next, h]
  rfl

theorem next_of_held (h : d.outerHeld = true) :
    d.next = ({ d with dispenser := (d.dispenser.pollOuter .outer).1,
                       handles := d.handles ++ (Service.outer
                         (d.dispenser.pollOuter .outer).2).segment?.toList.map .segment },
      .outer (d.dispenser.pollOuter .outer).2) := by
  rw [next, h]
  generalize d.dispenser.pollOuter .outer = result
  obtain ⟨dispenser, answer⟩ := result
  cases answer <;> simp [Service.segment?]

/-- The outer side is handed the next segment, or none. -/
theorem issued_of_step {issued : Nat} {answer : OuterPoll} {dispenser : Dispenser}
    (h : Dispenser.OuterStep issued past answer dispenser) :
    ((Service.outer answer).segment?.toList = [] ∧ dispenser.issued = issued) ∨
      ((Service.outer answer).segment?.toList = [⟨issued, false⟩] ∧
        dispenser.issued = issued + 1 ∧ dispenser.ended = issued ∧ dispenser.orphaned = false ∧
        contentAt past issued = []) := by
  cases h with
  | segment hissued hended hheld hcontent => exact .inr ⟨rfl, hissued, hended, hheld, hcontent⟩
  | failed hissued hfailure => exact .inl ⟨rfl, hissued⟩
  | pending hissued hopen => exact .inl ⟨rfl, hissued⟩
  | ended hissued hover => exact .inl ⟨rfl, hissued⟩

/-- What asking for the next segment does to the segments that are held: nothing. -/
theorem Accords.held_of_offers (h : d.Accords delimiter initial history taken past)
    {taken' : List Supply} {past' : List Entry} {dispenser : Dispenser} {answer : OuterPoll}
    (hoffers : Dispenser.Offers delimiter taken' past d.dispenser answer past' dispenser)
    {handle : Nat} {s : Segment} (hs : (d.holding handle).segment? = some s) :
    s.index = handle ∧ dispenser.Stands s ∧
      contentAt past' handle = (chunksOf handle history).flatten := by
  refine h.still_held hs hoffers.proceeds.grows fun hopen => ?_
  obtain ⟨-, hissued, hheld⟩ := (h.held handle s hs).2.1.opened hopen
  rcases hoffers.proceeds.orphan with ⟨hended, horphaned⟩ | ⟨horphaned, -, -⟩
  · refine ⟨hoffers.proceeds.past_of_held hheld, hended, ?_, horphaned⟩
    -- No other segment is handed out while this one is open.
    rcases issued_of_step hoffers.step with ⟨-, hsame⟩ | ⟨-, -, hended', -, -⟩
    · exact hsame
    · omega
  · rw [hheld] at horphaned
    cases horphaned

/-- The outer side asks for the next segment. -/
theorem Accords.offer (h : d.Accords delimiter initial history taken past)
    {taken' : List Supply} {past' : List Entry} {dispenser : Dispenser} {answer : OuterPoll}
    (hoffers : Dispenser.Offers delimiter taken' past d.dispenser answer past' dispenser)
    (hsupplied : taken' ++ dispenser.source.queue = taken ++ d.dispenser.source.queue) :
    Accords delimiter initial (history ++ [(.next, .outer answer)]) taken' past'
      { d with dispenser := dispenser,
               handles := d.handles ++ (Service.outer answer).segment?.toList.map .segment } := by
  have hnone : ∀ handle, chunksOf handle [(.next, .outer answer)] = [] :=
    fun handle => chunksOf_of_chunk?_eq_none (by rfl) handle
  have hsegment : handedOut [(.next, .outer answer)] = (Service.outer answer).segment?.toList := by
    cases hs : (Service.outer answer).segment? <;> simp [handedOut, hs]
  refine h.extend hoffers.tracks ?_ hoffers.proceeds.grows ?_ ?_ ?_
    (fun handle => .inl (hnone handle)) ?_ ?_
  · simp only [suppliedIn, List.filterMap_cons, List.filterMap_nil, List.append_nil]
    exact hsupplied
  · simp only [List.length_append, List.length_map, h.length_handles]
    rcases issued_of_step hoffers.step with ⟨hsegment, hissued⟩ | ⟨hsegment, hissued, -⟩
    · rw [hsegment, hissued, List.length_nil, Nat.add_zero]
    · rw [hsegment, hissued, List.length_singleton]
  · rw [handedOut_append, h.handedOut_eq, hsegment]
    rcases issued_of_step hoffers.step with ⟨hnothing, hissued⟩ | ⟨hnext, hissued, -⟩
    · simp [hnothing, hissued]
    · simp [hnext, hissued, List.range_succ]
  · intro handle s hs
    rw [hnone handle, List.flatten_nil, List.append_nil]
    rcases Nat.lt_or_ge handle d.handles.length with hlt | hge
    · rw [holding, List.getElem?_append_left hlt] at hs
      exact h.held_of_offers hoffers hs
    · rw [holding, List.getElem?_append_right hge] at hs
      rcases issued_of_step hoffers.step with
        ⟨hnothing, -⟩ | ⟨hnext, hissued, hended, hheld, hcontent⟩
      · simp [hnothing, Holding.segment?] at hs
      -- The handle is the one of the segment that was just handed out.
      · rw [hnext] at hs
        cases hoffset : handle - d.handles.length with
        | succ offset => simp [hoffset, Holding.segment?] at hs
        | zero =>
          have hhandle : handle = d.dispenser.issued := by
            have hlength := h.length_handles
            omega
          have hs : ⟨d.dispenser.issued, false⟩ = s := by
            simpa [hoffset, Holding.segment?] using hs
          have hbegins := (h.chunks_begin handle).trans
            (hoffers.proceeds.grows.content_begins handle)
          rw [hhandle, hcontent, List.prefix_nil] at hbegins
          subst hs
          refine ⟨hhandle.symm, ⟨fun _ => ⟨hended.symm, ?_, hheld⟩, nofun⟩, ?_⟩
          · show dispenser.issued = dispenser.ended + 1
            rw [hissued, hended]
          · rw [hhandle, hcontent, hbegins]
  -- Only an orphan ends here, which was given up before.
  · rcases hoffers.proceeds.orphan with ⟨hended, -⟩ | ⟨horphaned, -, hended⟩
    · exact .inl hended
    · exact .inr ⟨hended, .inr ((h.gaveUp_of_orphaned horphaned).append _)⟩
  · intro horphaned'
    rcases hoffers.proceeds.orphan with ⟨hended, horphaned⟩ | ⟨-, hnot, -⟩
    · exact .inl ⟨horphaned ▸ horphaned', hended⟩
    · rw [show dispenser.orphaned = true from horphaned'] at hnot
      cases hnot

/-- What a poll of a body made from a segment gives, for what a poll of the segment gives. -/
def polledAs : InnerPoll → Polled
  | .chunk bytes => .frame (.data bytes)
  | .failed error => .failed (.split error)
  | .pending => .pending
  | .ended => .ended

theorem pollAsBody_eq (caller : Caller) (dispenser : Dispenser) (s : Segment) :
    Dispenser.pollAsBody caller (dispenser, s) =
      (polledAs (dispenser.pollSegment caller s).2.2, (dispenser.pollSegment caller s).1,
        (dispenser.pollSegment caller s).2.1) := by
  rw [Dispenser.pollAsBody]
  generalize dispenser.pollSegment caller s = result
  obtain ⟨dispenser', s', answer⟩ := result
  cases answer <;> rfl

/-- What the holder of a segment hears when it asks for more, which is `s` then. -/
structure Hears (before after : Dispenser) (s : Segment) (service : Service) : Prop where
  segment?_eq : service.segment? = none
  tellsEnd_of_ended : after.ended = before.ended + 1 → service.tellsEnd = true
  done_of_tellsEnd : service.tellsEnd = true → s.done = true
  failure_of_tells : service.tellsFailure = true → after.failure.isSome = true

/-- A poll of a held segment, whichever way it is held. -/
theorem Accords.hears (h : d.Accords delimiter initial history taken past) {handle : Nat}
    {s : Segment} (hs : (d.holding handle).segment? = some s) {serviceOf : InnerPoll → Service}
    (hservice : (∀ answer, serviceOf answer = .chunk answer) ∨
      ∀ answer, serviceOf answer = .frame (polledAs answer)) :
    ∃ dispenser s' answer taken' past',
      d.dispenser.pollSegment (.inner handle) s = (dispenser, s', answer) ∧
      Dispenser.Takes delimiter taken past d.dispenser s (serviceOf answer).chunk?.toList taken'
        past' dispenser s' ∧
      Hears d.dispenser dispenser s' (serviceOf answer) := by
  obtain ⟨taken', past', htakes, hdone, hended, hfailed⟩ :=
    h.tracks.pollSegment (h.held handle s hs).2.1 (.inner handle)
  generalize d.dispenser.pollSegment (.inner handle) s = result at *
  obtain ⟨dispenser, s', answer⟩ := result
  have hfailure : ∀ error, answer = .failed error → dispenser.failure.isSome = true :=
    fun error herror => Option.isSome_iff_exists.mpr ⟨error, hfailed error herror⟩
  have hchunk : (serviceOf answer).chunk?.toList = Dispenser.chunksIn answer := by
    rcases hservice with hservice | hservice <;> rw [hservice] <;> cases answer <;> rfl
  refine ⟨dispenser, s', answer, taken', past', rfl, hchunk ▸ htakes, ?_, fun h' => ?_,
    fun h' => ?_, fun h' => ?_⟩
  · rcases hservice with hservice | hservice <;> rw [hservice] <;> rfl
  · have hanswer : answer = .ended := hended h'
    rcases hservice with hservice | hservice <;> rw [hservice, hanswer] <;> rfl
  · refine hdone ?_
    rcases hservice with hservice | hservice <;> rw [hservice] at h' <;>
      cases answer <;> first | rfl | cases h'
  · rcases hservice with hservice | hservice <;> rw [hservice] at h' <;> cases answer <;>
      first | exact hfailure _ rfl | cases h'

/-- Reading a handle, whether a segment is held under it or the body made from one. -/
theorem Accords.read_cases (h : d.Accords delimiter initial history taken past) (handle : Nat) :
    d.read handle = (d, .gone) ∨
    ∃ s s' dispenser holding service taken' past', (d.holding handle).segment? = some s ∧
      d.read handle = (d.update dispenser handle holding, service) ∧ holding.segment? = some s' ∧
      Dispenser.Takes delimiter taken past d.dispenser s service.chunk?.toList taken' past'
        dispenser s' ∧
      Hears d.dispenser dispenser s' service := by
  cases hholding : d.holding handle with
  | released => exact .inl (by rw [Distribution.read, hholding])
  | segment s =>
    have hs : (d.holding handle).segment? = some s := by rw [hholding]; rfl
    obtain ⟨dispenser, s', answer, taken', past', hpoll, htakes, hhears⟩ :=
      h.hears hs (.inl fun _ => rfl)
    refine .inr ⟨s, s', dispenser, .segment s', .chunk answer, taken', past', rfl, ?_, rfl, htakes,
      hhears⟩
    rw [Distribution.read, hholding]
    simp only [hpoll]
  | body s =>
    have hs : (d.holding handle).segment? = some s := by rw [hholding]; rfl
    obtain ⟨dispenser, s', answer, taken', past', hpoll, htakes, hhears⟩ :=
      h.hears hs (.inr fun _ => rfl)
    refine .inr ⟨s, s', dispenser, .body s', .frame (polledAs answer), taken', past', rfl, ?_, rfl,
      htakes, hhears⟩
    rw [Distribution.read, hholding]
    simp only [pollAsBody_eq, hpoll]

/-- **Every demand keeps the invariant.** -/
theorem Accords.serve (h : d.Accords delimiter initial history taken past) (demand : Demand) :
    ∃ taken' past', (d.serve demand).1.Accords delimiter initial
        (history ++ [(demand, (d.serve demand).2)]) taken' past' ∧
      d.dispenser.Grows past (d.serve demand).1.dispenser past' := by
  cases demand with
  | supply item =>
    exact ⟨taken, past, h.supply item, Dispenser.grows_of_core (Dispenser.core_supply _ _)⟩
  | leave => exact ⟨taken, past, h.leave, .refl _ _⟩
  | next =>
    rw [Distribution.serve]
    cases hheld : d.outerHeld with
    | false =>
      rw [next_of_left hheld]
      exact ⟨taken, past, h.gone rfl, .refl _ _⟩
    | true =>
      obtain ⟨taken', past', hsupplied, hoffers⟩ := h.tracks.pollOuter .outer
      rw [next_of_held hheld]
      exact ⟨taken', past', h.offer hoffers hsupplied, hoffers.proceeds.grows⟩
  | read handle =>
    rw [Distribution.serve]
    rcases h.read_cases handle with hgone |
      ⟨s, s', dispenser, holding, service, taken', past', hs, hread, hholding, htakes, hhears⟩
    · rw [hgone]
      exact ⟨taken, past, h.gone rfl, .refl _ _⟩
    · rw [hread]
      exact ⟨taken', past', h.take hs htakes hholding rfl hhears.segment?_eq
        hhears.tellsEnd_of_ended, htakes.grows⟩
  | toBody handle =>
    rw [Distribution.serve]
    cases hs : (d.holding handle).segment? with
    | none => exact ⟨taken, past, h.gone rfl, .refl _ _⟩
    | some s => exact ⟨taken, past, h.toBody hs, .refl _ _⟩
  | measure handle =>
    refine h.consume rfl (fun s hstands => ?_) fun _ => ⟨rfl, rfl, rfl⟩
    obtain ⟨content, taken', past', hleaves, -⟩ := h.tracks.measureSegment hstands
    exact ⟨content, taken', past', hleaves⟩
  | skim handle limit =>
    refine h.consume rfl (fun s hstands => ?_) fun _ => ⟨rfl, rfl, rfl⟩
    obtain ⟨content, taken', past', hleaves, -⟩ := h.tracks.skimSegment hstands limit
    exact ⟨content, taken', past', hleaves⟩
  | drop handle =>
    refine h.consume rfl (fun s hstands => ?_) fun _ => ⟨rfl, rfl, rfl⟩
    obtain ⟨past', hleaves⟩ := h.tracks.dropSegment hstands
    exact ⟨[], taken, past', hleaves⟩

/-- **Every run keeps the invariant.** -/
theorem Accords.run (h : d.Accords delimiter initial history taken past) (demands : List Demand) :
    ∃ taken' past', (d.run demands).1.Accords delimiter initial
        (history ++ d.history demands) taken' past' ∧
      d.dispenser.Grows past (d.run demands).1.dispenser past' := by
  -- On the demands that are left, with the history so far.
  induction demands generalizing d history taken past with
  | nil => exact ⟨taken, past, by simpa [Distribution.history, Distribution.run] using h, .refl _ _⟩
  | cons demand rest ih =>
    obtain ⟨taken₁, past₁, haccords, hgrows⟩ := h.serve demand
    obtain ⟨taken₂, past₂, haccords', hgrows'⟩ := ih haccords
    refine ⟨taken₂, past₂, ?_, hgrows.trans hgrows'⟩
    rw [List.append_assoc, List.singleton_append] at haccords'
    exact haccords'

end

end Distribution

end Switchboard
