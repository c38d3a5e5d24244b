import Switchboard.Proofs.Segment.Distribution
set_option autoImplicit false

/-! # What a distribution serves

A distribution serves the leftmost split of its input, however the input is cut into chunks, in
whatever order both sides ask, and whoever gives up a segment half-read. `Dispenser.Tracks.fits`
relates what has been taken in of an input to the segments of the whole, and the answer to each kind
of demand follows from the invariant at that moment of the run. -/

namespace Switchboard

/-! ## An input that does not fail -/

/-- What a source has given is the beginning of an input in chunks and its end. -/
def Gives (input : Bytes) (items : List Supply) : Prop :=
  ∃ chunks : List Bytes, chunks.flatten = input ∧ items <+: chunks.map .chunk ++ [.done]

theorem Gives.of_begins {input : Bytes} {items taken : List Supply} (h : Gives input items)
    (htaken : taken <+: items) : Gives input taken := by
  obtain ⟨chunks, hchunks, hitems⟩ := h
  exact ⟨chunks, hchunks, htaken.trans hitems⟩

/-- What was given by an earlier moment of a run. -/
theorem Gives.of_append {input : Bytes} {queue : List Supply} {before after : Distribution.History}
    (h : Gives input (queue ++ Distribution.suppliedIn ((before ++ after).map Prod.fst))) :
    Gives input (queue ++ Distribution.suppliedIn (before.map Prod.fst)) := by
  refine h.of_begins ?_
  rw [List.map_append, Distribution.suppliedIn_append, ← List.append_assoc]
  exact List.prefix_append _ _

theorem stateOf_of_begins {chunks : List Bytes} {taken : List Supply}
    (h : taken <+: chunks.map .chunk ++ [.done]) :
    (stateOf taken = .arriving ∧ bytesOf taken <+: chunks.flatten) ∨
      (stateOf taken = .done ∧ bytesOf taken = chunks.flatten) := by
  induction chunks generalizing taken with
  | nil =>
    rcases List.prefix_cons_iff.mp h with rfl | ⟨rest, rfl, hrest⟩
    · exact .inl ⟨rfl, List.prefix_rfl⟩
    · exact .inr ⟨rfl, rfl⟩
  | cons chunk chunks ih =>
    rcases List.prefix_cons_iff.mp h with rfl | ⟨rest, rfl, hrest⟩
    · exact .inl ⟨rfl, List.nil_prefix⟩
    · rcases ih hrest with ⟨hstate, hbytes⟩ | ⟨hstate, hbytes⟩
      · exact .inl ⟨hstate, (List.prefix_append_right_inj chunk).mpr hbytes⟩
      · exact .inr ⟨hstate, congrArg (chunk ++ ·) hbytes⟩

/-- How far a dispenser is with the segments of an input. -/
structure Dispenser.Fits (segments : List Bytes) (past : List Entry) (d : Dispenser) : Prop where
  failure_eq : d.failure = none
  issued_le : d.issued ≤ segments.length
  ended_of_drained : d.drained = true → d.issued = d.ended → d.ended = segments.length
  content_eq : ∀ index < d.ended, segments[index]? = some (contentAt past index)
  content_begins : ∀ index segment, segments[index]? = some segment →
    contentAt past index <+: segment

/-- **What a dispenser has taken in of an input** is the beginning of its leftmost split. -/
theorem Dispenser.Tracks.fits {delimiter input : Bytes} {taken : List Supply} {past : List Entry}
    {d : Dispenser} (h : d.Tracks delimiter taken past) (hd : delimiter ≠ [])
    (hgives : Gives input taken) : d.Fits (splitLeftmost delimiter input) past := by
  obtain ⟨chunks, rfl, hbegins⟩ := hgives
  have hrenders := h.renders
  have hended := h.ended_eq
  have hissued := h.issued_eq
  have hends : endsIn (past ++ d.queue) = endsIn past + endsIn d.queue := endsIn_append _ _
  rcases stateOf_of_begins hbegins with ⟨hstate, rest, hrest⟩ | ⟨hstate, hbytes⟩
  -- Input is still to come, which `rest` stands for.
  · rw [Renders, hstate] at hrenders
    obtain ⟨opened, harrived, -⟩ := hrenders
    obtain ⟨-, hdrained, hfailure⟩ := Dispenser.reflects_arriving.mp (hstate ▸ h.reflects)
    obtain ⟨hbegins, hlength⟩ :=
      beginsSegments_of_arriving hd harrived.free harrived.opened_eq rest
    rw [← harrived.split_eq rest, hrest] at hbegins hlength
    refine ⟨hfailure, by omega, fun h' => ?_, fun index hlt => ?_, fun index segment =>
      hbegins.contentAt_begins⟩
    · rw [hdrained] at h'
      cases h'
    · exact hbegins.contentAt_of_lt (hended ▸ hlt)
  -- The input has ended, and the entries are those of all its segments.
  · rw [Renders, hstate] at hrenders
    obtain ⟨-, hdrained, hfailure⟩ := Dispenser.reflects_done.mp (hstate ▸ h.reflects)
    have hbegins := beginsSegments_of_complete (congrArg Prod.snd hrenders)
    have hlength : (splitLeftmost delimiter chunks.flatten).length = endsIn (past ++ d.queue) := by
      rw [← length_joinEntries [], hrenders, hbytes]
    rw [hrenders, hbytes] at hbegins
    have hqueue := h.queue_of_drained hdrained
    refine ⟨hfailure, ?_, fun _ hclosed => ?_, fun index hlt => ?_, fun index segment =>
      hbegins.contentAt_begins⟩
    · rcases hqueue with ⟨hclosed, -⟩ | ⟨hopen, pieces, hpieces⟩
      · omega
      · simp only [hpieces, endsIn_append, endsIn_close_cons, endsIn_nil] at hlength
        omega
    · rcases hqueue with ⟨-, hempty⟩ | ⟨hopen, -⟩
      · rw [hempty, List.append_nil] at hlength
        omega
      · omega
    · exact hbegins.contentAt_of_lt (hended ▸ hlt)

namespace Distribution

section

variable {delimiter input : Bytes} {initial : List Supply} {history : History} {taken : List Supply}
  {past : List Entry} {d : Distribution}

/-- What a dispenser has taken in is of what its source was given. -/
theorem Accords.gives (h : d.Accords delimiter initial history taken past)
    (hgives : Gives input (initial ++ suppliedIn (history.map Prod.fst))) {taken' : List Supply}
    {dispenser : Dispenser}
    (hsupplied : taken' ++ dispenser.source.queue = taken ++ d.dispenser.source.queue) :
    Gives input taken' := by
  rw [h.supplied] at hsupplied
  exact hgives.of_begins (hsupplied ▸ List.prefix_append _ _)

theorem Accords.fits (h : d.Accords delimiter initial history taken past) (hd : delimiter ≠ [])
    (hgives : Gives input (initial ++ suppliedIn (history.map Prod.fst))) :
    d.dispenser.Fits (splitLeftmost delimiter input) past :=
  h.tracks.fits hd (h.gives hgives rfl)

/-! ## What one demand is answered with -/

/-- A segment that tells its holder that it has ended has given all of its content. -/
theorem Accords.read_end (h : d.Accords delimiter initial history taken past) (hd : delimiter ≠ [])
    (hgives : Gives input (initial ++ suppliedIn (history.map Prod.fst))) {handle : Nat}
    (hend : (d.serve (.read handle)).2.tellsEnd = true) :
    (splitLeftmost delimiter input)[handle]? = some (chunksOf handle history).flatten := by
  rw [Distribution.serve] at hend
  rcases h.read_cases handle with hgone |
    ⟨s, s', dispenser, holding, service, taken', past', hs, hread, -, htakes, hhears⟩
  · rw [hgone] at hend
    cases hend
  · rw [hread] at hend
    have hend : service.tellsEnd = true := hend
    obtain ⟨hindex, -, hcontent⟩ := h.held handle s hs
    have hfits := htakes.tracks.fits hd (h.gives hgives htakes.supplied)
    have hlt : handle < dispenser.ended := by
      rcases htakes.stands.closed (hhears.done_of_tellsEnd hend) with hlt | hfailure
      · rwa [htakes.index_eq, hindex] at hlt
      · rw [hfits.failure_eq] at hfailure
        cases hfailure
    have hnone : service.chunk? = none := by
      cases service with
      | chunk answer => cases answer <;> first | rfl | cases hend
      | frame polled => cases polled <;> first | rfl | cases hend
      | _ => rfl
    have hall := htakes.content_eq
    rw [hnone, hindex, ← hcontent] at hall
    rw [hfits.content_eq handle hlt, hall]
    simp

/-- The size that measuring gives is that of all that was left of the segment. -/
theorem Accords.measured (h : d.Accords delimiter initial history taken past) (hd : delimiter ≠ [])
    (hgives : Gives input (initial ++ suppliedIn (history.map Prod.fst))) {handle n : Nat}
    (hsize : (d.serve (.measure handle)).2 = .measured (.size n)) :
    ∃ segment, (splitLeftmost delimiter input)[handle]? = some segment ∧
      (chunksOf handle history).flatten.length + n = segment.length := by
  rw [Distribution.serve] at hsize
  rcases d.consume_cases handle _ with hgone | ⟨s, hs, hconsume⟩
  · rw [hgone] at hsize
    cases hsize
  · rw [hconsume] at hsize
    obtain ⟨hindex, hstands, hcontent⟩ := h.held handle s hs
    obtain ⟨content, taken', past', hleaves, hmeasured, -⟩ := h.tracks.measureSegment hstands
    have hfits := hleaves.tracks.fits hd (h.gives hgives hleaves.supplied)
    have hsize : (d.dispenser.measureSegment s).2 = .size n := by simpa using hsize
    obtain ⟨hall, rfl, hended⟩ := hmeasured n hsize
    rw [hindex, ← hcontent] at hall
    rw [hindex, hfits.failure_eq] at hended
    have hlt := hended.resolve_right (by simp)
    exact ⟨_, hfits.content_eq handle hlt, by rw [hall, List.length_append]⟩

/-- The number that skimming gives is at most what was left of the segment. -/
theorem Accords.skimmed (h : d.Accords delimiter initial history taken past) (hd : delimiter ≠ [])
    (hgives : Gives input (initial ++ suppliedIn (history.map Prod.fst))) {handle limit n : Nat}
    (hcount : (d.serve (.skim handle limit)).2 = .skimmed (.ok n)) {segment : Bytes}
    (hsegment : (splitLeftmost delimiter input)[handle]? = some segment) :
    (chunksOf handle history).flatten.length + n ≤ segment.length := by
  rw [Distribution.serve] at hcount
  rcases d.consume_cases handle _ with hgone | ⟨s, hs, hconsume⟩
  · rw [hgone] at hcount
    cases hcount
  · rw [hconsume] at hcount
    obtain ⟨hindex, hstands, hcontent⟩ := h.held handle s hs
    obtain ⟨content, taken', past', hleaves, hskimmed, -⟩ :=
      h.tracks.skimSegment hstands limit
    have hfits := hleaves.tracks.fits hd (h.gives hgives hleaves.supplied)
    have hcount : (d.dispenser.skimSegment s limit).2 = .ok n := by simpa using hcount
    have hbegins := hleaves.content_begins
    rw [hindex, ← hcontent] at hbegins
    have hlength := (hbegins.trans (hfits.content_begins handle segment hsegment)).length_le
    rw [List.length_append] at hlength
    rwa [hskimmed n hcount]

theorem consume_ne_outer {handle : Nat} {operation : Segment → Dispenser × Service}
    {answer : OuterPoll} (hoperation : ∀ s, (operation s).2 ≠ .outer answer) :
    (d.consume handle operation).2 ≠ .outer answer := by
  rcases d.consume_cases handle operation with hgone | ⟨s, -, hconsume⟩
  · rw [hgone]
    nofun
  · rw [hconsume]
    exact hoperation s

/-- Only the outer side's demand has an outer side's answer. -/
theorem serve_eq_outer {demand : Demand} {answer : OuterPoll}
    (h : (d.serve demand).2 = .outer answer) :
    demand = .next ∧ d.outerHeld = true ∧ (d.dispenser.pollOuter .outer).2 = answer := by
  cases demand with
  | next =>
    cases hheld : d.outerHeld with
    | false =>
      rw [Distribution.serve, next_of_left hheld] at h
      cases h
    | true =>
      rw [Distribution.serve, next_of_held hheld] at h
      exact ⟨rfl, rfl, by simpa using h⟩
  | supply item => cases h
  | leave => cases h
  | read handle =>
    rw [Distribution.serve, read] at h
    split at h <;> cases h
  | toBody handle =>
    rw [Distribution.serve] at h
    split at h <;> cases h
  | measure handle => exact absurd h (consume_ne_outer fun _ h' => by cases h')
  | skim handle limit => exact absurd h (consume_ne_outer fun _ h' => by cases h')
  | drop handle => exact absurd h (consume_ne_outer fun _ h' => by cases h')

/-- The segments before the open one are finished when the outer side has its answer. -/
theorem Accords.finished_of_offers (h : d.Accords delimiter initial history taken past)
    {taken' : List Supply} {past' : List Entry} {dispenser : Dispenser} {answer : OuterPoll}
    (hoffers : Dispenser.Offers delimiter taken' past d.dispenser answer past' dispenser)
    {handle : Nat} (hlt : handle < dispenser.ended) : Finished handle history := by
  rcases hoffers.proceeds.orphan with ⟨hended, -⟩ | ⟨horphaned, -, hended⟩
  · exact h.finished handle (hended ▸ hlt)
  · rcases Nat.lt_or_ge handle d.dispenser.ended with hold | hge
    · exact h.finished handle hold
    · rw [show handle = d.dispenser.ended by omega]
      exact .inr (h.gaveUp_of_orphaned horphaned)

/-- A segment is handed out when those before it are finished. -/
theorem Accords.offered_segment (h : d.Accords delimiter initial history taken past)
    {demand : Demand} {s : Segment} (hanswer : (d.serve demand).2 = .outer (.segment s)) :
    ∀ handle < s.index, Finished handle history := by
  obtain ⟨-, -, hpoll⟩ := serve_eq_outer hanswer
  obtain ⟨taken', past', -, hoffers⟩ := h.tracks.pollOuter .outer
  intro handle hlt
  rw [hpoll] at hoffers
  cases hoffers.step with
  | segment hissued hended hheld hcontent => exact h.finished_of_offers hoffers (hended ▸ hlt)

/-- The outer side is told the end when all segments were handed out and are finished. -/
theorem Accords.offered_end (h : d.Accords delimiter initial history taken past)
    (hd : delimiter ≠ [])
    (hgives : Gives input (initial ++ suppliedIn (history.map Prod.fst))) {demand : Demand}
    (hanswer : (d.serve demand).2 = .outer .ended) :
    (handedOut history).length = (splitLeftmost delimiter input).length ∧
      (∀ handle < (splitLeftmost delimiter input).length, Finished handle history) ∧
      (d.serve demand).1.dispenser.ended = (splitLeftmost delimiter input).length := by
  obtain ⟨rfl, hheld, hpoll⟩ := serve_eq_outer hanswer
  obtain ⟨taken', past', hsupplied, hoffers⟩ := h.tracks.pollOuter .outer
  rw [Distribution.serve, next_of_held hheld]
  have hfits := hoffers.tracks.fits hd (h.gives hgives hsupplied)
  have hfinished := @Accords.finished_of_offers _ _ _ _ _ _ h _ _ _ _ hoffers
  rw [hpoll] at hoffers
  cases hoffers.step with
  | ended hissued hover =>
    rw [hfits.failure_eq] at hover
    obtain ⟨hdrained, hclosed⟩ := hover.resolve_left (by simp)
    have hended := hfits.ended_of_drained hdrained hclosed
    refine ⟨?_, fun handle hlt => hfinished (hended ▸ hlt), hended⟩
    rw [h.handedOut_eq, List.length_map, List.length_range]
    omega

/-- Once all segments have ended, the outer side is told the end. -/
theorem Accords.offered_after_end (h : d.Accords delimiter initial history taken past)
    (hd : delimiter ≠ [])
    (hgives : Gives input (initial ++ suppliedIn (history.map Prod.fst)))
    (hended : d.dispenser.ended = (splitLeftmost delimiter input).length) :
    (d.serve .next).2 = .outer .ended ∨ (d.serve .next).2 = .gone := by
  cases hheld : d.outerHeld with
  | false => exact .inr (by rw [Distribution.serve, next_of_left hheld])
  | true =>
    obtain ⟨taken', past', hsupplied, hoffers⟩ := h.tracks.pollOuter .outer
    have hfits := hoffers.tracks.fits hd (h.gives hgives hsupplied)
    have hle := hfits.issued_le
    have hgrows := hoffers.proceeds.grows.ended_le
    rw [Distribution.serve, next_of_held hheld]
    refine .inl ?_
    have hstep := hoffers.step
    generalize (d.dispenser.pollOuter .outer).2 = answer at hstep ⊢
    cases hstep with
    -- There are only as many segments as have ended.
    | segment hissued hended' hheld' hcontent => omega
    | failed hissued hfailure =>
      rw [hfits.failure_eq] at hfailure
      cases hfailure
    | pending hissued hopen => omega
    | ended hissued hover => rfl

theorem Accords.failure_of_consume (h : d.Accords delimiter initial history taken past)
    {handle : Nat} {operation : Segment → Dispenser × Service}
    (hoperation : ∀ s, d.dispenser.Stands s → (operation s).2.tellsFailure = true →
      (operation s).1.failure.isSome = true)
    (htells : (d.consume handle operation).2.tellsFailure = true) :
    (d.consume handle operation).1.dispenser.failure.isSome = true := by
  rcases d.consume_cases handle operation with hgone | ⟨s, hs, hconsume⟩
  · rw [hgone] at htells
    cases htells
  · rw [hconsume] at htells ⊢
    exact hoperation s (h.held handle s hs).2.1 htells

/-- Nobody is told of a failure that the dispenser does not know of. -/
theorem Accords.failure_of_tells (h : d.Accords delimiter initial history taken past)
    {demand : Demand} (htells : (d.serve demand).2.tellsFailure = true) :
    (d.serve demand).1.dispenser.failure.isSome = true := by
  cases demand with
  | supply item => cases htells
  | leave => cases htells
  | next =>
    rw [Distribution.serve] at htells ⊢
    cases hheld : d.outerHeld with
    | false =>
      rw [next_of_left hheld] at htells
      cases htells
    | true =>
      obtain ⟨taken', past', -, hoffers⟩ := h.tracks.pollOuter .outer
      rw [next_of_held hheld] at htells ⊢
      have hstep := hoffers.step
      generalize d.dispenser.pollOuter .outer = result at hstep htells ⊢
      obtain ⟨dispenser, answer⟩ := result
      cases hstep with
      | failed hissued hfailure => exact Option.isSome_iff_exists.mpr ⟨_, hfailure⟩
      | _ => cases htells
  | read handle =>
    rw [Distribution.serve] at htells ⊢
    rcases h.read_cases handle with hgone |
      ⟨s, s', dispenser, holding, service, taken', past', -, hread, -, -, hhears⟩
    · rw [hgone] at htells
      cases htells
    · rw [hread] at htells ⊢
      exact hhears.failure_of_tells htells
  | toBody handle =>
    rw [Distribution.serve] at htells
    split at htells <;> cases htells
  | measure handle =>
    refine h.failure_of_consume (fun s hstands htells => ?_) htells
    obtain ⟨-, -, -, -, -, hfailed⟩ := h.tracks.measureSegment hstands
    have htells : (Service.measured (d.dispenser.measureSegment s).2).tellsFailure = true := htells
    cases hmeasured : (d.dispenser.measureSegment s).2 with
    | failed error => exact Option.isSome_iff_exists.mpr ⟨error, hfailed error hmeasured⟩
    | size n =>
      rw [hmeasured] at htells
      cases htells
    | pending =>
      rw [hmeasured] at htells
      cases htells
  | skim handle limit =>
    refine h.failure_of_consume (fun s hstands htells => ?_) htells
    obtain ⟨-, -, -, -, -, hfailed⟩ := h.tracks.skimSegment hstands limit
    have htells :
        (Service.skimmed (d.dispenser.skimSegment s limit).2).tellsFailure = true := htells
    cases hskimmed : (d.dispenser.skimSegment s limit).2 with
    | error error => exact hfailed error hskimmed
    | ok n =>
      rw [hskimmed] at htells
      cases htells
  | drop handle => exact h.failure_of_consume (fun _ _ htells => by cases htells) htells

end

/-! ## Whole runs -/

section

variable {delimiter input : Bytes} {splitter : Splitter} {queue : List Supply}
  {demands : List Demand}

/-- Once all segments have ended, the outer side is told nothing else for the rest of a run. -/
theorem Accords.next_after_end {history : History} {taken : List Supply} {past : List Entry}
    {d : Distribution} (h : d.Accords delimiter queue history taken past) (hd : delimiter ≠ [])
    (hended : d.dispenser.ended = (splitLeftmost delimiter input).length)
    (hgives : Gives input (queue ++ suppliedIn ((history ++ d.history demands).map Prod.fst)))
    {service : Service} (hservice : (.next, service) ∈ d.history demands) :
    service = .outer .ended ∨ service = .gone := by
  induction demands generalizing d history taken past with
  | nil => cases hservice
  | cons demand rest ih =>
    rw [history_cons] at hservice hgives
    rcases List.mem_cons.mp hservice with hnow | hlater
    · obtain ⟨rfl, rfl⟩ := Prod.mk.inj hnow
      exact h.offered_after_end hd hgives.of_append hended
    · rw [List.append_cons] at hgives
      obtain ⟨taken', past', h', hgrows⟩ := h.serve demand
      have hle := (h'.fits hd hgives.of_append).issued_le
      have hissued := h'.tracks.issued_eq
      have hmono := hgrows.ended_le
      exact ih h' (by omega) hgives hlater

end

/-- **What a history has to do with the segments of an input.** Segments are handed out in order,
each when those before it are finished. What a holder was given is the beginning of its segment, and
all of it when the end is told. The outer side is told the end when everything is finished, and
nothing else from then on. -/
structure Serves (segments : List Bytes) (history : History) : Prop where
  index_eq : ∀ handle (s : Segment), (handedOut history)[handle]? = some s → s.index = handle
  chunks_begin : ∀ handle < (handedOut history).length, ∃ segment,
    segments[handle]? = some segment ∧ (chunksOf handle history).flatten <+: segment
  chunk_ne_nil : ∀ handle, ∀ bytes ∈ chunksOf handle history, bytes ≠ []
  delivers : ∀ handle content, Delivers handle content history →
    segments[handle]? = some content
  measured : ∀ before handle n after,
    history = before ++ (.measure handle, .measured (.size n)) :: after →
    ∃ segment, segments[handle]? = some segment ∧
      (chunksOf handle before).flatten.length + n = segment.length
  skimmed : ∀ before handle limit n after segment,
    history = before ++ (.skim handle limit, .skimmed (.ok n)) :: after →
    segments[handle]? = some segment →
    (chunksOf handle before).flatten.length + n ≤ segment.length
  finished_before : ∀ before demand (s : Segment) after,
    history = before ++ (demand, .outer (.segment s)) :: after →
    ∀ handle < s.index, Finished handle before
  ended : ∀ before demand after, history = before ++ (demand, .outer .ended) :: after →
    (handedOut before).length = segments.length ∧
      (∀ handle < segments.length, Finished handle before) ∧
      ∀ service, (.next, service) ∈ after → service = .outer .ended ∨ service = .gone
  not_tellsFailure : ∀ event ∈ history, event.2.tellsFailure = false

section

variable {delimiter input : Bytes} {splitter : Splitter} {queue : List Supply}
  {demands : List Demand}

/-- The invariant when a demand is served, and what the source has been given by then. -/
theorem accords_of_event (hsplitter : Splitter.ofDelimiter? delimiter = .ok splitter)
    (hgives : Gives input (queue ++ suppliedIn demands)) {before after : History}
    {event : Demand × Service}
    (h : (ofSplitter splitter queue).history demands = before ++ event :: after) :
    ∃ (d : Distribution) (next : List Demand) (taken : List Supply) (past : List Entry),
      d.Accords delimiter queue before taken past ∧ (d.serve event.1).2 = event.2 ∧
      (d.serve event.1).1.history next = after ∧
      Gives input (queue ++ suppliedIn ((before ++ event :: after).map Prod.fst)) := by
  obtain ⟨first, next, hdemands, hbefore, hafter⟩ := history_split h
  obtain ⟨taken, past, haccords, -⟩ := (accords_ofSplitter hsplitter queue).run first
  rw [List.nil_append, hbefore] at haccords
  cases next with
  | nil => cases hafter
  | cons demand next =>
    rw [history_cons, List.cons.injEq] at hafter
    obtain ⟨rfl, hafter⟩ := hafter
    refine ⟨_, next, taken, past, haccords, rfl, hafter, ?_⟩
    rwa [← h, map_fst_history]

/-- **Every run serves the segments of its input.** -/
theorem serves_history (hd : delimiter ≠ [])
    (hsplitter : Splitter.ofDelimiter? delimiter = .ok splitter)
    (hgives : Gives input (queue ++ suppliedIn demands)) :
    Serves (splitLeftmost delimiter input) ((ofSplitter splitter queue).history demands) := by
  obtain ⟨taken, past, haccords, -⟩ := (accords_ofSplitter hsplitter queue).run demands
  rw [List.nil_append] at haccords
  have hgives' : Gives input
      (queue ++ suppliedIn (((ofSplitter splitter queue).history demands).map Prod.fst)) := by
    rwa [map_fst_history]
  have hfits := haccords.fits hd hgives'
  have hlength : (handedOut ((ofSplitter splitter queue).history demands)).length =
      ((ofSplitter splitter queue).run demands).1.dispenser.issued := by
    rw [haccords.handedOut_eq, List.length_map, List.length_range]
  -- The first three parts are of the whole history; the others are of the moment of one event, and
  -- follow from the invariant then.
  refine ⟨fun handle s hs => ?_, fun handle hlt => ?_, haccords.chunk_ne_nil, ?_, ?_, ?_, ?_, ?_,
    ?_⟩
  · rw [haccords.handedOut_eq, List.getElem?_map, Option.map_eq_some_iff] at hs
    obtain ⟨index, hindex, rfl⟩ := hs
    obtain ⟨hlt, rfl⟩ := List.getElem?_eq_some_iff.mp hindex
    exact List.getElem_range hlt
  · have hlt' : handle < (splitLeftmost delimiter input).length := by
      have hle := hfits.issued_le
      omega
    refine ⟨_, List.getElem?_eq_getElem hlt', ?_⟩
    exact (haccords.chunks_begin handle).trans
      (hfits.content_begins handle _ (List.getElem?_eq_getElem hlt'))
  · rintro handle content ⟨before, service, after, hevent, hend, rfl⟩
    obtain ⟨d, next, taken, past, h, hserve, -, hgives⟩ := accords_of_event hsplitter hgives hevent
    exact h.read_end hd hgives.of_append (hserve ▸ hend)
  · intro before handle n after hevent
    obtain ⟨d, next, taken, past, h, hserve, -, hgives⟩ := accords_of_event hsplitter hgives hevent
    exact h.measured hd hgives.of_append hserve
  · intro before handle limit n after segment hevent hsegment
    obtain ⟨d, next, taken, past, h, hserve, -, hgives⟩ := accords_of_event hsplitter hgives hevent
    exact h.skimmed hd hgives.of_append hserve hsegment
  · intro before demand s after hevent
    obtain ⟨d, next, taken, past, h, hserve, -, -⟩ := accords_of_event hsplitter hgives hevent
    exact h.offered_segment hserve
  · intro before demand after hevent
    obtain ⟨d, next, taken, past, h, hserve, hafter, hgives'⟩ :=
      accords_of_event hsplitter hgives hevent
    have hserve : (d.serve demand).2 = .outer .ended := hserve
    obtain ⟨hhanded, hfinished, hended⟩ := h.offered_end hd hgives'.of_append hserve
    obtain ⟨taken', past', h', -⟩ := h.serve demand
    rw [List.append_cons, ← hafter, ← hserve] at hgives'
    refine ⟨hhanded, hfinished, fun service hservice => ?_⟩
    rw [← hafter] at hservice
    exact h'.next_after_end hd hended hgives' hservice
  · intro event hevent
    obtain ⟨before, after, hsplit⟩ := List.append_of_mem hevent
    obtain ⟨d, next, taken, past, h, hserve, -, hgives⟩ := accords_of_event hsplitter hgives hsplit
    obtain ⟨demand, service⟩ := event
    obtain rfl : (d.serve demand).2 = service := hserve
    obtain ⟨taken', past', h', -⟩ := h.serve demand
    rw [List.append_cons] at hgives
    refine Bool.eq_false_iff.mpr fun htells => ?_
    have hfailure := h.failure_of_tells htells
    rw [(h'.fits hd hgives.of_append).failure_eq] at hfailure
    cases hfailure

end

/-- **A distribution serves the leftmost split of its input**: for every delimiter that is not
empty, every input in any chunks, and every order of demands, to the outer side, to the segments
that it hands out and to the source. So two runs on the same input deliver the same content for a
segment that both read to its end, whatever else happens in them. -/
theorem serves_leftmostSplit {delimiter : Bytes} (hd : delimiter ≠ []) :
    ∃ splitter, Splitter.ofDelimiter? delimiter = .ok splitter ∧
      ∀ (input : Bytes) (segments : List Bytes), LeftmostSplit delimiter input segments →
        (∀ (queue : List Supply) (demands : List Demand),
          Gives input (queue ++ suppliedIn demands) →
          Serves segments ((ofSplitter splitter queue).history demands)) ∧
        ∀ (queue queue' : List Supply) (demands demands' : List Demand),
          Gives input (queue ++ suppliedIn demands) → Gives input (queue' ++ suppliedIn demands') →
          ∀ (handle : Nat) (content content' : Bytes),
            Delivers handle content ((ofSplitter splitter queue).history demands) →
            Delivers handle content' ((ofSplitter splitter queue').history demands') →
            content = content' := by
  obtain ⟨splitter, hsplitter⟩ : ∃ splitter, Splitter.ofDelimiter? delimiter = .ok splitter :=
    ⟨_, if_neg hd⟩
  refine ⟨splitter, hsplitter, fun input segments hsplit => ?_⟩
  rw [hsplit.eq_splitLeftmost hd]
  have hserves : ∀ (queue : List Supply) (demands : List Demand),
      Gives input (queue ++ suppliedIn demands) →
      Serves (splitLeftmost delimiter input) ((ofSplitter splitter queue).history demands) :=
    fun _ _ hgives => serves_history hd hsplitter hgives
  refine ⟨hserves,
    fun queue queue' demands demands' hgives hgives' handle content content' h h' => ?_⟩
  have hcontent := (hserves queue demands hgives).delivers handle content h
  have hcontent' := (hserves queue' demands' hgives').delivers handle content' h'
  rw [hcontent, Option.some.injEq] at hcontent'
  exact hcontent'

/-- One segment is dropped half-read, the next is read as a body while the source still gives, and
the last one is measured. -/
theorem serves_leftmostSplit_abandoned :
    ([10] : Bytes) ≠ [] ∧ ∃ splitter, Splitter.ofDelimiter? [10] = .ok splitter ∧
      Serves [[1, 1, 1], [2], [3]] ((ofSplitter splitter [.chunk [1, 1]]).history
        [.next, .read 0, .drop 0, .next, .supply (.chunk [1, 10, 2]), .next, .toBody 1, .read 1,
          .supply (.chunk [10, 3]), .supply .done, .read 1, .read 1, .next, .measure 2, .next]) ∧
      chunksOf 1 ((ofSplitter splitter [.chunk [1, 1]]).history
        [.next, .read 0, .drop 0, .next, .supply (.chunk [1, 10, 2]), .next, .toBody 1, .read 1,
          .supply (.chunk [10, 3]), .supply .done, .read 1, .read 1, .next, .measure 2, .next]) =
        [[2]] := by
  obtain ⟨splitter, hsplitter, hserves⟩ :=
    serves_leftmostSplit (show ([10] : Bytes) ≠ [] by decide)
  have hsplit : LeftmostSplit [10] ([1, 1, 1] ++ [10] ++ ([2] ++ [10] ++ [3]))
      [[1, 1, 1], [2], [3]] :=
    .cut (by unfold OccursAt; decide) (.cut (by unfold OccursAt; decide) (.last (by decide)))
  refine ⟨by decide, splitter, hsplitter, (hserves _ _ hsplit).1 _ _ ?_, ?_⟩
  · exact ⟨[[1, 1], [1, 10, 2], [10, 3]], rfl, List.prefix_rfl⟩
  · cases hsplitter
    decide

end Distribution

end Switchboard
