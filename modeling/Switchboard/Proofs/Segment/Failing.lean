import Switchboard.Proofs.Segment.Attendance
import Switchboard.Proofs.Segment.Backpressure
import Switchboard.Proofs.Segment.Informing
import Switchboard.Proofs.Segment.Serving
set_option autoImplicit false

/-! # A source that fails

When the source fails after some input, all segments but the last one are complete, and the last
one is cut off: what may have been the beginning of a delimiter is never given out. `Fails` says of
a run what becomes of the segments and who is told. -/

namespace Switchboard

/-! ## An input that fails -/

/-- What a source has given is of an input in chunks, a failure, and whatever would follow that. -/
def Breaks (input : Bytes) (cause : Fault) (items : List Supply) : Prop :=
  ∃ (chunks : List Bytes) (rest : List Supply), chunks.flatten = input ∧
    items <+: chunks.map .chunk ++ .failure cause :: rest

theorem Breaks.of_begins {input : Bytes} {cause : Fault} {items taken : List Supply}
    (h : Breaks input cause items) (htaken : taken <+: items) : Breaks input cause taken := by
  obtain ⟨chunks, rest, hchunks, hitems⟩ := h
  exact ⟨chunks, rest, hchunks, htaken.trans hitems⟩

theorem Breaks.stateOf_eq {input : Bytes} {cause : Fault} {taken : List Supply}
    (h : Breaks input cause taken) : (stateOf taken = .arriving ∧ .failure cause ∉ taken) ∨
      (stateOf taken = .failed cause ∧ bytesOf taken = input) := by
  obtain ⟨chunks, rest, rfl, htaken⟩ := h
  induction chunks generalizing taken with
  | nil =>
    rcases List.prefix_cons_iff.mp htaken with rfl | ⟨more, rfl, hmore⟩
    · exact .inl ⟨rfl, List.not_mem_nil⟩
    · exact .inr ⟨rfl, rfl⟩
  | cons chunk chunks ih =>
    rcases List.prefix_cons_iff.mp htaken with rfl | ⟨more, rfl, hmore⟩
    · exact .inl ⟨rfl, List.not_mem_nil⟩
    · rcases ih hmore with ⟨hstate, hnot⟩ | ⟨hstate, hbytes⟩
      · exact .inl ⟨hstate, by simpa using hnot⟩
      · exact .inr ⟨hstate, congrArg (chunk ++ ·) hbytes⟩

/-- A failure has cut the last of these segments off. All the others have ended, and as many bytes
of the last one are missing as the delimiter has, or all of it. -/
structure Dispenser.CutOff (segments : List Bytes) (withheld : Nat) (cause : Fault)
    (past : List Entry) (d : Dispenser) : Prop where
  failure_eq : d.failure = some (.source cause)
  length_eq : segments.length = d.ended + 1
  content_eq : ∀ index < d.ended, segments[index]? = some (contentAt past index)
  content_last : ∃ last, segments[d.ended]? = some last ∧
    contentAt past d.ended = last.take (last.length - withheld)

theorem Dispenser.Tracks.cutOff {delimiter input : Bytes} {cause : Fault} {taken : List Supply}
    {past : List Entry} {d : Dispenser} (h : d.Tracks delimiter taken past)
    (hbreaks : Breaks input cause taken) (hfailure : d.failure.isSome = true) :
    d.CutOff (splitLeftmost delimiter input) delimiter.length cause past := by
  obtain ⟨error, herror⟩ := Option.isSome_iff_exists.mp hfailure
  obtain ⟨cause', hstate, rfl⟩ := (h.reflects.failure_iff error).mp herror
  rcases hbreaks.stateOf_eq with ⟨harriving, -⟩ | ⟨hfailed, hbytes⟩
  · rw [hstate] at harriving
    cases harriving
  rw [hstate, SupplyState.failed.injEq] at hfailed
  subst hfailed
  have hrenders := h.renders
  rw [Renders, hstate, h.queue_of_failure hfailure, List.append_nil] at hrenders
  obtain ⟨opened, hfree, hopened, hsplit⟩ := hrenders
  have hlength : (joinEntries [] past).1.length = d.ended := by
    rw [length_joinEntries, h.ended_eq]
  have hsegments : splitLeftmost delimiter input = (joinEntries [] past).1 ++ [opened] := by
    rw [← splitLeftmost_of_free hfree, ← hbytes]
    simpa using hsplit []
  rw [hsegments]
  refine ⟨herror, ?_, fun index hlt => ?_, opened, ?_, ?_⟩
  · rw [List.length_append, hlength, List.length_singleton]
  · rw [List.getElem?_append_left (hlength ▸ hlt), ← contentAt_of_lt (h.ended_eq ▸ hlt)]
  · rw [← hlength, List.getElem?_concat_length]
  · rw [h.ended_eq, contentAt_endsIn, hopened]

namespace Distribution

open Dispenser (Restrained)

/-! ## Moments of a run -/

section

variable {delimiter : Bytes} {initial : List Supply} {history : History} {taken : List Supply}
  {past : List Entry} {d : Distribution}

/-- A segment that tells its end, at the moment when it does. -/
theorem Accords.read_ended (h : d.Accords delimiter initial history taken past) {handle : Nat}
    (hend : (d.serve (.read handle)).2.tellsEnd = true) :
    ∃ taken' past', (d.serve (.read handle)).1.Accords delimiter initial
        (history ++ [(.read handle, (d.serve (.read handle)).2)]) taken' past' ∧
      contentAt past' handle = (chunksOf handle history).flatten ∧
      (handle < (d.serve (.read handle)).1.dispenser.ended ∨
        (d.serve (.read handle)).1.dispenser.failure.isSome = true) := by
  rw [Distribution.serve] at hend ⊢
  rcases h.read_cases handle with hgone |
    ⟨s, s', dispenser, holding, service, taken', past', hs, hread, hholding, htakes, hhears⟩
  · rw [hgone] at hend
    cases hend
  · rw [hread] at hend ⊢
    have hend : service.tellsEnd = true := hend
    obtain ⟨hindex, -, hcontent⟩ := h.held handle s hs
    have hnone : service.chunk? = none := by
      cases service with
      | chunk answer => cases answer <;> first | rfl | cases hend
      | frame polled => cases polled <;> first | rfl | cases hend
      | _ => rfl
    have hclosed := htakes.stands.closed (hhears.done_of_tellsEnd hend)
    have hall := htakes.content_eq
    rw [hnone, hindex, ← hcontent] at hall
    rw [htakes.index_eq, hindex] at hclosed
    exact ⟨taken', past', h.take hs htakes hholding rfl hhears.segment?_eq
      hhears.tellsEnd_of_ended, by simpa using hall, hclosed⟩

end

section

variable {delimiter input : Bytes} {cause : Fault} {splitter : Splitter} {queue : List Supply}
  {demands : List Demand}

/-- What was delivered of a segment is what has left its queue. -/
theorem content_of_delivers (hsplitter : Splitter.ofDelimiter? delimiter = .ok splitter)
    {handle : Nat} {content : Bytes}
    (h : Delivers handle content ((ofSplitter splitter queue).history demands)) :
    ∃ taken past, ((ofSplitter splitter queue).run demands).1.Accords delimiter queue
        ((ofSplitter splitter queue).history demands) taken past ∧
      contentAt past handle = content := by
  obtain ⟨before, service, after, hhistory, hend, rfl⟩ := h
  obtain ⟨first, next, rfl, rfl, hservice, rfl⟩ := history_split_at hhistory
  obtain ⟨taken, past, haccords, -⟩ := (accords_ofSplitter hsplitter queue).run first
  rw [List.nil_append] at haccords
  rw [hhistory, run_append]
  generalize ((ofSplitter splitter queue).run first).1 = d at haccords hservice ⊢
  subst hservice
  obtain ⟨taken', past', haccords', hcontent, hclosed⟩ := haccords.read_ended hend
  -- Nothing comes to a segment any more after its end.
  obtain ⟨taken'', past'', haccords'', hgrows⟩ := haccords'.run next
  rw [List.append_assoc, List.singleton_append] at haccords''
  exact ⟨taken'', past'', haccords'', by rw [hgrows.content_eq handle hclosed, hcontent]⟩

/-- One moment of a run whose source fails: before and after an event. -/
structure Moment (delimiter input : Bytes) (cause : Fault) (queue : List Supply)
    (before : History) (event : Demand × Service) (d d' : Distribution) (taken : List Supply)
    (past : List Entry) (taken' : List Supply) (past' : List Entry) : Prop where
  accords : d.Accords delimiter queue before taken past
  informs : d.Informs before
  serve_eq : d.serve event.1 = (d', event.2)
  accords' : d'.Accords delimiter queue (before ++ [event]) taken' past'
  informs' : d'.Informs (before ++ [event])
  grows : d.dispenser.Grows past d'.dispenser past'
  breaks' : Breaks input cause (queue ++ suppliedIn ((before ++ [event]).map Prod.fst))

/-- Any moment, with any account of what had left the queue by then. -/
theorem moment_of_accords (hsplitter : Splitter.ofDelimiter? delimiter = .ok splitter)
    (hbreaks : Breaks input cause (queue ++ suppliedIn demands)) {first next : List Demand}
    {demand : Demand} (hdemands : demands = first ++ demand :: next) {taken : List Supply}
    {past : List Entry}
    (haccords : ((ofSplitter splitter queue).run first).1.Accords delimiter queue
      ((ofSplitter splitter queue).history first) taken past) :
    ∃ taken' past', Moment delimiter input cause queue ((ofSplitter splitter queue).history first)
      (demand, (((ofSplitter splitter queue).run first).1.serve demand).2)
      ((ofSplitter splitter queue).run first).1
      (((ofSplitter splitter queue).run first).1.serve demand).1 taken past taken' past' := by
  have hinforms := (informs_ofSplitter splitter queue).run
    (accords_ofSplitter hsplitter queue) first
  rw [List.nil_append] at hinforms
  obtain ⟨taken', past', haccords', hgrows⟩ := haccords.serve demand
  have hserved := ((ofSplitter splitter queue).run first).1.served_serve demand
  refine ⟨taken', past', haccords, hinforms, rfl, haccords',
    hinforms.served haccords hserved hgrows.ended_le, hgrows, hbreaks.of_begins ?_⟩
  rw [List.map_append, map_fst_history, hdemands, List.append_cons, suppliedIn_append _ next,
    ← List.append_assoc]
  exact List.prefix_append _ _

/-! ## What follows at a moment -/

/-- When somebody knows of the failure, the open segment was the last one to be handed out. -/
theorem length_handedOut_of_known {history : History} {taken : List Supply} {past : List Entry}
    {d : Distribution} (haccords : d.Accords delimiter queue history taken past)
    (hinforms : d.Informs history)
    (hbreaks : Breaks input cause (queue ++ suppliedIn (history.map Prod.fst)))
    (hknown : KnowsFailure history) :
    d.dispenser.CutOff (splitLeftmost delimiter input) delimiter.length cause past ∧
      d.dispenser.issued = d.dispenser.ended + 1 ∧
      (handedOut history).length = (splitLeftmost delimiter input).length := by
  have hfailure := hinforms.known_iff.mpr hknown
  have hcut := haccords.tracks.cutOff
    (hbreaks.of_begins (haccords.supplied ▸ List.prefix_append _ _)) hfailure
  have hopen : d.dispenser.issued = d.dispenser.ended + 1 := by
    cases hinforms.halts with
    | running hnone => rw [hnone] at hfailure; cases hfailure
    | halted _ hopen => exact hopen
  refine ⟨hcut, hopen, ?_⟩
  rw [haccords.handedOut_eq, List.length_map, List.length_range, hcut.length_eq, hopen]

section

variable {before : History} {demand : Demand} {service : Service} {d d' : Distribution}
  {taken taken' : List Supply} {past past' : List Entry}

theorem Moment.served (h : Moment delimiter input cause queue before (demand, service) d d' taken
    past taken' past') : ∃ asks, d.Served demand asks d' service := by
  have hserved := d.served_serve demand
  rw [h.serve_eq] at hserved
  exact ⟨_, hserved⟩

theorem Moment.breaks (h : Moment delimiter input cause queue before (demand, service) d d' taken
    past taken' past') :
    Breaks input cause (queue ++ suppliedIn (before.map Prod.fst)) := by
  refine h.breaks'.of_begins ?_
  rw [List.map_append, suppliedIn_append, ← List.append_assoc]
  exact List.prefix_append _ _

/-- Being told of the failure changes nothing about the segments. -/
theorem Moment.of_tells (h : Moment delimiter input cause queue before (demand, service) d d' taken
    past taken' past') (htells : service.tellsFailure = true) :
    d'.dispenser.CutOff (splitLeftmost delimiter input) delimiter.length cause past' ∧
      d'.dispenser.ended = d.dispenser.ended ∧
      (handedOut before).length = (splitLeftmost delimiter input).length := by
  obtain ⟨hcut, hopen', hlength⟩ := length_handedOut_of_known h.accords' h.informs' h.breaks'
    (knowsFailure_concat.mpr (.inr htells))
  have hnone : handedOut [(demand, service)] = [] := by
    cases service with
    | outer answer => cases answer <;> first | rfl | cases htells
    | _ => rfl
  rw [handedOut_append, hnone, List.append_nil] at hlength
  have hissued := h.accords.handedOut_eq
  have hissued' := h.accords'.handedOut_eq
  rw [handedOut_append, hnone, List.append_nil, hissued] at hissued'
  have hsame : d.dispenser.issued = d'.dispenser.issued := by
    simpa using congrArg List.length hissued'
  have hopen := h.accords.tracks.issued_eq
  have hle := h.grows.ended_le
  exact ⟨hcut, by omega, hlength⟩

/-- The holder that is told of the failure has got all but what is withheld. -/
theorem Moment.read_tells {handle : Nat}
    (h : Moment delimiter input cause queue before (.read handle, service) d d' taken past taken'
      past') (htells : service.tellsFailure = true) :
    handle + 1 = (splitLeftmost delimiter input).length ∧ ∃ segment withheld,
      (splitLeftmost delimiter input)[handle]? = some segment ∧
      (chunksOf handle before).flatten ++ withheld = segment ∧
      withheld.length = min delimiter.length segment.length := by
  obtain ⟨hcut, hended, -⟩ := h.of_tells htells
  obtain ⟨last, hlast, hcontent⟩ := hcut.content_last
  have hlength := hcut.length_eq
  obtain ⟨asks, hserved⟩ := h.served
  cases hserved with
  | releases hdemand => cases hdemand
  | gone => cases htells
  | @reads _ s s' dispenser answer holding _ hs hpoll hholding hservice =>
    obtain ⟨hindex, hstands, -⟩ := h.accords.held handle s hs
    have hopen : s.done = false := by
      cases hdone : s.done with
      | false => rfl
      | true =>
        rw [Dispenser.pollSegment_of_done hdone] at hpoll
        cases hpoll
        rcases hservice with rfl | rfl <;> cases htells
    have hhandle : handle = dispenser.ended := by
      rw [← hindex, (hstands.opened hopen).1]
      exact hended.symm
    have hheld : ((d.update dispenser handle holding).holding handle).segment? = some s' := by
      rw [holding_update_self (lt_length_of_segment? hs), hholding]
    have hchunks := (h.accords'.held handle s' hheld).2.2
    have hnone : chunksOf handle [(.read handle, service)] = [] := by
      refine chunksOf_of_chunk?_eq_none ?_ handle
      cases service with
      | chunk answer => cases answer <;> first | rfl | cases htells
      | frame polled => cases polled <;> first | rfl | cases htells
      | _ => rfl
    rw [chunksOf_append, hnone, List.append_nil] at hchunks
    have hcontent : contentAt past' handle = last.take (last.length - delimiter.length) := by
      rw [hhandle]
      exact hcontent
    refine ⟨by rw [hlength, hhandle]; rfl, last, last.drop (last.length - delimiter.length), ?_, ?_,
      ?_⟩
    · rw [hhandle]
      exact hlast
    · rw [hchunks, hcontent, List.take_append_drop]
    · rw [List.length_drop]
      omega

/-- Once the failure is known, the holder of the last segment is told once. -/
theorem Moment.read_known {handle : Nat}
    (h : Moment delimiter input cause queue before (.read handle, service) d d' taken past taken'
      past') (hknown : KnowsFailure before)
    (hhandle : handle + 1 = (splitLeftmost delimiter input).length) :
    service = .gone ∨
      (service.tellsFailure = true ∧ ¬ ToldFailure (.read handle) before) ∨
      (service.tellsEnd = true ∧ ToldFailure (.read handle) before) := by
  obtain ⟨hcut, hopened, -⟩ := length_handedOut_of_known h.accords h.informs h.breaks hknown
  have hlength := hcut.length_eq
  obtain ⟨asks, hserved⟩ := h.served
  cases hserved with
  | releases hdemand => cases hdemand
  | gone => exact .inl rfl
  | @reads _ s s' dispenser answer holding _ hs hpoll hholding hservice =>
    have hservice : service = .chunk answer ∨ service = .frame (polledAs answer) := hservice
    cases hdone : s.done with
    | true =>
      rw [Dispenser.pollSegment_of_done hdone] at hpoll
      cases hpoll
      refine .inr (.inr ⟨by rcases hservice with rfl | rfl <;> rfl, ?_⟩)
      exact (h.informs.told_of_done handle s hs hdone).resolve_left (by omega)
    | false =>
      refine .inr (.inl ⟨?_, fun htold => ?_⟩)
      · have hstands := (h.accords.held handle s hs).2.1
        obtain ⟨-, -, hhears⟩ :=
          h.accords.tracks.pollSegment_hears hstands hdone h.informs.halts (.inner handle)
        rw [hpoll] at hhears
        have hfailure := h.grows.failure_mono _ hcut.failure_eq
        obtain ⟨rfl, -⟩ := hhears _ hfailure
        rcases hservice with rfl | rfl <;> rfl
      · rw [(h.informs.done_of_told handle htold).2 s hs] at hdone
        cases hdone

/-- Once the failure is known, the outer side is told once. -/
theorem Moment.next_known (h : Moment delimiter input cause queue before (.next, service) d d' taken
      past taken' past') (hknown : KnowsFailure before) :
    service = .gone ∨
      (service = .outer (.failed (.source cause)) ∧ ¬ ToldFailure .next before) ∨
      (service = .outer .ended ∧ ToldFailure .next before) := by
  obtain ⟨hcut, -, -⟩ := length_handedOut_of_known h.accords h.informs h.breaks hknown
  have hfailure := h.grows.failure_mono _ hcut.failure_eq
  obtain ⟨asks, hserved⟩ := h.served
  cases hserved with
  | releases hdemand => cases hdemand
  | gone => exact .inl rfl
  | @offers dispenser answer hheld hpoll =>
    obtain ⟨-, hhears⟩ := h.accords.tracks.pollOuter_hears h.informs.halts .outer
    rw [hpoll] at hhears
    cases hhears with
    | nothing hnone => exact nomatch hnone.symm.trans hfailure
    | learns herror hbefore =>
      obtain rfl := Option.some.inj (herror.symm.trans hfailure)
      refine .inr (.inl ⟨rfl, fun htold => ?_⟩)
      rw [h.informs.told_iff.mpr htold] at hbefore
      cases hbefore
    | knows hsome hbefore => exact .inr (.inr ⟨rfl, h.informs.told_iff.mp hbefore⟩)

/-- The outer side is told the end only after the failure. -/
theorem Moment.told_of_ended
    (h : Moment delimiter input cause queue before (demand, .outer .ended) d d' taken past taken'
      past') : ToldFailure .next before := by
  obtain ⟨rfl, hheld, hpoll⟩ := serve_eq_outer (congrArg Prod.snd h.serve_eq)
  obtain ⟨-, hhears⟩ := h.accords.tracks.pollOuter_hears h.informs.halts .outer
  obtain ⟨taken', past', hsupplied, hoffers⟩ := h.accords.tracks.pollOuter .outer
  rw [hpoll] at hhears hoffers
  cases hhears with
  | knows hsome hbefore => exact h.informs.told_iff.mp hbefore
  | nothing hnone hanswer =>
    -- Otherwise the source would have ended, but it fails.
    have hstep := hoffers.step
    cases hstep with
    | ended hissued hover =>
      rw [hnone] at hover
      obtain ⟨hdrained, -⟩ := hover.resolve_left (by simp)
      have hdone := hoffers.tracks.reflects.drained_iff.mp hdrained
      rw [h.accords.supplied] at hsupplied
      have hbreaks := h.breaks.of_begins (hsupplied ▸ List.prefix_append _ _)
      rcases hbreaks.stateOf_eq with ⟨hstate, -⟩ | ⟨hstate, -⟩ <;> rw [hdone] at hstate <;>
        cases hstate

/-- Once the source has the failure to give, the holder of a segment is not told to wait. -/
theorem Moment.not_pending {handle : Nat}
    (h : Moment delimiter input cause queue before (.read handle, service) d d' taken past taken'
      past') (hgiven : .failure cause ∈ queue ++ suppliedIn (before.map Prod.fst)) :
    service.tellsToWait = false := by
  obtain ⟨asks, hserved⟩ := h.served
  cases hserved with
  | releases hdemand => cases hdemand
  | gone => rfl
  | @reads _ s s' dispenser answer holding _ hs hpoll hholding hservice =>
    have hwaits : answer ≠ .pending := by
      rintro rfl
      have hstands := (h.accords.held handle s hs).2.1
      have hstarves := h.accords.tracks.pollSegment_pending hstands (congrArg (·.2.2) hpoll)
      obtain ⟨taken'', past'', htakes, -⟩ := h.accords.tracks.pollSegment hstands (.inner handle)
      have hsupplied := htakes.supplied
      rw [hpoll] at hstarves htakes hsupplied
      have hstate := htakes.tracks.reflects.connected_iff.mp hstarves.connected
      rw [h.accords.supplied, hstarves.source_eq, List.append_nil] at hsupplied
      rcases h.breaks.stateOf_eq with ⟨-, hnot⟩ | ⟨hfailed, -⟩
      · exact hnot hgiven
      · rw [← hsupplied, hstate] at hfailed
        cases hfailed
    have hservice : service = .chunk answer ∨ service = .frame (polledAs answer) := hservice
    rcases hservice with rfl | rfl <;> cases answer <;> first | rfl | exact absurd rfl hwaits

end

/-! ## Whole runs -/

/-- What was complete before somebody is told of the failure. -/
theorem complete_of_tells (hsplitter : Splitter.ofDelimiter? delimiter = .ok splitter)
    (hbreaks : Breaks input cause (queue ++ suppliedIn demands)) {before after : History}
    {demand : Demand} {service : Service}
    (hhistory : (ofSplitter splitter queue).history demands = before ++ (demand, service) :: after)
    (htells : service.tellsFailure = true) {handle : Nat}
    (hhandle : handle + 1 < (splitLeftmost delimiter input).length) :
    GaveUp handle before ∨ ∃ content, (splitLeftmost delimiter input)[handle]? = some content ∧
      Delivers handle content before := by
  obtain ⟨first, next, hdemands, rfl, rfl, -⟩ := history_split_at hhistory
  obtain ⟨taken, past, haccords, -⟩ := (accords_ofSplitter hsplitter queue).run first
  rw [List.nil_append] at haccords
  obtain ⟨taken', past', hmoment⟩ := moment_of_accords hsplitter hbreaks hdemands haccords
  obtain ⟨hcut, hended, -⟩ := hmoment.of_tells htells
  have hlength := hcut.length_eq
  rcases haccords.finished handle (by omega) with htold | hgave
  · obtain ⟨content, hdelivers⟩ := htold.delivers
    obtain ⟨taken, past, haccords, rfl⟩ := content_of_delivers hsplitter hdelivers
    obtain ⟨taken', past', hmoment⟩ := moment_of_accords hsplitter hbreaks hdemands haccords
    obtain ⟨hcut, -, -⟩ := hmoment.of_tells htells
    refine .inr ⟨_, ?_, hdelivers⟩
    rw [hcut.content_eq handle (by omega), hmoment.grows.content_eq handle (.inl (by omega))]
  · exact .inl hgave

/-- What has been taken in by any moment of a run is little. -/
theorem light_run (hsplitter : Splitter.ofDelimiter? delimiter = .ok splitter)
    {first : List Demand} {history : History} {taken : List Supply} {past : List Entry}
    (haccords :
      ((ofSplitter splitter queue).run first).1.Accords delimiter queue history taken past)
    (hhistory : history.map Prod.fst = first) :
    ((ofSplitter splitter queue).run first).1.dispenser.Light delimiter taken := by
  have hpulls := (accords_ofSplitter hsplitter queue).pulls_run
    (Dispenser.light_ofSplitter hsplitter queue) first
  have hgiven := hpulls.given_eq
  have hsupplied := haccords.supplied
  rw [hhistory, ← show (ofSplitter splitter queue).dispenser.source.queue = queue from rfl,
    ← hgiven] at hsupplied
  rw [List.append_cancel_right hsupplied]
  exact hpulls.light

/-- The demand is told of the failure for which the source is asked and gives it. -/
theorem tells_of_given (hsplitter : Splitter.ofDelimiter? delimiter = .ok splitter)
    (hbreaks : Breaks input cause (queue ++ suppliedIn demands)) {first next : List Demand}
    {demand : Demand} (hdemands : demands = first ++ demand :: next) {ask : Dispenser.Ask}
    (hask : ask ∈ ((ofSplitter splitter queue).run first).1.asks demand)
    (hgiven : ask.given = some (.failure cause)) :
    (((ofSplitter splitter queue).run first).1.serve demand).2.tellsFailure = true := by
  obtain ⟨taken, past, haccords, -⟩ := (accords_ofSplitter hsplitter queue).run first
  rw [List.nil_append] at haccords
  obtain ⟨taken', past', hmoment⟩ := moment_of_accords hsplitter hbreaks hdemands haccords
  have hpulls := haccords.pulls
    (light_run hsplitter haccords (map_fst_history _ first)) demand
  -- The source had not failed when it was asked first, and has now.
  generalize ((ofSplitter splitter queue).run first).1 = d at *
  have hreflects := haccords.tracks.reflects
  rw [hpulls.restrained.arriving hask] at hreflects
  have hnone : d.dispenser.failure = none := (Dispenser.reflects_arriving.mp hreflects).2.2
  have hmem : .failure cause ∈ taken' := by
    rw [hpulls.taken_eq haccords hmoment.accords']
    exact List.mem_append_right _ (List.mem_filterMap.mpr ⟨ask, hask, hgiven⟩)
  have hfailed := (hmoment.breaks'.of_begins
    (hmoment.accords'.supplied ▸ List.prefix_append _ _)).stateOf_eq.resolve_left
      fun harriving => harriving.2 hmem
  have hknown := hmoment.informs'.known_iff.mp (Option.isSome_iff_exists.mpr ⟨_,
    (hmoment.accords'.tracks.reflects.failure_iff _).mpr ⟨cause, hfailed.1, rfl⟩⟩)
  refine (knowsFailure_concat.mp hknown).resolve_left fun hbefore => ?_
  rw [← hmoment.informs.known_iff, hnone] at hbefore
  cases hbefore

end

/-- **What becomes of a source that fails**, after an input with these segments of which at most
`withheld` bytes can be part of a delimiter. Everything complete is handed out and read to its end,
unless it is given up, before anybody hears of the failure. The last segment is cut off: its holder
gets all but what is withheld, the failure once, and then only that it is over. The outer side gets
the failure once, whoever found it, and then only that it is over. The source is not asked again. -/
structure Fails (segments : List Bytes) (withheld : Nat) (cause : Fault) (start : Distribution)
    (demands : List Demand) : Prop where
  failure_eq : ∀ event ∈ start.history demands, event.2.tellsFailure = true →
    event.2.failure? = some (.source cause)
  complete : ∀ before demand service after,
    start.history demands = before ++ (demand, service) :: after → service.tellsFailure = true →
    ∀ handle, handle + 1 < segments.length → GaveUp handle before ∨
      ∃ content, segments[handle]? = some content ∧ Delivers handle content before
  handedOut_eq : ∀ before demand service after,
    start.history demands = before ++ (demand, service) :: after → service.tellsFailure = true →
    (handedOut before).length = segments.length ∧ handedOut after = []
  withheld_of_read : ∀ before handle service after,
    start.history demands = before ++ (.read handle, service) :: after →
    service.tellsFailure = true → handle + 1 = segments.length ∧ ∃ segment rest,
      segments[handle]? = some segment ∧ (chunksOf handle before).flatten ++ rest = segment ∧
      rest.length = min withheld segment.length
  read_known : ∀ before handle service after,
    start.history demands = before ++ (.read handle, service) :: after → KnowsFailure before →
    handle + 1 = segments.length → service = .gone ∨
      (service.tellsFailure = true ∧ ¬ ToldFailure (.read handle) before) ∨
      (service.tellsEnd = true ∧ ToldFailure (.read handle) before)
  next_known : ∀ before service after,
    start.history demands = before ++ (.next, service) :: after → KnowsFailure before →
    service = .gone ∨
      (service = .outer (.failed (.source cause)) ∧ ¬ ToldFailure .next before) ∨
      (service = .outer .ended ∧ ToldFailure .next before)
  told_of_ended : ∀ before demand after,
    start.history demands = before ++ (demand, .outer .ended) :: after → ToldFailure .next before
  not_pending : ∀ before handle service after,
    start.history demands = before ++ (.read handle, service) :: after →
    .failure cause ∈ start.dispenser.source.queue ++ suppliedIn (before.map Prod.fst) →
    service.tellsToWait = false
  tells_of_given : ∀ first demand last, demands = first ++ demand :: last →
    ∀ ask ∈ (start.run first).1.asks demand, ask.given = some (.failure cause) →
    ((start.run first).1.serve demand).2.tellsFailure = true
  last_ask : ∀ before ask after, start.asksIn demands = before ++ ask :: after →
    ask.given = some (.failure cause) → after = []

section

variable {delimiter input : Bytes} {cause : Fault} {splitter : Splitter} {queue : List Supply}
  {demands : List Demand}

theorem fails_history (hsplitter : Splitter.ofDelimiter? delimiter = .ok splitter)
    (hbreaks : Breaks input cause (queue ++ suppliedIn demands)) :
    Fails (splitLeftmost delimiter input) delimiter.length cause (ofSplitter splitter queue)
      demands := by
  have hmoment : ∀ {before after : History} {demand : Demand} {service : Service},
      (ofSplitter splitter queue).history demands = before ++ (demand, service) :: after →
      ∃ d d' taken past taken' past', Moment delimiter input cause queue before (demand, service)
        d d' taken past taken' past' := by
    intro before after demand service hhistory
    obtain ⟨first, next, hdemands, rfl, rfl, -⟩ := history_split_at hhistory
    obtain ⟨taken, past, haccords, -⟩ := (accords_ofSplitter hsplitter queue).run first
    rw [List.nil_append] at haccords
    obtain ⟨taken', past', hmoment⟩ := moment_of_accords hsplitter hbreaks hdemands haccords
    exact ⟨_, _, taken, past, taken', past', hmoment⟩
  -- What is known at the end of the run.
  obtain ⟨taken, past, haccords, -⟩ := (accords_ofSplitter hsplitter queue).run demands
  have hinforms := (informs_ofSplitter splitter queue).run (accords_ofSplitter hsplitter queue)
    demands
  rw [List.nil_append] at haccords hinforms
  have hfinally : KnowsFailure ((ofSplitter splitter queue).history demands) → _ :=
    length_handedOut_of_known haccords hinforms (by rwa [map_fst_history])
  refine ⟨fun event hevent htells => ?_, fun before demand service after hhistory htells handle =>
    complete_of_tells hsplitter hbreaks hhistory htells,
    fun before demand service after hhistory htells => ?_,
    fun before handle service after hhistory htells => ?_,
    fun before handle service after hhistory hknown hhandle => ?_,
    fun before service after hhistory hknown => ?_, fun before demand after hhistory => ?_,
    fun before handle service after hhistory hgiven => ?_,
    fun first demand last hdemands ask hask hgiven =>
      tells_of_given hsplitter hbreaks hdemands hask hgiven,
    fun before ask after hasks hgiven => ?_⟩
  · rw [hinforms.failure_eq event hevent htells, (hfinally ⟨event, hevent, htells⟩).1.failure_eq]
  · obtain ⟨d, d', taken, past, taken', past', hmoment⟩ := hmoment hhistory
    have hlength := (hmoment.of_tells htells).2.2
    obtain ⟨-, -, hall⟩ := hfinally ⟨(demand, service), by rw [hhistory]; simp, htells⟩
    rw [hhistory, handedOut_append, List.length_append, hlength] at hall
    have hnone : handedOut ((demand, service) :: after) = [] :=
      List.eq_nil_of_length_eq_zero (by omega)
    rw [← List.singleton_append, handedOut_append] at hnone
    exact ⟨hlength, (List.append_eq_nil_iff.mp hnone).2⟩
  · obtain ⟨d, d', taken, past, taken', past', hmoment⟩ := hmoment hhistory
    exact hmoment.read_tells htells
  · obtain ⟨d, d', taken, past, taken', past', hmoment⟩ := hmoment hhistory
    exact hmoment.read_known hknown hhandle
  · obtain ⟨d, d', taken, past, taken', past', hmoment⟩ := hmoment hhistory
    exact hmoment.next_known hknown
  · obtain ⟨d, d', taken, past, taken', past', hmoment⟩ := hmoment hhistory
    exact hmoment.told_of_ended
  · obtain ⟨d, d', taken, past, taken', past', hmoment⟩ := hmoment hhistory
    exact hmoment.not_pending hgiven
  · have hpulls := (accords_ofSplitter hsplitter queue).pulls_run
      (Dispenser.light_ofSplitter hsplitter queue) demands
    have hrestrained := hpulls.restrained
    rw [hasks] at hrestrained
    obtain ⟨-, harriving, hafter⟩ := hrestrained.at_ask
    refine hafter.eq_nil ?_
    rw [hgiven, Option.toList_some, stateOf_append harriving]
    nofun

end

/-- **Runs whose source fails**: for every delimiter that is not empty, every input in any chunks,
every failure and every order of demands. -/
theorem fails_run {delimiter : Bytes} (hd : delimiter ≠ []) :
    ∃ splitter, Splitter.ofDelimiter? delimiter = .ok splitter ∧
      ∀ (input : Bytes) (segments : List Bytes), LeftmostSplit delimiter input segments →
        ∀ (cause : Fault) (queue : List Supply) (demands : List Demand),
          Breaks input cause (queue ++ suppliedIn demands) →
          Fails segments delimiter.length cause (ofSplitter splitter queue) demands := by
  obtain ⟨splitter, hsplitter⟩ : ∃ splitter, Splitter.ofDelimiter? delimiter = .ok splitter :=
    ⟨_, if_neg hd⟩
  refine ⟨splitter, hsplitter, fun input segments hsplit cause queue demands hbreaks => ?_⟩
  rw [hsplit.eq_splitLeftmost hd]
  exact fails_history hsplitter hbreaks

/-- The holder of the second segment finds the failure, after all of it but the last byte. -/
theorem fails_run_found :
    ([10] : Bytes) ≠ [] ∧ ∃ splitter, Splitter.ofDelimiter? [10] = .ok splitter ∧
      Breaks [1, 10, 2, 3, 4] (.text "broken") ([.chunk [1, 10, 2, 3, 4]] ++
        suppliedIn [.next, .read 0, .read 0, .next, .read 1, .supply (.failure (.text "broken")),
          .read 1, .read 1, .next, .next]) ∧
      Fails [[1], [2, 3, 4]] 1 (.text "broken") (ofSplitter splitter [.chunk [1, 10, 2, 3, 4]])
        [.next, .read 0, .read 0, .next, .read 1, .supply (.failure (.text "broken")),
          .read 1, .read 1, .next, .next] ∧
      chunksOf 1 ((ofSplitter splitter [.chunk [1, 10, 2, 3, 4]]).history
        [.next, .read 0, .read 0, .next, .read 1, .supply (.failure (.text "broken")),
          .read 1, .read 1, .next, .next]) = [[2, 3]] ∧
      ((ofSplitter splitter [.chunk [1, 10, 2, 3, 4]]).history
        [.next, .read 0, .read 0, .next, .read 1, .supply (.failure (.text "broken")),
          .read 1, .read 1, .next, .next]).map (fun event => event.2.tellsFailure) =
        [false, false, false, false, false, false, true, false, true, false] := by
  obtain ⟨splitter, hsplitter, hfails⟩ := fails_run (show ([10] : Bytes) ≠ [] by decide)
  have hsplit : LeftmostSplit [10] ([1] ++ [10] ++ [2, 3, 4]) [[1], [2, 3, 4]] :=
    .cut (by unfold OccursAt; decide) (.last (by decide))
  have hbreaks : Breaks [1, 10, 2, 3, 4] (.text "broken") ([.chunk [1, 10, 2, 3, 4]] ++
      suppliedIn [.next, .read 0, .read 0, .next, .read 1, .supply (.failure (.text "broken")),
        .read 1, .read 1, .next, .next]) :=
    ⟨[[1, 10, 2, 3, 4]], [], rfl, List.prefix_rfl⟩
  refine ⟨by decide, splitter, hsplitter, hbreaks, hfails _ _ hsplit _ _ _ hbreaks, ?_, ?_⟩ <;>
    cases hsplitter
  · decide
  · rfl

end Distribution

end Switchboard
