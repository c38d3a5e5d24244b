import Switchboard.Proofs.Segment.Steps
set_option autoImplicit false

/-! # Nothing is read ahead

A dispenser never holds more than the last chunk that it read, and as many bytes as may belong to a
delimiter (`Dispenser.Light`): it reads the next one when everything queued has been given out.
`OnDemand` says this of a run, together with when its source is asked. -/

namespace Switchboard

/-! ## Amounts -/

/-- How many bytes of content an entry has. -/
def Entry.size : Entry → Nat
  | .chunk bytes => bytes.length
  | .close => 0

/-- How many bytes of content entries have. -/
def bytesIn : List Entry → Nat
  | [] => 0
  | entry :: rest => entry.size + bytesIn rest

/-- How many bytes of content pieces have. -/
def pieceBytesIn : List Piece → Nat
  | [] => 0
  | piece :: rest => piece.bytes.length + pieceBytesIn rest

/-- The length of the last chunk among what a source has given. -/
def lastChunkSize (taken : List Supply) : Nat :=
  taken.foldl (fun size item => match item with | .chunk bytes => bytes.length | _ => size) 0

@[simp] theorem lastChunkSize_chunk (taken : List Supply) (bytes : Bytes) :
    lastChunkSize (taken ++ [.chunk bytes]) = bytes.length := by
  simp [lastChunkSize]

@[simp] theorem lastChunkSize_failure (taken : List Supply) (cause : Fault) :
    lastChunkSize (taken ++ [.failure cause]) = lastChunkSize taken := by
  simp [lastChunkSize]

@[simp] theorem lastChunkSize_done (taken : List Supply) :
    lastChunkSize (taken ++ [.done]) = lastChunkSize taken := by
  simp [lastChunkSize]

theorem bytesIn_append (first next : List Entry) :
    bytesIn (first ++ next) = bytesIn first + bytesIn next := by
  induction first with
  | nil => simp [bytesIn]
  | cons entry rest ih => simp [bytesIn, ih, Nat.add_assoc]

theorem bytesIn_le_of_suffix {first next : List Entry} (h : next <:+ first) :
    bytesIn next ≤ bytesIn first := by
  obtain ⟨before, rfl⟩ := h
  rw [bytesIn_append]
  omega

theorem pieceBytesIn_append (first next : List Piece) :
    pieceBytesIn (first ++ next) = pieceBytesIn first + pieceBytesIn next := by
  induction first with
  | nil => simp [pieceBytesIn]
  | cons piece rest ih => simp [pieceBytesIn, ih, Nat.add_assoc]

/-- Queueing pieces keeps their content. -/
theorem bytesIn_entriesOf (pieces : List Piece) :
    bytesIn (entriesOf pieces) = pieceBytesIn pieces := by
  induction pieces with
  | nil => rfl
  | cons piece pieces ih =>
    obtain ⟨bytes, last⟩ := piece
    have htail : entriesOf (⟨bytes, last⟩ :: pieces) =
        ((if bytes.isEmpty then [] else [.chunk bytes]) ++ if last then [.close] else []) ++
          entriesOf pieces := rfl
    rw [htail, bytesIn_append, ih]
    cases bytes <;> cases last <;> simp [bytesIn, pieceBytesIn, Entry.size]

/-! ## What a splitter holds -/

namespace Splitter

/-- How many bytes a splitter holds. -/
def heldBytes (s : Splitter) : Nat := s.window.size + s.buffer.size

/-- A byte is held, or is part of the delimiter that it completes. -/
theorem heldBytes_pushByte (s : Splitter) (byte : UInt8) :
    pieceBytesIn (s.pushByte byte).2.toList + (s.pushByte byte).1.heldBytes ≤ s.heldBytes + 1 := by
  have hpush : (s.window.push byte).1.size + (s.bufferAfter byte).size =
      s.window.size + s.buffer.size + 1 := by
    unfold bufferAfter Window.push
    split
    · simp only [Array.size_push]
      omega
    · simp only
      omega
  rw [pushByte_eq]
  split
  · simp only [Option.toList_some, pieceBytesIn, heldBytes, Window.clear, Array.length_toList,
      List.size_toArray, List.length_nil]
    omega
  · simp only [Option.toList_none, pieceBytesIn, heldBytes]
    omega

theorem heldBytes_pushBytes (s : Splitter) (chunk : Bytes) :
    pieceBytesIn (s.pushBytes chunk).2.toList + (s.pushBytes chunk).1.heldBytes ≤
      s.heldBytes + chunk.length := by
  induction chunk generalizing s with
  | nil => simp [pushBytes, pieceBytesIn]
  | cons byte chunk ih =>
    have hbyte := s.heldBytes_pushByte byte
    have hrest := ih (s.pushByte byte).1
    rw [pushBytes_cons, Array.toList_append, pieceBytesIn_append, List.length_cons]
    simp only
    omega

theorem heldBytes_flush (s : Splitter) :
    pieceBytesIn s.flush.2 + s.flush.1.heldBytes = s.heldBytes := by
  unfold flush
  split
  · simp [pieceBytesIn]
  · simp [pieceBytesIn, heldBytes]
    omega

/-- What comes of a chunk is no more than was held before and the chunk. -/
theorem heldBytes_push (s : Splitter) (chunk : Bytes) :
    pieceBytesIn (s.push chunk).2 + (s.push chunk).1.heldBytes ≤ s.heldBytes + chunk.length := by
  have hbytes := s.heldBytes_pushBytes chunk
  have hflush := (s.pushBytes chunk).1.heldBytes_flush
  simp only [push, pieceBytesIn_append]
  omega

/-- Nothing is left in the buffer after a chunk. -/
theorem buffer_push (s : Splitter) (chunk : Bytes) : (s.push chunk).1.buffer = #[] := by
  simp only [push, flush]
  split
  · next hempty => simpa using hempty
  · rfl

end Splitter

namespace Dispenser

/-! ## What a dispenser holds -/

/-- Nothing comes into the queue without a question to the source. -/
structure Shrinks (d d' : Dispenser) : Prop where
  splitter_eq : d'.splitter = d.splitter
  queue_suffix : d'.queue <:+ d.queue

theorem Shrinks.trans {d₁ d₂ d₃ : Dispenser} (h : d₁.Shrinks d₂) (h' : d₂.Shrinks d₃) :
    d₁.Shrinks d₃ :=
  ⟨h'.splitter_eq.trans h.splitter_eq, h'.queue_suffix.trans h.queue_suffix⟩

theorem shrinks_of_core {d d' : Dispenser} (h : d'.core = d.core) : d.Shrinks d' := by
  have hqueue : d'.queue = d.queue := congrArg Core.queue h
  exact ⟨congrArg Core.splitter h, hqueue ▸ List.suffix_rfl⟩

theorem shrinks_skipOrphan (d : Dispenser) : d.Shrinks d.skipOrphan := by
  have hsuffix := List.dropWhile_suffix (l := d.queue) (· != Entry.close)
  unfold skipOrphan
  split
  · next hrest =>
    rw [hrest] at hsuffix
    exact ⟨rfl, (List.suffix_cons _ _).trans hsuffix⟩
  · exact ⟨rfl, List.nil_suffix⟩

theorem shrinks_skipped (d : Dispenser) : d.Shrinks d.skipped := by
  unfold skipped
  split
  · exact d.shrinks_skipOrphan
  · exact shrinks_of_core rfl

theorem shrinks_issue (d : Dispenser) : d.Shrinks d.issue.1 := by
  unfold issue
  split <;> exact ⟨rfl, List.suffix_rfl⟩

theorem OuterTurns.shrinks {d : Dispenser} {turn : Turn OuterPoll} (h : d.OuterTurns turn) :
    d.Shrinks turn.dispenser := by
  cases h with
  | issues => exact d.shrinks_skipped.trans (shrinks_issue _)
  | lets => exact d.shrinks_skipped
  | stops => exact d.shrinks_skipped
  | reads => exact d.shrinks_skipped
  | _ => exact shrinks_of_core rfl

theorem InnerTurns.shrinks {d : Dispenser} {turn : Turn (InnerPoll × Bool)}
    (h : d.InnerTurns turn) : d.Shrinks turn.dispenser := by
  cases h with
  | chunk hqueue => exact ⟨rfl, hqueue ▸ List.suffix_cons _ _⟩
  | @closes rest hqueue =>
    have hrest : d.Shrinks { d with queue := rest, ended := d.ended + 1 } :=
      ⟨rfl, hqueue ▸ List.suffix_cons _ _⟩
    exact hrest.trans (shrinks_of_core (core_wakeOuter _))
  | fails => exact shrinks_of_core (core_wakeOuter d)
  | _ => exact shrinks_of_core rfl

theorem shrinks_dropSegment (d : Dispenser) (s : Segment) : d.Shrinks (d.dropSegment s) := by
  unfold dropSegment
  split
  · exact shrinks_of_core rfl
  · refine .trans ?_ (shrinks_of_core (core_wakeOuter _))
    split
    · have hmarked : d.Shrinks { d with orphaned := true } := ⟨rfl, List.suffix_rfl⟩
      exact hmarked.trans (shrinks_skipOrphan _)
    · exact shrinks_of_core rfl

/-- **A dispenser holds little**, after it has taken in `taken`: what is queued and in the window is
no more than the last chunk and a delimiter, and nothing is left in the buffer. -/
structure Light (delimiter : Bytes) (taken : List Supply) (d : Dispenser) : Prop where
  buffer_eq : d.splitter.buffer = #[]
  size_le : d.splitter.window.size ≤ delimiter.length
  held_le : bytesIn d.queue + d.splitter.window.size ≤ lastChunkSize taken + delimiter.length

section

variable {delimiter : Bytes} {taken : List Supply} {past : List Entry} {d : Dispenser} {s : Segment}

theorem light_ofSplitter {splitter : Splitter} (h : Splitter.ofDelimiter? delimiter = .ok splitter)
    (queue : List Supply) : (ofSplitter splitter queue).Light delimiter [] := by
  rw [Splitter.ofDelimiter?] at h
  split at h
  · cases h
  · cases h
    exact ⟨rfl, Nat.zero_le _, Nat.zero_le _⟩

theorem Light.of_shrinks (h : d.Light delimiter taken) {d' : Dispenser} (hshrinks : d.Shrinks d') :
    d'.Light delimiter taken := by
  have hqueue := bytesIn_le_of_suffix hshrinks.queue_suffix
  have hheld := h.held_le
  refine ⟨?_, ?_, ?_⟩ <;> rw [hshrinks.splitter_eq]
  · exact h.buffer_eq
  · exact h.size_le
  · omega

theorem Light.of_core (h : d.Light delimiter taken) {d' : Dispenser} (hcore : d'.core = d.core) :
    d'.Light delimiter taken := h.of_shrinks (shrinks_of_core hcore)

/-- What comes of one question replaces what was held before. -/
theorem Light.absorb (h : d.Light delimiter taken) (htracks : d.Tracks delimiter taken past)
    (hready : d.Ready) (item : Supply) : (d.absorb item).Light delimiter (taken ++ [item]) := by
  have hsize := h.size_le
  cases item with
  | chunk bytes =>
    have habsorbed := htracks.absorb hready.connected hready.queue_eq hready.opened (.chunk bytes)
    have hrenders := habsorbed.renders
    rw [Renders, habsorbed.reflects.connected_iff.mp hready.connected] at hrenders
    obtain ⟨opened, -, hholds⟩ := hrenders
    have hwindow : (d.absorb (.chunk bytes)).splitter.window.size ≤ delimiter.length := by
      rw [hholds.size_eq]
      exact Nat.min_le_right _ _
    have hbuffer : (d.absorb (.chunk bytes)).splitter.buffer = #[] :=
      d.splitter.buffer_push bytes
    refine ⟨hbuffer, hwindow, ?_⟩
    have hpush := d.splitter.heldBytes_push bytes
    have hqueue : (d.absorb (.chunk bytes)).queue = entriesOf (d.splitter.push bytes).2 := by
      simp [Dispenser.absorb, hready.queue_eq]
    rw [hqueue, bytesIn_entriesOf, lastChunkSize_chunk]
    simp only [Splitter.heldBytes, h.buffer_eq, List.size_toArray, List.length_nil] at hpush
    have hsplitter : (d.absorb (.chunk bytes)).splitter = (d.splitter.push bytes).1 := rfl
    rw [hsplitter]
    omega
  | failure cause =>
    refine ⟨rfl, Nat.zero_le _, ?_⟩
    have hqueue : (d.absorb (.failure cause)).queue = [] := hready.queue_eq
    rw [hqueue]
    exact Nat.zero_le _
  | done =>
    refine ⟨rfl, Nat.zero_le _, ?_⟩
    have hqueue : (d.absorb .done).queue = entriesOf d.splitter.finish.2 := by
      simp [Dispenser.absorb, hready.queue_eq]
    have hfinish : pieceBytesIn d.splitter.finish.2 = d.splitter.window.size := by
      simp [pieceBytesIn, Splitter.finish, h.buffer_eq, Window.length_toList]
    have hwindow : (d.absorb .done).splitter.window.size = 0 := rfl
    rw [hqueue, bytesIn_entriesOf, hfinish, hwindow, lastChunkSize_done]
    omega

/-! ## One operation -/

/-- An operation puts these questions to the source, and holds little afterwards. -/
structure Draws (delimiter : Bytes) (taken : List Supply) (d : Dispenser) (asks : List Ask)
    (d' : Dispenser) : Prop where
  polls_eq : d'.source.polls = d.source.polls + asks.length
  given_eq : givenIn asks ++ d'.source.queue = d.source.queue
  restrained : Restrained taken asks
  light : d'.Light delimiter (taken ++ givenIn asks)

theorem Draws.of_shrinks (h : d.Light delimiter taken) {d' : Dispenser} (hshrinks : d.Shrinks d')
    (hsource : d'.source = d.source) : Draws delimiter taken d [] d' where
  polls_eq := by rw [hsource]; rfl
  given_eq := by rw [hsource]; rfl
  restrained := .nil
  light := by simpa [givenIn] using h.of_shrinks hshrinks

theorem Draws.trans {d₁ d₂ d₃ : Dispenser} {first next : List Ask}
    (h : Draws delimiter taken d₁ first d₂)
    (h' : Draws delimiter (taken ++ givenIn first) d₂ next d₃) :
    Draws delimiter taken d₁ (first ++ next) d₃ where
  polls_eq := by
    rw [h'.polls_eq, h.polls_eq, List.length_append, Nat.add_assoc]
  given_eq := by
    rw [givenIn_append, List.append_assoc, h'.given_eq, h.given_eq]
  restrained := h.restrained.append h'.restrained
  light := by
    rw [givenIn_append, ← List.append_assoc]
    exact h'.light

/-- What is missing from the source was taken in. -/
theorem Draws.taken_eq {d' : Dispenser} {asks : List Ask} (h : Draws delimiter taken d asks d')
    {taken' : List Supply} (hsupplied : taken' ++ d'.source.queue = taken ++ d.source.queue) :
    taken' = taken ++ givenIn asks := by
  rw [← h.given_eq, ← List.append_assoc] at hsupplied
  exact List.append_cancel_right hsupplied

theorem Tracks.draws_pollOuter (h : d.Tracks delimiter taken past)
    (hlight : d.Light delimiter taken) (caller : Caller) :
    Draws delimiter taken d (d.asksOfOuter caller) (d.pollOuter caller).1 := by
  have hloop := loops_outerLoop { d with outerWaiter := some caller } d.source.queue
  have hkept := h.pollOuter_keeps (I := fun taken d => d.Light delimiter taken)
    (Q := fun taken d _ => d.Light delimiter taken) caller (hlight.of_core rfl)
    (fun _ hlight => hlight.of_shrinks (shrinks_skipped _))
    (fun item htracks hready hlight => (hlight.absorb htracks hready item).of_core
      (core_wakeInner _))
    (fun items htracks hlight hturn => (hlight.of_shrinks hturn.shrinks).of_core rfl)
    (fun htracks hready hlight => hlight.of_core rfl)
  exact ⟨hloop.polls_eq source_outerTurn source_wakeInner, hloop.given_eq, hkept.2, hkept.1⟩

theorem Tracks.draws_pollSegment (h : d.Tracks delimiter taken past) (hs : d.Stands s)
    (hlight : d.Light delimiter taken) (caller : Caller) :
    Draws delimiter taken d (d.asksOfSegment caller s) (d.pollSegment caller s).1 := by
  cases hdone : s.done with
  | true =>
    rw [asksOfSegment, Dispenser.pollSegment, hdone, Bool.true_or, if_pos rfl, if_pos rfl]
    exact .of_shrinks hlight (shrinks_of_core rfl) rfl
  | false =>
    have hkept := h.pollSegment_keeps (I := fun taken d => d.Light delimiter taken)
      (Q := fun taken d _ => d.Light delimiter taken) hs hdone caller
      (hlight.of_core rfl)
      (fun item htracks hready hlight => (hlight.absorb htracks hready item).of_core
        (core_wakeOuter _))
      (fun items htracks hheld hlight hturn => (hlight.of_shrinks hturn.shrinks).of_core rfl)
      (fun htracks hready hheld hlight => hlight.of_core rfl)
    have hindex := (hs.opened hdone).1
    have hloop := loops_innerLoop { d with innerWaiter := some caller } d.source.queue
    rw [asksOfSegment, pollSegment_of_held hindex hdone,
      if_neg (by simp [hdone, hindex])] at hkept ⊢
    exact ⟨hloop.polls_eq source_innerTurn source_wakeOuter, hloop.given_eq, hkept.2, hkept.1⟩

theorem PollsOn.draws {d' : Dispenser} {s' : Segment} {asks : List Ask} {answers : List InnerPoll}
    (h : PollsOn d s asks answers d' s') (htracks : d.Tracks delimiter taken past) (hs : d.Stands s)
    (hlight : d.Light delimiter taken) : Draws delimiter taken d asks d' := by
  induction h generalizing taken past with
  | refl d s => exact .of_shrinks hlight (shrinks_of_core rfl) rfl
  | poll hpoll hrest ih =>
    have hdraws := htracks.draws_pollSegment hs hlight .nobody
    obtain ⟨taken', past', htakes, -⟩ := htracks.pollSegment hs .nobody
    rw [hpoll] at hdraws htakes
    obtain rfl := hdraws.taken_eq htakes.supplied
    exact hdraws.trans (ih htakes.tracks htakes.stands hdraws.light)

/-- Only the polls ask for anything. -/
theorem GivesUp.draws {d' : Dispenser} {asks : List Ask} {service : Service}
    (h : d.GivesUp s asks d' service) (htracks : d.Tracks delimiter taken past) (hs : d.Stands s)
    (hlight : d.Light delimiter taken) : Draws delimiter taken d asks d' := by
  obtain ⟨answers, left, s', hpolls, -, -, rfl⟩ := h
  have hdraws := hpolls.draws htracks hs hlight
  have hdrop : Draws delimiter (taken ++ givenIn asks) left [] (left.dropSegment s') :=
    .of_shrinks hdraws.light (left.shrinks_dropSegment s') (left.source_dropSegment s')
  simpa using hdraws.trans hdrop

/-- With no segment open, the outer side has its answer at once. -/
theorem asksOfOuter_of_closed (hclosed : d.issued = d.ended) (caller : Caller) :
    d.asksOfOuter caller = [] := by
  have hskipped : skipped { d with outerWaiter := some caller } =
      { d with outerWaiter := some caller } := by
    simp [skipped, hclosed]
  have hturn := outerTurns_outerTurn { d with outerWaiter := some caller }
  have hnone : ∀ d', outerTurn { d with outerWaiter := some caller } ≠ .reads d' := by
    intro d' hreads
    rw [hreads] at hturn
    cases hturn with
    | reads hfailure hopen hfree hconnected =>
      rw [hskipped] at hopen
      exact hopen hclosed
  rw [asksOfOuter]
  cases hturn' : outerTurn { d with outerWaiter := some caller } with
  | answers d' answer => cases d.source.queue <;> simp only [asksBy, hturn']
  | reads d' => exact absurd hturn' (hnone d')

end

end Dispenser

/-! ## Runs -/

namespace Distribution

open Dispenser (Restrained givenIn)

section

variable {delimiter : Bytes} {initial : List Supply} {history : History} {taken : List Supply}
  {past : List Entry} {d : Distribution}

/-- What every demand but a supply asks of the source. -/
theorem Accords.draws (h : d.Accords delimiter initial history taken past)
    (hlight : d.dispenser.Light delimiter taken) {demand : Demand} {asks : List Dispenser.Ask}
    {d' : Distribution} {service : Service} (hserved : d.Served demand asks d' service)
    (hdemand : suppliedIn [demand] = []) :
    Dispenser.Draws delimiter taken d.dispenser asks d'.dispenser := by
  have hnothing : Dispenser.Draws delimiter taken d.dispenser [] d.dispenser :=
    .of_shrinks hlight (Dispenser.shrinks_of_core rfl) rfl
  cases hserved with
  | supplies item => cases hdemand
  | leaves => exact hnothing
  | offers hheld hpoll =>
    have hdraws := h.tracks.draws_pollOuter hlight .outer
    rwa [hpoll] at hdraws
  | @reads handle s _ _ _ _ _ hs hpoll hholding hservice =>
    have hdraws := h.tracks.draws_pollSegment (h.held handle s hs).2.1 hlight (.inner handle)
    rwa [hpoll] at hdraws
  | wraps hs => exact hnothing
  | releases hgivesUp hs hgives => exact hgives.draws h.tracks (h.held _ _ hs).2.1 hlight
  | gone => exact hnothing

/-- Demands put these questions to the source, and little is held afterwards. -/
structure Pulls (delimiter : Bytes) (taken : List Supply) (d : Distribution)
    (demands : List Demand) (asks : List Dispenser.Ask) (d' : Distribution) : Prop where
  polls_eq : d'.dispenser.source.polls = d.dispenser.source.polls + asks.length
  given_eq : givenIn asks ++ d'.dispenser.source.queue =
    d.dispenser.source.queue ++ suppliedIn demands
  restrained : Restrained taken asks
  light : d'.dispenser.Light delimiter (taken ++ givenIn asks)

/-- The step: every demand. -/
theorem Accords.pulls (h : d.Accords delimiter initial history taken past)
    (hlight : d.dispenser.Light delimiter taken) (demand : Demand) :
    Pulls delimiter taken d [demand] (d.asks demand) (d.serve demand).1 := by
  by_cases hdemand : suppliedIn [demand] = []
  · obtain ⟨hpolls, hgiven, hrestrained, hlight'⟩ :=
      h.draws hlight (d.served_serve demand) hdemand
    exact ⟨hpolls, by rw [hgiven, hdemand, List.append_nil], hrestrained, hlight'⟩
  · cases demand with
    | supply item =>
      refine ⟨d.dispenser.polls_supply item, d.dispenser.queue_supply item, .nil, ?_⟩
      show Dispenser.Light delimiter (taken ++ givenIn []) (d.dispenser.supply item)
      rw [givenIn, List.filterMap_nil, List.append_nil]
      exact hlight.of_core (Dispenser.core_supply _ _)
    | _ => exact absurd rfl hdemand

theorem Pulls.append {d₁ d₂ d₃ : Distribution} {first next : List Demand}
    {asks asks' : List Dispenser.Ask} (h : Pulls delimiter taken d₁ first asks d₂)
    (h' : Pulls delimiter (taken ++ givenIn asks) d₂ next asks' d₃) :
    Pulls delimiter taken d₁ (first ++ next) (asks ++ asks') d₃ where
  polls_eq := by rw [h'.polls_eq, h.polls_eq, List.length_append, Nat.add_assoc]
  given_eq := by
    rw [Dispenser.givenIn_append, List.append_assoc, h'.given_eq, ← List.append_assoc, h.given_eq,
      suppliedIn_append, List.append_assoc]
  restrained := h.restrained.append h'.restrained
  light := by
    rw [Dispenser.givenIn_append, ← List.append_assoc]
    exact h'.light

/-- What the invariant says was taken in is what the source has given. -/
theorem Pulls.taken_eq {demand : Demand} {asks : List Dispenser.Ask} {d' : Distribution}
    (hpulls : Pulls delimiter taken d [demand] asks d')
    (h : d.Accords delimiter initial history taken past) {service : Service}
    {taken' : List Supply} {past' : List Entry}
    (h' : d'.Accords delimiter initial (history ++ [(demand, service)]) taken' past') :
    taken' = taken ++ givenIn asks := by
  have hsupplied := h'.supplied
  rw [List.map_append, suppliedIn_append, ← List.append_assoc, ← h.supplied, List.map_singleton,
    List.append_assoc, ← hpulls.given_eq, ← List.append_assoc] at hsupplied
  exact List.append_cancel_right hsupplied

/-- **Runs.** -/
theorem Accords.pulls_run (h : d.Accords delimiter initial history taken past)
    (hlight : d.dispenser.Light delimiter taken) (demands : List Demand) :
    Pulls delimiter taken d demands (d.asksIn demands) (d.run demands).1 := by
  induction demands generalizing d history taken past with
  | nil =>
    refine ⟨rfl, by simp [suppliedIn, asksIn, givenIn, Distribution.run], .nil, ?_⟩
    simpa [asksIn, givenIn, Distribution.run] using hlight
  | cons demand rest ih =>
    have hpulls := h.pulls hlight demand
    obtain ⟨taken', past', haccords, -⟩ := h.serve demand
    obtain rfl := hpulls.taken_eq h haccords
    exact hpulls.append (ih haccords hpulls.light)

end

/-- Nothing can come from a source after this. -/
def endsSource : Supply → Bool
  | .chunk _ => false
  | .failure _ => true
  | .done => true

/-- **What a run takes of its source**, and what it holds. The questions are as many as the source
counts, and what is given for them is all that has gone from it. The source is asked while a segment
is open and nothing is queued, so not in order to hand a segment out with none open before it, and
never after its end. -/
structure OnDemand (delimiter : Bytes) (d : Distribution) (demands : List Demand) : Prop where
  polls_eq : (d.run demands).1.dispenser.source.polls = (d.asksIn demands).length
  given_eq : givenIn (d.asksIn demands) ++ (d.run demands).1.dispenser.source.queue =
    d.dispenser.source.queue ++ suppliedIn demands
  open_of_ask : ∀ ask ∈ d.asksIn demands,
    ask.dispenser.issued = ask.dispenser.ended + 1 ∧ ask.dispenser.queue = []
  last_ask : ∀ before ask after item, d.asksIn demands = before ++ ask :: after →
    ask.given = some item → endsSource item = true → after = []
  asks_of_closed : (d.run demands).1.dispenser.issued = (d.run demands).1.dispenser.ended →
    (d.run demands).1.asks .next = []
  held_le : bytesIn (d.run demands).1.dispenser.queue +
      (d.run demands).1.dispenser.splitter.window.size ≤
    lastChunkSize (givenIn (d.asksIn demands)) + delimiter.length
  buffer_eq : (d.run demands).1.dispenser.splitter.buffer = #[]

/-- **Nothing is read ahead**, for every delimiter that is not empty, everything that a source may
give, and every order of demands. -/
theorem onDemand_run {delimiter : Bytes} (hd : delimiter ≠ []) :
    ∃ splitter, Splitter.ofDelimiter? delimiter = .ok splitter ∧
      ∀ (queue : List Supply) (demands : List Demand),
        OnDemand delimiter (ofSplitter splitter queue) demands := by
  obtain ⟨splitter, hsplitter⟩ : ∃ splitter, Splitter.ofDelimiter? delimiter = .ok splitter :=
    ⟨_, if_neg hd⟩
  refine ⟨splitter, hsplitter, fun queue demands => ?_⟩
  obtain ⟨hpolls, hgiven, hrestrained, hlight⟩ :=
    (accords_ofSplitter hsplitter queue).pulls_run (Dispenser.light_ofSplitter hsplitter queue)
      demands
  rw [List.nil_append] at hlight
  refine ⟨hpolls.trans (Nat.zero_add _), hgiven, fun ask hask => ?_,
    fun before ask after item hasks hitem hlast => ?_, fun hclosed => ?_, hlight.held_le,
    hlight.buffer_eq⟩
  · obtain ⟨before, after, hasks⟩ := List.append_of_mem hask
    rw [hasks] at hrestrained
    obtain ⟨hready, -, -⟩ := hrestrained.at_ask
    exact ⟨hready.opened, hready.queue_eq⟩
  · rw [hasks] at hrestrained
    obtain ⟨-, harriving, hafter⟩ := hrestrained.at_ask
    refine hafter.eq_nil ?_
    rw [hitem, Option.toList_some, stateOf_append harriving]
    cases item with
    | chunk bytes => cases hlast
    | failure cause => nofun
    | done => nofun
  · rw [asks]
    split
    · exact Dispenser.asksOfOuter_of_closed hclosed .outer
    · rfl

/-- An orphan is skipped over three chunks until a segment can be handed out, and then the last
chunk is more than what is held. -/
theorem onDemand_run_orphan :
    ([10] : Bytes) ≠ [] ∧ ∃ splitter, Splitter.ofDelimiter? [10] = .ok splitter ∧
      OnDemand [10] (ofSplitter splitter [.chunk [1, 1], .chunk [2], .chunk [3, 10, 4, 10, 5]])
        [.next, .read 0, .drop 0, .next] ∧
      (ofSplitter splitter [.chunk [1, 1], .chunk [2], .chunk [3, 10, 4, 10, 5]]
        |>.asksIn [.next, .read 0, .drop 0, .next]).length = 3 ∧
      ((ofSplitter splitter [.chunk [1, 1], .chunk [2], .chunk [3, 10, 4, 10, 5]]).run
        [.next, .read 0, .drop 0, .next]).1.dispenser.queue = [.chunk [4], .close] := by
  obtain ⟨splitter, hsplitter, hrun⟩ := onDemand_run (show ([10] : Bytes) ≠ [] by decide)
  refine ⟨by decide, splitter, hsplitter, hrun _ _, ?_, ?_⟩ <;> cases hsplitter
  · rfl
  · decide

end Distribution

end Switchboard
