import Switchboard.Proofs.Body.Reading
import Switchboard.Proofs.Body.Stopping
set_option autoImplicit false

/-! # The ways of consuming a body agree

A body that gives certain frames and errors, is never pending and ends (`Body.Gives`) is consumed in
several ways: chunk by chunk, for its content, for its size, or by skimming it. What each of them
comes to is told by these frames alone (`Body.ConsumedAs`), and so they agree. -/

namespace Switchboard

/-! ## What is skimmed -/

namespace Body

section

variable {σ : Type} {poll : σ → Polled × σ} {limit : Nat} {producer rest : σ}
  {result : Except BodyError Nat}

/-- A frame adds its data to what skimming the rest comes to. -/
theorem Skims.of_frame (hlimit : 0 < limit) (hframe : (poll producer).1.IsFrame)
    (h : Skims poll (limit - (poll producer).1.size) (poll producer).2 result rest) :
    Skims poll limit producer (result.map ((poll producer).1.size + ·)) rest := by
  obtain ⟨polls, hleast, rfl, rfl⟩ := h
  exact ⟨polls + 1, (isLeast_succ hlimit hframe).mpr hleast, (resultAfter_succ hframe).symm, rfl⟩

/-- A poll that gives no frame is the only one. -/
theorem Skims.of_last (hlimit : 0 < limit) (hframe : ¬ (poll producer).1.IsFrame) :
    Skims poll limit producer (resultAfter poll producer 1) (poll producer).2 :=
  ⟨1, isLeast_one hlimit hframe, rfl, rfl⟩

end

end Body

namespace ReadsTo

section

variable {received : List Received} {polls : Nat} {data : Bytes} {failure : Option BodyError}

/-- **Skimming beyond the data** reads up to the first error. -/
theorem skims {σ : Type} {poll : σ → Polled × σ} {limit : Nat} {producer : σ}
    (h : ReadsTo received polls data failure)
    (hplays : Plays poll .ended producer (received.map Received.polled))
    (hlimit : data.length < limit) :
    Body.Skims poll limit producer (outcome failure data.length)
      (Body.after poll polls producer) := by
  induction h using ReadsTo.induction generalizing producer limit with
  | ended =>
    have hended : (poll producer).1 = .ended := hplays
    have hlast : Body.resultAfter poll producer 1 = .ok 0 := by
      simp only [Body.resultAfter, Body.after, Body.given, hended, Polled.size]
    rw [outcome, List.length_nil, ← hlast]
    exact .of_last hlimit (by rw [hended]; exact id)
  | fails e unread =>
    have hfailed : (poll producer).1 = .failed e := hplays.1
    have hlast : Body.resultAfter poll producer 1 = .error e := by
      simp only [Body.resultAfter, Body.after, hfailed]
    rw [outcome, ← hlast]
    exact .of_last (Nat.zero_lt_of_lt hlimit) (by rw [hfailed]; exact id)
  | frame item received polls data failure hitem h ih =>
    obtain ⟨hpoll, hrest⟩ := hplays
    have hsize : (poll producer).1.size = item.content.length := by
      rw [hpoll, item.size_polled]
    rw [List.length_append] at hlimit
    have hresult : outcome failure (item.content ++ data).length =
        (outcome failure data.length).map ((poll producer).1.size + ·) := by
      rw [hsize, List.length_append]
      cases failure <;> rfl
    rw [hresult]
    refine .of_frame (Nat.zero_lt_of_lt hlimit) ?_ (ih hrest ?_)
    · rw [hpoll]
      exact Received.isFrame_polled.mpr hitem
    · omega

end

end ReadsTo

/-! ## The chunks -/

/-- What is done with the value makes no difference to what happens before. -/
theorem Work.poll_map {α β : Type} {opened : List String} {work : Work α} {f : α → β}
    {notes : List Note} {value : α} (h : work.poll opened = (notes, .finished value)) :
    (work.map f).poll opened = (notes, .finished (f value)) := by
  induction work generalizing notes with
  | done a =>
    cases h
    rfl
  | panics message => cases h
  | stalled => cases h
  | note note next ih =>
    cases hnext : next.poll opened with
    | mk later progress =>
      rw [poll, hnext] at h
      cases h
      show Work.poll opened (.note note (next.map f)) = _
      rw [poll, ih hnext]
  | pause pause next ih =>
    cases pause with
    | sleep ms => cases h
    | shared key ms => cases h
    | gate name =>
      rw [poll] at h
      split at h
      · next hopened =>
        show Work.poll opened (.pause (.gate name) (next.map f)) = _
        rw [poll, if_pos hopened, ih h]
      · cases h

/-- Trailers take an item from the feed. -/
theorem Feed.length_lt_of_trailers {opened : List String} {feed : Feed} {items : List Item}
    {headers : Headers} (h : (feed.pollItems opened items).2.1 = .frame (.trailers headers)) :
    (feed.pollItems opened items).2.2.length < items.length := by
  induction items with
  | nil =>
    rw [pollItems] at h
    split at h <;> cases h
  | cons item rest ih =>
    obtain ⟨extra, hpasses⟩ | ⟨note, received, hgives⟩ | hpending :=
      passes_or_gives opened feed item rest
    · rw [hpasses.polls] at h ⊢
      exact Nat.lt_succ_of_lt (ih h)
    · rw [hgives.polls]
      exact Nat.lt_succ_self rest.length
    · rw [hpending] at h
      cases h

namespace Body

section

variable {opened : List String} {body : Body}

theorem itemCount_lt_of_trailers {headers : Headers}
    (h : (body.poll opened).2.1 = .frame (.trailers headers)) :
    (body.poll opened).2.2.itemCount < body.itemCount := by
  cases body with
  | empty => cases h
  | once bytes => cases h
  | stream feed => exact Feed.length_lt_of_trailers h

/-- With room for the items that are left, the bound makes no difference. -/
theorem nextChunkWithin_congr {one other : Nat} (hone : body.itemCount < one)
    (hother : body.itemCount < other) :
    nextChunkWithin opened one body = nextChunkWithin opened other body := by
  induction one generalizing other body with
  | zero => exact absurd hone (Nat.not_lt_zero _)
  | succ one ih =>
    obtain ⟨other, rfl⟩ := Nat.exists_eq_add_one_of_ne_zero (by omega : other ≠ 0)
    have hless (headers : Headers) (h : (body.poll opened).2.1 = .frame (.trailers headers)) :=
      itemCount_lt_of_trailers h
    rw [nextChunkWithin, nextChunkWithin]
    generalize body.poll opened = answer at hless ⊢
    obtain ⟨notes, polled, rest⟩ := answer
    cases polled with
    | frame frame =>
      cases frame with
      | data bytes => rfl
      | trailers headers =>
        -- the trailers took an item, so one less of either bound is still enough
        have hrest : rest.itemCount < body.itemCount := hless headers rfl
        have hsame : nextChunkWithin opened one rest = nextChunkWithin opened other rest :=
          ih (by omega) (by omega)
        simp only [hsame]
    | failed e => rfl
    | pending => rfl
    | ended => rfl

/-- Trailers are skipped. -/
theorem nextChunk_of_trailers {headers : Headers}
    (h : (body.poll opened).2.1 = .frame (.trailers headers)) :
    (body.nextChunk opened).2 = ((body.poll opened).2.2.nextChunk opened).2 := by
  have hless := itemCount_lt_of_trailers h
  have hbound : nextChunkWithin opened body.itemCount (body.poll opened).2.2 =
      nextChunkWithin opened ((body.poll opened).2.2.itemCount + 1) (body.poll opened).2.2 :=
    nextChunkWithin_congr hless (Nat.lt_succ_self _)
  rw [nextChunk, nextChunk, ← hbound, nextChunkWithin]
  generalize body.poll opened = answer at h ⊢
  obtain ⟨notes, polled, rest⟩ := answer
  cases h
  rfl

/-- Data and errors are chunks. -/
theorem nextChunk_of_chunk {item : Received} {chunk : Chunk}
    (h : (body.poll opened).2.1 = item.polled) (hchunk : item.chunk? = some chunk) :
    (body.nextChunk opened).2 = (.chunk chunk, (body.poll opened).2.2) := by
  rw [nextChunk, nextChunkWithin]
  generalize body.poll opened = answer at h ⊢
  obtain ⟨notes, polled, rest⟩ := answer
  cases h
  cases item <;> cases hchunk <;> rfl

theorem nextChunk_of_ended (h : (body.poll opened).2.1 = .ended) :
    (body.nextChunk opened).2 = (.ended, (body.poll opened).2.2) := by
  rw [nextChunk, nextChunkWithin]
  generalize body.poll opened = answer at h ⊢
  obtain ⟨notes, polled, rest⟩ := answer
  cases h
  rfl

/-- **The chunks come one after the other**, and what was asked before makes no difference. -/
theorem plays_nextChunk {received : List Received}
    (h : Plays (fun body => (body.poll opened).2) .ended body (received.map Received.polled)) :
    Plays (fun body => (body.nextChunk opened).2) .ended body
      ((received.filterMap Received.chunk?).map .chunk) := by
  induction received generalizing body with
  | nil => exact congrArg Prod.fst (nextChunk_of_ended h)
  | cons item rest ih =>
    obtain ⟨hpoll, hrest⟩ := h
    have hnext := ih hrest
    cases hchunk : item.chunk? with
    | none =>
      cases item with
      | trailers headers =>
        -- the answer is the one that the rest of the body gives
        rw [List.filterMap_cons_none hchunk]
        exact hnext.congr (nextChunk_of_trailers hpoll)
      | data bytes => cases hchunk
      | error e => cases hchunk
    | some chunk =>
      have hanswer := nextChunk_of_chunk hpoll hchunk
      rw [List.filterMap_cons_some hchunk]
      refine ⟨congrArg Prod.fst hanswer, ?_⟩
      show Plays _ _ (body.nextChunk opened).2.2 _
      rw [hanswer]
      exact hnext

end

end Body

/-! ## What bodies play -/

namespace Body

section

variable {opened : List String}

/-- A feed whose items are given as they are plays them. -/
theorem plays_items (feed : Feed) {received : List Received} {latest : List Note}
    (hends : feed.endless = none)
    (hgives : ∀ item ∈ received, ∀ rest,
      ∃ note, feed.Gives opened item.item rest note item) :
    Plays (Noted.poll opened) .ended
      ⟨latest, .stream { feed with items := received.map Received.item }⟩
      (received.map Received.polled) := by
  induction received generalizing latest with
  | nil =>
    rw [List.map_nil, List.map_nil, Plays, Noted.poll_stream, Feed.pollItems, hends]
  | cons item rest ih =>
    obtain ⟨hitem, hrest⟩ := List.forall_mem_cons.mp hgives
    obtain ⟨note, hnote⟩ := hitem (rest.map Received.item)
    rw [List.map_cons, List.map_cons, Plays, Noted.poll_stream, hnote.polls]
    exact ⟨rfl, ih hrest⟩

theorem gives_ofFrames (label : String) (received : List Received) :
    (ofFrames label received).Gives opened received := by
  refine plays_items ⟨label, false, [], none⟩ rfl fun item _ rest => ?_
  cases item with
  | data bytes => exact ⟨_, rfl, fun _ _ => rfl⟩
  | trailers headers =>
    refine ⟨.produced label 0, rfl, fun visit state => ?_⟩
    rw [Received.item, Feed.readItems]
    rfl
  | error e => exact ⟨_, rfl, fun _ _ => rfl⟩

theorem gives_ofStream {ε : Type} (label : String) (into : ε → BodyError)
    (chunks : List (Except ε Bytes)) :
    (ofStream label into chunks).Gives opened (chunks.map (Received.ofChunk into)) := by
  have hbody : ofStream label into chunks = .stream ⟨label, true,
      (chunks.map (Received.ofChunk into)).map Received.item, none⟩ := by
    rw [ofStream, List.map_map]
    rfl
  rw [hbody]
  refine plays_items ⟨label, true, [], none⟩ rfl ?_
  rw [List.forall_mem_map]
  intro chunk _ rest
  cases chunk with
  | ok bytes => exact ⟨_, rfl, fun _ _ => rfl⟩
  | error e => exact ⟨_, rfl, fun _ _ => rfl⟩

theorem gives_ofBytes (bytes : Bytes) :
    (ofBytes bytes).Gives opened (if bytes = [] then [] else [.data bytes]) := by
  unfold ofBytes
  by_cases hbytes : bytes = []
  · rw [if_pos hbytes, if_pos (List.isEmpty_iff.mpr hbytes)]
    rfl
  · rw [if_neg hbytes, if_neg (mt List.isEmpty_iff.mp hbytes)]
    exact ⟨rfl, rfl⟩

end

end Body

/-! ## Segments -/

/-- The poll that gives a chunk of a segment. -/
def InnerPoll.ofChunk : Except SplitError Bytes → InnerPoll
  | .ok bytes => .chunk bytes
  | .error e => .failed e

/-- What reading a segment to its end came to, as the result of reading a body. -/
def Dispenser.Measured.result? : Measured → Option (Except BodyError Nat)
  | .size bytes => some (.ok bytes)
  | .failed e => some (.error (.split e))
  | .pending => none

namespace Dispenser

/-- One poll of a segment, as a poll of the stream that it is. -/
def pollAsStream (caller : Caller) (state : Dispenser × Segment) :
    InnerPoll × Dispenser × Segment :=
  match state.1.pollSegment caller state.2 with
  | (d, s, answer) => (answer, d, s)

section

variable {d : Dispenser} {s : Segment}

theorem measureWithin_of_ended {bound size : Nat}
    (h : (pollAsBody .nobody (d, s)).1 = .ended) :
    measureWithin (bound + 1) d s size =
      ((pollAsBody .nobody (d, s)).2.1, (pollAsBody .nobody (d, s)).2.2, .size size) := by
  rw [Distribution.pollAsBody_eq] at h ⊢
  rw [measureWithin]
  generalize d.pollSegment .nobody s = result at h ⊢
  obtain ⟨d', s', answer⟩ := result
  cases answer with
  | ended => rfl
  | chunk bytes => cases h
  | failed cause => cases h
  | pending => cases h

theorem measureWithin_of_failed {bound size : Nat} {e : BodyError}
    (h : (pollAsBody .nobody (d, s)).1 = .failed e) :
    ∃ cause, e = .split cause ∧ measureWithin (bound + 1) d s size =
      ((pollAsBody .nobody (d, s)).2.1, (pollAsBody .nobody (d, s)).2.2, .failed cause) := by
  rw [Distribution.pollAsBody_eq] at h ⊢
  rw [measureWithin]
  generalize d.pollSegment .nobody s = result at h ⊢
  obtain ⟨d', s', answer⟩ := result
  cases answer with
  | failed cause =>
    cases h
    exact ⟨cause, rfl, rfl⟩
  | chunk bytes => cases h
  | pending => cases h
  | ended => cases h

theorem measureWithin_of_frame {bound size : Nat}
    (h : (pollAsBody .nobody (d, s)).1.IsFrame) :
    measureWithin (bound + 1) d s size =
      measureWithin bound (pollAsBody .nobody (d, s)).2.1 (pollAsBody .nobody (d, s)).2.2
        (size + (pollAsBody .nobody (d, s)).1.size) := by
  rw [Distribution.pollAsBody_eq] at h ⊢
  rw [measureWithin]
  generalize d.pollSegment .nobody s = result at h ⊢
  obtain ⟨d', s', answer⟩ := result
  cases answer with
  | chunk bytes => rfl
  | failed cause => exact h.elim
  | pending => exact h.elim
  | ended => exact h.elim

/-- The body of a segment plays the frames of its chunks. -/
theorem plays_pollAsBody {caller : Caller} {chunks : List (Except SplitError Bytes)}
    (h : Plays (pollAsStream caller) .ended (d, s) (chunks.map InnerPoll.ofChunk)) :
    Plays (pollAsBody caller) .ended (d, s)
      ((chunks.map (Received.ofChunk .split)).map Received.polled) := by
  have hmapped : (chunks.map (Received.ofChunk .split)).map Received.polled =
      (chunks.map InnerPoll.ofChunk).map Distribution.polledAs := by
    rw [List.map_map, List.map_map]
    refine List.map_congr_left fun chunk _ => ?_
    cases chunk <;> rfl
  rw [hmapped]
  refine h.map Distribution.polledAs (· = ·) ?_ rfl
  rintro state _ rfl
  rw [Distribution.pollAsBody_eq caller state.1 state.2]
  exact ⟨rfl, rfl⟩

end

end Dispenser

namespace ReadsTo

section

variable {received : List Received} {polls : Nat} {data : Bytes} {failure : Option BodyError}
  {d : Dispenser} {s : Segment}

/-- With fuel for all chunks that the segment may have, it is read up to the first error. -/
theorem measureWithin (size : Nat) {bound : Nat} (h : ReadsTo received polls data failure)
    (hplays : Plays (Dispenser.pollAsBody .nobody) .ended (d, s) (received.map Received.polled))
    (hbound : d.chunkBound < bound) :
    ∃ measured, Dispenser.measureWithin bound d s size =
        ((Body.after (Dispenser.pollAsBody .nobody) polls (d, s)).1,
          (Body.after (Dispenser.pollAsBody .nobody) polls (d, s)).2, measured) ∧
      measured.result? = some (outcome failure (size + data.length)) := by
  induction h using ReadsTo.induction generalizing d s size bound with
  | ended =>
    obtain ⟨bound, rfl⟩ := Nat.exists_eq_add_one_of_ne_zero (by omega : bound ≠ 0)
    exact ⟨.size size, Dispenser.measureWithin_of_ended hplays, rfl⟩
  | fails e unread =>
    obtain ⟨bound, rfl⟩ := Nat.exists_eq_add_one_of_ne_zero (by omega : bound ≠ 0)
    obtain ⟨cause, rfl, hmeasure⟩ := Dispenser.measureWithin_of_failed hplays.1
    exact ⟨.failed cause, hmeasure, rfl⟩
  | frame item received polls data failure hitem h ih =>
    obtain ⟨bound, rfl⟩ := Nat.exists_eq_add_one_of_ne_zero (by omega : bound ≠ 0)
    obtain ⟨hpoll, hrest⟩ := hplays
    have hframe : (Dispenser.pollAsBody .nobody (d, s)).1.IsFrame := by
      rw [hpoll]
      exact Received.isFrame_polled.mpr hitem
    -- a chunk lowers the bound that the fuel stays above
    have hless : (Dispenser.pollAsBody .nobody (d, s)).2.1.chunkBound < d.chunkBound :=
      Dispenser.chunkBound_pollAsBody hframe
    obtain ⟨measured, hmeasure, hresult⟩ :=
      ih (size + (Dispenser.pollAsBody .nobody (d, s)).1.size) hrest
        (Nat.lt_of_lt_of_le hless (Nat.le_of_lt_succ hbound))
    rw [Dispenser.measureWithin_of_frame hframe, hmeasure]
    refine ⟨measured, rfl, ?_⟩
    rw [hresult, hpoll, item.size_polled, List.length_append, Nat.add_assoc]

/-- **Measuring a segment** reads up to the first error, and drops it. -/
theorem measureSegment (h : ReadsTo received polls data failure)
    (hplays : Plays (Dispenser.pollAsBody .nobody) .ended (d, s) (received.map Received.polled)) :
    (d.measureSegment s).1 =
        (Body.after (Dispenser.pollAsBody .nobody) polls (d, s)).1.dropSegment
          (Body.after (Dispenser.pollAsBody .nobody) polls (d, s)).2 ∧
      (d.measureSegment s).2.result? = some (outcome failure data.length) := by
  obtain ⟨measured, hmeasure, hresult⟩ := h.measureWithin 0 hplays
    (Nat.lt_succ_self d.chunkBound)
  rw [Nat.zero_add] at hresult
  rw [Dispenser.measureSegment, hmeasure]
  exact ⟨rfl, hresult⟩

/-- **Skimming a segment** beyond its data does the same. -/
theorem skimSegment {limit : Nat} (h : ReadsTo received polls data failure)
    (hplays : Plays (Dispenser.pollAsBody .nobody) .ended (d, s) (received.map Received.polled))
    (hlimit : data.length < limit) :
    d.skimSegment s limit =
      ((Body.after (Dispenser.pollAsBody .nobody) polls (d, s)).1.dropSegment
          (Body.after (Dispenser.pollAsBody .nobody) polls (d, s)).2,
        outcome failure data.length) := by
  obtain ⟨result, state, hskims, hskim⟩ := d.exists_skims s limit
  obtain ⟨rfl, rfl⟩ := hskims.unique (h.skims hplays hlimit)
  exact hskim

end

end ReadsTo

/-! ## Agreement -/

namespace Body

section

variable {opened : List String} {body : Body} {received : List Received}

/-- **What each way of consuming a body comes to** if these frames and errors are what it gives. -/
structure ConsumedAs (opened : List String) (body : Body) (received : List Received) : Prop where
  /-- Asked for one chunk after the other, it gives the data and the errors in their order. -/
  nextChunk : Plays (fun body => (body.nextChunk opened).2) .ended body
    ((received.filterMap Received.chunk?).map .chunk)
  /-- All chunks at once are the same, and everything is read. -/
  chunks : body.chunks.poll opened =
    ((after (Noted.poll opened) (received.length + 1) ⟨[], body⟩).notes,
      .finished (received.filterMap Received.chunk?))
  /-- The content is the data, or the first error, and nothing is read after that. -/
  content : ∀ polls data failure, ReadsTo received polls data failure →
    body.content.poll opened = ((after (Noted.poll opened) polls ⟨[], body⟩).notes,
      .finished (outcome failure data))
  /-- The size is that of the data, or the first error, and nothing is read after that. -/
  size : ∀ polls data failure, ReadsTo received polls data failure →
    body.size.poll opened = ((after (Noted.poll opened) polls ⟨[], body⟩).notes,
      .finished (outcome failure data.length))
  /-- Skimming beyond the data comes to the same, and nothing is read after that. -/
  skim : ∀ polls data failure, ReadsTo received polls data failure → ∀ limit > data.length,
    body.skim opened limit =
      some (outcome failure data.length, after (Noted.poll opened) polls ⟨[], body⟩)

theorem Gives.consumedAs (h : body.Gives opened received) : body.ConsumedAs opened received where
  nextChunk := by
    have hquiet : Plays (fun body => (body.poll opened).2) .ended body
        ((received.map Received.polled).map id) :=
      h.map id (fun n body => n.body = body) (by rintro n _ rfl; exact ⟨rfl, rfl⟩) rfl
    rw [List.map_id] at hquiet
    exact plays_nextChunk hquiet
  chunks := Work.poll_map (Noted.read_gather h)
  content polls data failure hreads := hreads.read sums_collect [] h
  size polls data failure hreads := by
    have hsize := hreads.read sums_tally 0 h
    rw [Nat.zero_add] at hsize
    exact hsize
  skim polls data failure hreads limit hlimit := skim_eq_some_iff.mpr (hreads.skims h hlimit)

end

/-- **The ways of consuming a body agree.** Whatever frames and errors a body gives, if it is never
pending and ends, the chunks are its data and its errors; the content, the size and what is skimmed
of it are those of the data up to the first error, or that error, with nothing read after it. A body
in memory gives its content if it has any; a body of frames gives these, and a body of a stream
gives the frames of the chunks. So does the body of a segment, whose size and what is skimmed of it
are told by these frames in the same way. -/
theorem consumers_agree (opened : List String) :
    (∀ (body : Body) (received : List Received), body.Gives opened received →
      body.ConsumedAs opened received) ∧
    (∀ received : List Received, ∃ polls data failure, ReadsTo received polls data failure) ∧
    (∀ bytes, (ofBytes bytes).Gives opened (if bytes = [] then [] else [.data bytes])) ∧
    (∀ (label : String) (received : List Received),
      (ofFrames label received).Gives opened received) ∧
    (∀ (ε : Type) (label : String) (into : ε → BodyError) (chunks : List (Except ε Bytes)),
      (ofStream label into chunks).Gives opened (chunks.map (Received.ofChunk into))) ∧
    ∀ (d : Dispenser) (s : Segment) (chunks : List (Except SplitError Bytes)),
      Plays (Dispenser.pollAsStream .nobody) .ended (d, s) (chunks.map InnerPoll.ofChunk) →
        Plays (Dispenser.pollAsBody .nobody) .ended (d, s)
          ((chunks.map (Received.ofChunk .split)).map Received.polled) ∧
        ∀ polls data failure, ReadsTo (chunks.map (Received.ofChunk .split)) polls data failure →
          ∀ left, left = after (Dispenser.pollAsBody .nobody) polls (d, s) →
            (d.measureSegment s).1 = left.1.dropSegment left.2 ∧
            (d.measureSegment s).2.result? = some (outcome failure data.length) ∧
            ∀ limit > data.length, d.skimSegment s limit =
              (left.1.dropSegment left.2, outcome failure data.length) := by
  refine ⟨fun body received => Gives.consumedAs, ReadsTo.exists_of_list, gives_ofBytes,
    gives_ofFrames, fun ε => gives_ofStream, fun d s chunks h => ?_⟩
  have hplays := Dispenser.plays_pollAsBody h
  refine ⟨hplays, fun polls data failure hreads left hleft => ?_⟩
  subst hleft
  obtain ⟨hdropped, hmeasured⟩ := hreads.measureSegment hplays
  exact ⟨hdropped, hmeasured, fun limit hlimit => hreads.skimSegment hplays hlimit⟩

/-- A body that fails after three bytes and then goes on: everything that reads up to the first
error asks four times, and is not told of the byte that follows. A segment that ends after two bytes
is measured by them. -/
theorem consumers_agree_failing :
    let received : List Received :=
      [.data [1, 2], .trailers .empty, .data [3], .error (.io "reset"), .data [4]]
    let body := ofFrames "body" received
    let read := after (Noted.poll []) 4 ⟨[], body⟩
    read.notes = [.produced "body" 2, .produced "body" 0, .produced "body" 1, .produced "body" 0] ∧
    body.content.poll [] = (read.notes, .finished (.error (.io "reset"))) ∧
    body.size.poll [] = (read.notes, .finished (.error (.io "reset"))) ∧
    body.skim [] 4 = some (.error (.io "reset"), read) ∧
    (body.chunks.poll []).2 =
      .finished [.ok [1, 2], .ok [3], .error (.io "reset"), .ok [4]] ∧
    ((Dispenser.ofSplitter ⟨[0], .ofCapacity 1, #[]⟩ [.chunk [1, 2], .done]).measureSegment
      ⟨0, false⟩).2.result? = some (.ok 2) := by
  intro received body read
  obtain ⟨hagree, -, -, hframes, -, hsegment⟩ := consumers_agree []
  have hconsumed := hagree body received (hframes "body" received)
  have hreads : ReadsTo received 4 [1, 2, 3] (some (.io "reset")) :=
    .fails [.data [1, 2], .trailers .empty, .data [3]] (by simp [Received.IsFrame]) _ _
  have hplays : Plays (Dispenser.pollAsStream .nobody) .ended
      (Dispenser.ofSplitter ⟨[0], .ofCapacity 1, #[]⟩ [.chunk [1, 2], .done], ⟨0, false⟩)
      ([.ok [1], .ok [2]].map InnerPoll.ofChunk) := ⟨rfl, rfl, rfl⟩
  obtain ⟨-, hmeasures⟩ := hsegment _ _ _ hplays
  have hwhole : ReadsTo [.data [1], .data [2]] 3 [1, 2] none :=
    .whole [.data [1], .data [2]] (by simp [Received.IsFrame])
  exact ⟨rfl, hconsumed.content _ _ _ hreads, hconsumed.size _ _ _ hreads,
    hconsumed.skim _ _ _ hreads 4 (by decide), congrArg Prod.snd hconsumed.chunks,
    (hmeasures _ _ _ hwhole _ rfl).2.1⟩

end Body

end Switchboard
