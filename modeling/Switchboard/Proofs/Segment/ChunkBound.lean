import Switchboard.Proofs.Body.Skimming
import Switchboard.Proofs.Segment.Asking
set_option autoImplicit false

/-! # How many chunks a segment still has

A dispenser has no more chunks to give than `Dispenser.chunkBound` counts, in the queue and for what
its source holds: a chunk that is given lowers the count (`chunkBound_pollSegment`), and what is
taken in from the source queues no more than it counted for (`chunkBound_absorb`). So the reading of
a segment to its end, or up to a limit, is never cut short by that count. -/

namespace Switchboard

/-! ## What comes of a chunk of the input -/

namespace Window

theorem capacity_push (w : Window) (byte : UInt8) : (w.push byte).1.capacity = w.capacity := by
  unfold push
  split <;> simp only [capacity, Array.size_setIfInBounds]

end Window

namespace Splitter

theorem capacity_pushByte (s : Splitter) (byte : UInt8) :
    (s.pushByte byte).1.window.capacity = s.window.capacity := by
  rw [pushByte_eq]
  split
  · exact Window.capacity_push s.window byte
  · exact Window.capacity_push s.window byte

theorem capacity_pushBytes (s : Splitter) (chunk : Bytes) :
    (s.pushBytes chunk).1.window.capacity = s.window.capacity := by
  induction chunk generalizing s with
  | nil => rfl
  | cons byte chunk ih =>
    rw [pushBytes_cons]
    exact (ih _).trans (s.capacity_pushByte byte)

/-- A byte ends at most one segment. -/
theorem size_pushBytes_le (s : Splitter) (chunk : Bytes) :
    (s.pushBytes chunk).2.size ≤ chunk.length := by
  induction chunk generalizing s with
  | nil => exact Nat.le_refl 0
  | cons byte chunk ih =>
    have hrest := ih (s.pushByte byte).1
    rw [pushBytes_cons, Array.size_append, List.length_cons]
    cases (s.pushByte byte).2 with
    | none => simpa using Nat.le_succ_of_le hrest
    | some piece =>
      have hpiece : (some piece).toList.toArray.size = 1 := rfl
      omega

theorem capacity_flush (s : Splitter) : s.flush.1.window.capacity = s.window.capacity := by
  unfold flush
  split <;> rfl

theorem length_flush_le (s : Splitter) : s.flush.2.length ≤ 1 := by
  unfold flush
  split <;> simp

theorem capacity_push (s : Splitter) (chunk : Bytes) :
    (s.push chunk).1.window.capacity = s.window.capacity :=
  (capacity_flush _).trans (s.capacity_pushBytes chunk)

theorem length_push_le (s : Splitter) (chunk : Bytes) :
    (s.push chunk).2.length ≤ chunk.length + 1 := by
  have hbytes := s.size_pushBytes_le chunk
  have hflush := (s.pushBytes chunk).1.length_flush_le
  simp only [push, List.length_append, Array.length_toList]
  omega

end Splitter

/-- A piece is queued as its content, if it has any, and its end. -/
theorem length_entriesOf_le (pieces : List Piece) :
    (entriesOf pieces).length ≤ 2 * pieces.length := by
  induction pieces with
  | nil => exact Nat.le_refl 0
  | cons piece rest ih =>
    have hpiece : ((if piece.bytes.isEmpty then [] else [Entry.chunk piece.bytes]) ++
        if piece.last then [Entry.close] else []).length ≤ 2 := by
      split <;> split <;> simp
    simp only [entriesOf, List.flatMap_cons, List.length_append, List.length_cons] at hpiece ih ⊢
    omega

/-! ## The bound -/

/-- How many entries the queue gets for the most from what a source gives. -/
def Supply.weight : Supply → Nat
  | .chunk bytes => 2 * bytes.length + 2
  | .failure _ => 2
  | .done => 2

/-- The same for all that it gives. -/
def Supply.weights : List Supply → Nat
  | [] => 0
  | item :: rest => item.weight + weights rest

namespace Dispenser

section

variable {d d' : Dispenser}

theorem chunkBound_eq (d : Dispenser) : d.chunkBound =
    d.queue.length + d.splitter.window.capacity + 2 + Supply.weights d.source.queue := by
  unfold chunkBound
  generalize d.queue.length + d.splitter.window.capacity + 2 = start
  induction d.source.queue generalizing start with
  | nil => rfl
  | cons item rest ih =>
    rw [List.foldl_cons, ih, Supply.weights]
    cases item <;> simp only [Supply.weight] <;> omega

/-- Only the splitter, the queue and the source count. -/
theorem chunkBound_congr (hcore : d'.core = d.core) (hsource : d'.source.queue = d.source.queue) :
    d'.chunkBound = d.chunkBound := by
  have hqueue : d'.queue = d.queue := congrArg Core.queue hcore
  have hsplitter : d'.splitter = d.splitter := congrArg Core.splitter hcore
  rw [chunkBound_eq, chunkBound_eq, hqueue, hsplitter, hsource]

/-- What is taken in queues no more than it counted for at the source. -/
theorem chunkBound_absorb (d : Dispenser) (item : Supply) (rest : List Supply) :
    ((d.absorb item).leaving rest).chunkBound ≤ (d.leaving (item :: rest)).chunkBound := by
  rw [chunkBound_eq, chunkBound_eq]
  cases item with
  | chunk bytes =>
    have hcapacity := d.splitter.capacity_push bytes
    have hentries := length_entriesOf_le (d.splitter.push bytes).2
    have hpieces := d.splitter.length_push_le bytes
    simp only [leaving, absorb, List.length_append, Supply.weights, Supply.weight]
    omega
  | failure cause =>
    simp only [leaving, absorb, Splitter.giveUp, Window.clear, Window.capacity, Supply.weights,
      Supply.weight]
    omega
  | done =>
    have hentries := length_entriesOf_le d.splitter.finish.2
    have hpieces : d.splitter.finish.2.length = 1 := rfl
    have hcapacity : d.splitter.finish.1.window.capacity = d.splitter.window.capacity := rfl
    simp only [leaving, absorb, List.length_append, Supply.weights, Supply.weight]
    omega

/-- A loop of the holder that comes to a chunk lowers the bound. -/
theorem chunkBound_of_loops {items : List Supply} {asks : List Ask} {bytes : Bytes} {done : Bool}
    (h : Loops innerTurn wakeOuter (.pending, false) d items asks d' (.chunk bytes, done)) :
    d'.chunkBound < (d.leaving items).chunkBound := by
  generalize hanswer : (InnerPoll.chunk bytes, done) = answer at h
  induction h with
  | @answers d d' items answer hturn =>
    have hturns := d.innerTurns_innerTurn
    rw [hturn] at hturns
    cases hturns with
    | chunk hqueue =>
      rw [chunkBound_eq, chunkBound_eq]
      simp only [leaving, hqueue, List.length_cons]
      omega
    | closes => cases hanswer
    | fails => cases hanswer
    | stops => cases hanswer
  | waits => cases hanswer
  | @absorbs d d' d'' item rest asks answer hturn _ ih =>
    have hturns := d.innerTurns_innerTurn
    rw [hturn] at hturns
    cases hturns with
    | reads =>
      have habsorbed : ((d.absorb item).wakeOuter.leaving rest).chunkBound =
          ((d.absorb item).leaving rest).chunkBound :=
        chunkBound_congr (core_wakeOuter (d.absorb item)) rfl
      exact Nat.lt_of_lt_of_le (ih hanswer) (habsorbed ▸ d.chunkBound_absorb item rest)

/-- **A chunk that is given lowers the bound.** -/
theorem chunkBound_pollSegment {caller : Caller} {s : Segment} {bytes : Bytes}
    (h : (d.pollSegment caller s).2.2 = .chunk bytes) :
    (d.pollSegment caller s).1.chunkBound < d.chunkBound := by
  unfold pollSegment at h ⊢
  split at h
  · cases h
  · next hdone =>
    rw [if_neg hdone]
    simp only at h ⊢
    split at h
    · cases h
    · next hopen =>
      rw [if_neg hopen]
      have hloops := loops_innerLoop { d with innerWaiter := some caller } d.source.queue
      generalize { d with innerWaiter := some caller }.innerLoop d.source.queue = result at h hloops
      obtain ⟨d', answer, done⟩ := result
      cases h
      have hbound := chunkBound_of_loops hloops
      exact hbound

/-- So does a frame of the body that is made from a segment. -/
theorem chunkBound_pollAsBody {caller : Caller} {state : Dispenser × Segment}
    (h : (pollAsBody caller state).1.IsFrame) :
    (pollAsBody caller state).2.1.chunkBound < state.1.chunkBound := by
  obtain ⟨d, s⟩ := state
  rw [Distribution.pollAsBody_eq] at h ⊢
  cases hpoll : (d.pollSegment caller s).2.2 with
  | chunk bytes => exact chunkBound_pollSegment hpoll
  | failed error => rw [hpoll] at h; exact h.elim
  | pending => rw [hpoll] at h; exact h.elim
  | ended => rw [hpoll] at h; exact h.elim

end

end Dispenser

end Switchboard
