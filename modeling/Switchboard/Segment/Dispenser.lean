import Switchboard.Body.Consume
import Switchboard.Segment.Splitter
set_option autoImplicit false

/-! # Handing out segments

A dispenser reads chunks from a source, splits them, and hands out one segment after the other.
Two sides ask it for more: the outer side for the next segment, and whoever holds the open segment
for its next chunk. Either side reads the source when it finds nothing queued, and each wakes the
other when it changed something that the other may be waiting for. Nothing is read ahead: the
source is asked only while a segment is open and its queue is empty.

Every operation is a pure function of the dispenser. `Distribution` puts them together to runs.

A dispenser is the state that a `SplitStream` shares with its `Segment`s. -/

namespace Switchboard

/-! ## The source -/

/-- What a source gives. -/
inductive Supply where
  | chunk (bytes : Bytes)
  | failure (cause : Fault)
  | done

/-- A source that is filled from outside. -/
structure Source where
  queue : List Supply
  /-- How often it was asked. -/
  polls : Nat
  /-- It was asked when it had nothing, and will wake the dispenser when it has something. -/
  parked : Bool

/-! ## The dispenser -/

/-- Who asked, and is woken when asking again makes sense. -/
inductive Caller where
  | outer
  | inner (handle : Nat)
  /-- Somebody who does not come back. -/
  | nobody
  deriving Repr, DecidableEq

/-- The caller, unless it does not come back. -/
def Caller.returning : Caller → List Caller
  | .nobody => []
  | caller => [caller]

/-- What is queued for the open segment and those after it. -/
inductive Entry where
  | chunk (bytes : Bytes)
  | close
  deriving Repr, DecidableEq

/-- A segment as it is held by whoever reads it. -/
structure Segment where
  index : Nat
  done : Bool
  deriving Repr, DecidableEq

/-- A dispenser of segments. -/
structure Dispenser where
  splitter : Splitter
  source : Source
  /-- The source has neither ended nor failed. -/
  connected : Bool
  queue : List Entry
  /-- The source has ended. -/
  drained : Bool
  /-- The source has failed. -/
  failure : Option SplitError
  /-- The outer side has been told about the failure. -/
  failureTold : Bool
  /-- How many segments were handed out. -/
  issued : Nat
  /-- How many of them have ended. -/
  ended : Nat
  /-- The open segment was dropped, what is left of it is thrown away. -/
  orphaned : Bool
  outerWaiter : Option Caller
  innerWaiter : Option Caller
  /-- Everybody who was woken and comes back, in order. -/
  woken : List Caller

/-- What asking for a segment gives. -/
inductive OuterPoll where
  | segment (segment : Segment)
  | failed (error : SplitError)
  | pending
  | ended

/-- What asking a segment for a chunk gives. -/
inductive InnerPoll where
  | chunk (bytes : Bytes)
  | failed (error : SplitError)
  | pending
  | ended

/-- The diagnostic text of a segment. -/
def Segment.debug (s : Segment) : String :=
  "Segment \x7b index: " ++ toString s.index ++ ", done: " ++ toString s.done ++ ", .. \x7d"

/-- The queue entries for the pieces of a splitter. -/
def entriesOf (pieces : List Piece) : List Entry :=
  pieces.flatMap fun piece =>
    (if piece.bytes.isEmpty then [] else [.chunk piece.bytes]) ++
      if piece.last then [.close] else []

namespace Dispenser

/-- A dispenser that nobody has asked yet. -/
def ofSplitter (splitter : Splitter) (queue : List Supply) : Dispenser where
  splitter := splitter
  source := ⟨queue, 0, false⟩
  connected := true
  queue := []
  drained := false
  failure := none
  failureTold := false
  issued := 0
  ended := 0
  orphaned := false
  outerWaiter := none
  innerWaiter := none
  woken := []

/-- The diagnostic text of a dispenser. -/
def debug (d : Dispenser) : String :=
  "SplitStream \x7b handed_out: " ++ toString d.issued ++ ", closed: " ++ toString d.ended ++
    ", finished: " ++ toString d.drained ++ ", .. \x7d"

/-! ## Waking -/

/-- Wakes whoever waits for a segment. -/
def wakeOuter (d : Dispenser) : Dispenser :=
  match d.outerWaiter with
  | some caller => { d with outerWaiter := none, woken := d.woken ++ caller.returning }
  | none => d

/-- Wakes whoever waits for a chunk. -/
def wakeInner (d : Dispenser) : Dispenser :=
  match d.innerWaiter with
  | some caller => { d with innerWaiter := none, woken := d.woken ++ caller.returning }
  | none => d

/-- The source gets something to give. If it was asked before, both sides are woken. -/
def supply (d : Dispenser) (item : Supply) : Dispenser :=
  let filled := { d with source := { d.source with queue := d.source.queue ++ [item] } }
  if d.source.parked then
    ({ filled with source := { filled.source with parked := false } }.wakeOuter).wakeInner
  else filled

/-! ## Reading the source -/

/-- Takes in what the source gave. -/
def absorb (d : Dispenser) (item : Supply) : Dispenser :=
  let d := { d with source := { d.source with polls := d.source.polls + 1 } }
  match item with
  | .chunk bytes =>
    let (splitter, pieces) := d.splitter.push bytes
    { d with splitter := splitter, queue := d.queue ++ entriesOf pieces }
  | .failure cause =>
    { d with splitter := d.splitter.giveUp, connected := false, failure := some (.source cause) }
  | .done =>
    let (splitter, pieces) := d.splitter.finish
    { d with splitter := splitter, queue := d.queue ++ entriesOf pieces, connected := false,
             drained := true }

/-- The source had nothing to give. -/
def park (d : Dispenser) : Dispenser :=
  { d with source := ⟨[], d.source.polls + 1, true⟩ }

/-- Throws away what is queued of a segment that nobody holds; when its end is among it, the segment
has ended. -/
def skipOrphan (d : Dispenser) : Dispenser :=
  match d.queue.dropWhile (· != .close) with
  | _ :: rest => { d with queue := rest, ended := d.ended + 1, orphaned := false }
  | [] => { d with queue := [] }

/-- What one side does next: it has its answer, or it needs more from the source. -/
inductive Turn (α : Type) where
  | answers (dispenser : Dispenser) (answer : α)
  | reads (dispenser : Dispenser)

/-! ## The outer side -/

/-- No segment is open: the next one is handed out, unless the input is used up. -/
def issue (d : Dispenser) : Dispenser × OuterPoll :=
  if d.drained && d.queue.isEmpty then (d, .ended)
  else ({ d with issued := d.issued + 1 }, .segment ⟨d.issued, false⟩)

/-- What the outer side does in the present state. -/
def outerTurn (d : Dispenser) : Turn OuterPoll :=
  match d.failure with
  | some error =>
    if d.failureTold then .answers d .ended
    else .answers { d with failureTold := true } (.failed error)
  | none =>
    let left := if d.issued != d.ended && d.orphaned then d.skipOrphan else d
    if left.issued = left.ended then .answers left.issue.1 left.issue.2
    else if !left.orphaned && !left.queue.isEmpty then .answers left .pending
    else if !left.connected then .answers left .ended
    else .reads left

/-- Goes on until the outer side has its answer. -/
def outerLoop (d : Dispenser) : List Supply → Dispenser × OuterPoll
  | [] =>
    match d.outerTurn with
    | .answers d answer => ({ d with source := { d.source with queue := [] } }, answer)
    | .reads d => (d.park, .pending)
  | item :: rest =>
    match d.outerTurn with
    | .answers d answer => ({ d with source := { d.source with queue := item :: rest } }, answer)
    | .reads d => outerLoop (d.absorb item).wakeInner rest

/-- Asks for the next segment. -/
def pollOuter (d : Dispenser) (caller : Caller) : Dispenser × OuterPoll :=
  { d with outerWaiter := some caller }.outerLoop d.source.queue

/-! ## The open segment -/

/-- What the holder of an unfinished segment does in the present state; the flag says that the
segment has ended. -/
def innerTurn (d : Dispenser) : Turn (InnerPoll × Bool) :=
  match d.queue with
  | .chunk bytes :: rest => .answers { d with queue := rest } (.chunk bytes, false)
  | .close :: rest =>
    .answers { d with queue := rest, ended := d.ended + 1 }.wakeOuter (.ended, true)
  | [] =>
    match d.failure with
    | some error => .answers d.wakeOuter (.failed error, true)
    | none => if d.connected then .reads d else .answers d (.ended, true)

/-- Goes on until the holder of the segment has its answer. -/
def innerLoop (d : Dispenser) : List Supply → Dispenser × InnerPoll × Bool
  | [] =>
    match d.innerTurn with
    | .answers d answer => ({ d with source := { d.source with queue := [] } }, answer)
    | .reads d => (d.park, .pending, false)
  | item :: rest =>
    match d.innerTurn with
    | .answers d answer => ({ d with source := { d.source with queue := item :: rest } }, answer)
    | .reads d => innerLoop (d.absorb item).wakeOuter rest

/-- Asks a segment for its next chunk. -/
def pollSegment (d : Dispenser) (caller : Caller) (s : Segment) :
    Dispenser × Segment × InnerPoll :=
  if s.done then (d, s, .ended)
  else
    let d := { d with innerWaiter := some caller }
    if s.index < d.ended then (d, { s with done := true }, .ended)
    else
      let (d, answer, done) := d.innerLoop d.source.queue
      (d, { s with done := done }, answer)

/-- Drops a segment. If it is still open, what is left of it will be thrown away. -/
def dropSegment (d : Dispenser) (s : Segment) : Dispenser :=
  if s.done then d
  else
    let d :=
      if s.index = d.ended && d.failure.isNone then
        { d with orphaned := true }.skipOrphan
      else d
    d.wakeOuter

/-! ## Reading segments whole -/

/-- A bound of the chunks that can still be read: what is queued, and what the source holds. -/
def chunkBound (d : Dispenser) : Nat :=
  d.source.queue.foldl
    (fun n item => match item with | .chunk bytes => n + 2 * bytes.length + 2 | _ => n + 2)
    (d.queue.length + d.splitter.window.capacity + 2)

/-- How reading a segment to its end came out. -/
inductive Measured where
  | size (bytes : Nat)
  | failed (error : SplitError)
  | pending

/-- Reads a segment until it ends, fails or has to wait. -/
def measureWithin : Nat → Dispenser → Segment → Nat → Dispenser × Segment × Measured
  | 0, d, s, _ => (d, s, .pending)
  | bound + 1, d, s, size =>
    match d.pollSegment .nobody s with
    | (d, s, .chunk bytes) => measureWithin bound d s (size + bytes.length)
    | (d, s, .failed e) => (d, s, .failed e)
    | (d, s, .pending) => (d, s, .pending)
    | (d, s, .ended) => (d, s, .size size)

/-- Reads a segment to its end and drops it. -/
def measureSegment (d : Dispenser) (s : Segment) : Dispenser × Measured :=
  let (d, s, measured) := measureWithin (d.chunkBound + 1) d s 0
  (d.dropSegment s, measured)

/-- One poll of a segment, as a poll of the body made from it. -/
def pollAsBody (caller : Caller) (state : Dispenser × Segment) : Polled × Dispenser × Segment :=
  match state.1.pollSegment caller state.2 with
  | (d, s, .chunk bytes) => (.frame (.data bytes), d, s)
  | (d, s, .failed e) => (.failed (.split e), d, s)
  | (d, s, .pending) => (.pending, d, s)
  | (d, s, .ended) => (.ended, d, s)

/-- Reads a segment without waiting, up to a limit, and drops it. -/
def skimSegment (d : Dispenser) (s : Segment) (limit : Nat) :
    Dispenser × Except BodyError Nat :=
  match Body.skimWithin (pollAsBody .nobody) limit (d.chunkBound + 1) 0 (d, s) with
  | some (result, d, s) => (d.dropSegment s, result)
  | none => (d.dropSegment s, .ok 0)

/-- The chunks of a segment, read to its end. -/
def segmentChunks : Nat → Dispenser → Segment → Dispenser × List Bytes
  | 0, d, _ => (d, [])
  | bound + 1, d, s =>
    match d.pollSegment .nobody s with
    | (d, s, .chunk bytes) =>
      let (d, chunks) := segmentChunks bound d s
      (d, bytes :: chunks)
    | (d, _, _) => (d, [])

/-- The chunks of all segments, each read to its end before the next. The bounds are for the chunks
of one segment and for the segments. -/
def allChunksWithin (chunks : Nat) : Nat → Dispenser → List (List Bytes)
  | 0, _ => []
  | bound + 1, d =>
    match d.pollOuter .nobody with
    | (d, .segment s) =>
      let (d, found) := segmentChunks chunks d s
      found :: allChunksWithin chunks bound d
    | _ => []

/-- The chunks of all segments, each segment read to its end before the next. -/
def allChunks (d : Dispenser) : List (List Bytes) :=
  allChunksWithin (d.chunkBound + 1) (d.chunkBound + 1) d

end Dispenser

end Switchboard
