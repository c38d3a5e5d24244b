import Switchboard.Segment.Dispenser
set_option autoImplicit false

/-! # Runs of a dispenser

A distribution is a dispenser with everybody who holds something of it: the outer side, and the
holders of the segments that it handed out, numbered in that order. A `Demand` is one thing that a
holder or the source does, and `Distribution.serve` does it, so every interleaving of the two sides,
of departures and of the source is a list of demands.

The outer side is a `SplitStream`, and the holders have its `Segment`s. -/

namespace Switchboard

/-- How a segment is held that was handed out. -/
inductive Holding where
  | segment (segment : Segment)
  /-- As the body made from it. -/
  | body (segment : Segment)
  /-- It was dropped, or read by somebody who then dropped it. -/
  | released
  deriving Repr, DecidableEq

/-- A dispenser with everybody who holds something of it. -/
structure Distribution where
  dispenser : Dispenser
  /-- The outer side is still there. -/
  outerHeld : Bool
  handles : List Holding

/-- What is done with a distribution; segments go by the number of their handle. -/
inductive Demand where
  /-- The source gets something to give. -/
  | supply (item : Supply)
  /-- The outer side asks for the next segment. -/
  | next
  /-- The outer side leaves. -/
  | leave
  /-- Asks a segment for its next chunk. -/
  | read (handle : Nat)
  /-- Makes a body from a segment. -/
  | toBody (handle : Nat)
  /-- Reads a segment to its end and drops it. -/
  | measure (handle : Nat)
  /-- Reads a segment without waiting and drops it. -/
  | skim (handle limit : Nat)
  | drop (handle : Nat)

/-- What a demand is answered with. -/
inductive Service where
  | nothing
  /-- Whoever makes the demand is not there any more. -/
  | gone
  | outer (poll : OuterPoll)
  | chunk (poll : InnerPoll)
  | frame (poll : Polled)
  | measured (measured : Dispenser.Measured)
  | skimmed (result : Except BodyError Nat)

/-- The segment that is held. -/
def Holding.segment? : Holding → Option Segment
  | .segment s => some s
  | .body s => some s
  | .released => none

namespace Distribution

/-- A distribution that begins, with what its source holds already. -/
def ofSplitter (splitter : Splitter) (queue : List Supply) : Distribution :=
  ⟨Dispenser.ofSplitter splitter queue, true, []⟩

/-- What a handle holds. -/
def holding (d : Distribution) (handle : Nat) : Holding := (d.handles[handle]?).getD .released

/-- The distribution with another dispenser and another holding under a handle. -/
def update (d : Distribution) (dispenser : Dispenser) (handle : Nat) (holding : Holding) :
    Distribution :=
  { d with dispenser := dispenser, handles := d.handles.set handle holding }

/-- The outer side asks for the next segment, and takes it under the next handle. -/
def next (d : Distribution) : Distribution × Service :=
  if !d.outerHeld then (d, .gone)
  else
    match d.dispenser.pollOuter .outer with
    | (dispenser, .segment s) =>
      ({ d with dispenser := dispenser, handles := d.handles ++ [.segment s] },
        .outer (.segment s))
    | (dispenser, poll) => ({ d with dispenser := dispenser }, .outer poll)

/-- The holder of a segment, or of the body made from it, asks for more. -/
def read (d : Distribution) (handle : Nat) : Distribution × Service :=
  match d.holding handle with
  | .segment s =>
    let (dispenser, s, poll) := d.dispenser.pollSegment (.inner handle) s
    (d.update dispenser handle (.segment s), .chunk poll)
  | .body s =>
    let (polled, dispenser, s) := Dispenser.pollAsBody (.inner handle) (d.dispenser, s)
    (d.update dispenser handle (.body s), .frame polled)
  | .released => (d, .gone)

/-- The holder of a segment gives it up for what an operation gives. -/
def consume (d : Distribution) (handle : Nat) (operation : Segment → Dispenser × Service) :
    Distribution × Service :=
  match (d.holding handle).segment? with
  | some s =>
    let (dispenser, service) := operation s
    (d.update dispenser handle .released, service)
  | none => (d, .gone)

/-- Meets a demand. -/
def serve (d : Distribution) : Demand → Distribution × Service
  | .supply item => ({ d with dispenser := d.dispenser.supply item }, .nothing)
  | .next => d.next
  | .leave => ({ d with outerHeld := false }, .nothing)
  | .read handle => d.read handle
  | .toBody handle =>
    match (d.holding handle).segment? with
    | some s => (d.update d.dispenser handle (.body s), .nothing)
    | none => (d, .gone)
  | .measure handle =>
    d.consume handle fun s =>
      let (dispenser, measured) := d.dispenser.measureSegment s
      (dispenser, .measured measured)
  | .skim handle limit =>
    d.consume handle fun s =>
      let (dispenser, result) := d.dispenser.skimSegment s limit
      (dispenser, .skimmed result)
  | .drop handle => d.consume handle fun s => (d.dispenser.dropSegment s, .nothing)

/-- Meets demands one after the other. -/
def run : Distribution → List Demand → Distribution × List Service
  | d, [] => (d, [])
  | d, demand :: rest =>
    let (d, service) := d.serve demand
    let (d, services) := d.run rest
    (d, service :: services)

end Distribution

end Switchboard
