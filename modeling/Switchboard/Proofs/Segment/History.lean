import Switchboard.Segment.Distribution
set_option autoImplicit false

/-! # Histories of a distribution

The history of a run lists what was demanded, each demand with how it was served. What is said about
a distribution is said of its histories: which segments were handed out, which chunks the holder of
each was given, and when a segment was finished. -/

namespace Switchboard

/-! ## Demands and services -/

/-- The handle whose holder asks for more. -/
def Demand.reads? : Demand → Option Nat
  | .read handle => some handle
  | _ => none

/-- The handle whose holder gives its segment up. -/
def Demand.givesUp? : Demand → Option Nat
  | .measure handle => some handle
  | .skim handle _ => some handle
  | .drop handle => some handle
  | _ => none

/-- The chunk that the holder of a segment is given. -/
def Service.chunk? : Service → Option Bytes
  | .chunk (.chunk bytes) => some bytes
  | .frame (.frame (.data bytes)) => some bytes
  | _ => none

/-- The holder of a segment is told that it has ended. -/
def Service.tellsEnd : Service → Bool
  | .chunk .ended => true
  | .frame .ended => true
  | _ => false

/-- Whoever makes the demand is not there any more. -/
def Service.isGone : Service → Bool
  | .gone => true
  | _ => false

/-- The segment that the outer side is given. -/
def Service.segment? : Service → Option Segment
  | .outer (.segment s) => some s
  | _ => none

/-- Somebody is told that the source has failed. -/
def Service.tellsFailure : Service → Bool
  | .outer (.failed _) => true
  | .chunk (.failed _) => true
  | .frame (.failed _) => true
  | .measured (.failed _) => true
  | .skimmed (.error _) => true
  | _ => false

/-! ## Histories -/

namespace Distribution

/-- What was demanded so far, each with how it was served. -/
abbrev History := List (Demand × Service)

/-- The history of a run. -/
def history (d : Distribution) (demands : List Demand) : History := demands.zip (d.run demands).2

/-- What the source was given. -/
def suppliedIn (demands : List Demand) : List Supply :=
  demands.filterMap fun | .supply item => some item | _ => none

/-- The segments that were handed out. -/
def handedOut (history : History) : List Segment := history.filterMap fun event => event.2.segment?

/-- The chunks that the holder of a segment was given. -/
def chunksOf (handle : Nat) (history : History) : List Bytes :=
  history.filterMap fun event => if event.1.reads? = some handle then event.2.chunk? else none

/-- The holder of a segment was told that it has ended. -/
def ToldEnd (handle : Nat) (history : History) : Prop :=
  ∃ event ∈ history, event.1.reads? = some handle ∧ event.2.tellsEnd = true

/-- The holder of a segment gave it up, by dropping it or by an operation that uses it up. -/
def GaveUp (handle : Nat) (history : History) : Prop :=
  ∃ event ∈ history, event.1.givesUp? = some handle ∧ event.2.isGone = false

/-- Nobody reads a segment any more: its end was told, or it was given up. -/
def Finished (handle : Nat) (history : History) : Prop :=
  ToldEnd handle history ∨ GaveUp handle history

/-- A segment has delivered a content when its holder is told that it has ended. -/
def Delivers (handle : Nat) (content : Bytes) (history : History) : Prop :=
  ∃ before service after, history = before ++ (.read handle, service) :: after ∧
    service.tellsEnd = true ∧ (chunksOf handle before).flatten = content

theorem suppliedIn_append (first next : List Demand) :
    suppliedIn (first ++ next) = suppliedIn first ++ suppliedIn next := List.filterMap_append

theorem handedOut_append (first next : History) :
    handedOut (first ++ next) = handedOut first ++ handedOut next := List.filterMap_append

theorem chunksOf_append (handle : Nat) (first next : History) :
    chunksOf handle (first ++ next) = chunksOf handle first ++ chunksOf handle next :=
  List.filterMap_append

theorem ToldEnd.append {handle : Nat} {first : History} (h : ToldEnd handle first)
    (next : History) : ToldEnd handle (first ++ next) := by
  obtain ⟨event, hevent, h⟩ := h
  exact ⟨event, List.mem_append_left _ hevent, h⟩

theorem GaveUp.append {handle : Nat} {first : History} (h : GaveUp handle first)
    (next : History) : GaveUp handle (first ++ next) := by
  obtain ⟨event, hevent, h⟩ := h
  exact ⟨event, List.mem_append_left _ hevent, h⟩

theorem Finished.append {handle : Nat} {first : History} (h : Finished handle first)
    (next : History) : Finished handle (first ++ next) :=
  h.imp (·.append next) (·.append next)

theorem ToldEnd.delivers {handle : Nat} {history : History} (h : ToldEnd handle history) :
    ∃ content, Delivers handle content history := by
  obtain ⟨⟨demand, service⟩, hevent, hreads, hend⟩ := h
  obtain ⟨before, after, rfl⟩ := List.append_of_mem hevent
  cases demand with
  | read other =>
    obtain rfl := Option.some.inj hreads
    exact ⟨_, before, service, after, rfl, hend, rfl⟩
  | _ => cases hreads

theorem length_run (d : Distribution) (demands : List Demand) :
    (d.run demands).2.length = demands.length := by
  induction demands generalizing d with
  | nil => rfl
  | cons demand rest ih => exact congrArg (· + 1) (ih _)

theorem history_cons (d : Distribution) (demand : Demand) (rest : List Demand) :
    d.history (demand :: rest) =
      (demand, (d.serve demand).2) :: (d.serve demand).1.history rest := rfl

theorem map_fst_history (d : Distribution) (demands : List Demand) :
    (d.history demands).map Prod.fst = demands :=
  List.map_fst_zip (Nat.le_of_eq (length_run d demands).symm)

/-- Any moment of a run: the run up to it, and the one that begins there. -/
theorem history_split {d : Distribution} {demands : List Demand} {before after : History}
    (h : d.history demands = before ++ after) :
    ∃ first next, demands = first ++ next ∧ d.history first = before ∧
      (d.run first).1.history next = after := by
  induction before generalizing d demands with
  | nil => exact ⟨[], demands, rfl, rfl, h⟩
  | cons event before ih =>
    cases demands with
    | nil => cases h
    | cons demand rest =>
      rw [history_cons, List.cons_append, List.cons.injEq] at h
      obtain ⟨hevent, hrest⟩ := h
      obtain ⟨first, next, hdemands, hbefore, hafter⟩ := ih hrest
      refine ⟨demand :: first, next, by rw [hdemands, List.cons_append], ?_, hafter⟩
      rw [history_cons, hevent, hbefore]

/-- The moment of one event of a run. -/
theorem history_split_at {d : Distribution} {demands : List Demand} {before after : History}
    {demand : Demand} {service : Service}
    (h : d.history demands = before ++ (demand, service) :: after) :
    ∃ first next, demands = first ++ demand :: next ∧ d.history first = before ∧
      ((d.run first).1.serve demand).2 = service ∧
      ((d.run first).1.serve demand).1.history next = after := by
  obtain ⟨first, next, hdemands, hbefore, hafter⟩ := history_split h
  cases next with
  | nil => cases hafter
  | cons demand next =>
    rw [history_cons, List.cons.injEq, Prod.mk.injEq] at hafter
    obtain ⟨⟨rfl, rfl⟩, hafter⟩ := hafter
    exact ⟨first, next, hdemands, hbefore, rfl, hafter⟩

theorem run_append (d : Distribution) (first next : List Demand) :
    (d.run (first ++ next)).1 = ((d.run first).1.run next).1 := by
  induction first generalizing d with
  | nil => rfl
  | cons demand first ih => exact ih _

end Distribution

end Switchboard
