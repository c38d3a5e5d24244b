import Switchboard.Proofs.Body.Skimming
import Switchboard.Proofs.Delivery.Slots
set_option autoImplicit false

/-! # Calls at a slot

Two kinds of calls happen at a slot: a response is delivered into it, and it is closed with the
result of its backend, by the lane or by the main task. Which of them come, how many and in which
order, is left open here.

A call looks at the mark of its slot, sets it, and reports. Calls on several threads interleave
between these steps, so they are told apart in `SlotMark`. The slot reports once all the same, and
what it reports is up to the call that has set the mark (`SlotMark.hears_once`). Between its mark
and its report the race has heard nothing yet, though another call may be over by then
(`SlotMark.accepts_outlasts_settles`).

A call that is not interrupted is what `Contest.receive` and `Contest.closeSlot` do
(`Contest.heard?_eq_alone`, `Contest.carryOut_eq_alone`). In any order of these the race hears the
first report of each slot, finds that slot empty, and is left alone by everything later
(`Contest.hears_once`).

The calls are `accept` of a `SlotConnection` and `settle` of its `SlotState`, the mark is
`reported`, and the race is their `Aggregator`. -/

namespace Switchboard

/-! ## The steps of calls -/

/-- A call at a slot, as far as it has come. -/
inductive SlotCall where
  /-- A response is about to be delivered: it sets the mark. -/
  | accepts (reply : Reply)
  /-- The slot is about to be closed: it looks at the mark. -/
  | settles (result : Delivery)
  /-- It has found no mark, and is about to set it. -/
  | claims (result : Delivery)
  /-- It has set the mark, and is about to report. -/
  | reports (report : Report)
  /-- Its report is with the race, which lets it know when it is over. -/
  | reported
  /-- It has found the mark, and is about to cancel its response. -/
  | cancels (reply : Reply)
  /-- It has found the mark, and this is how it ends. -/
  | ends (response : Response)

/-- A slot with its mark, the calls at it, and what the race has heard of it. -/
structure SlotMark where
  marked : Bool
  calls : List SlotCall
  heard : List Report

namespace SlotCall

/-- What a call that has not come past the mark would report. -/
def report? : SlotCall → Option Report
  | .accepts reply => some (.ok reply)
  | .settles result => some (.error (Contest.failureOf result))
  | .claims result => some (.error (Contest.failureOf result))
  | _ => none

/-- How a call ends that finds the mark: a response is cancelled, and its delivery succeeds if that
ever ends. -/
def lateResponse : SlotCall → Response
  | .accepts reply => Contest.afterCancelling (HeldReply.cancel [] reply).size.isSome
  | _ => .result (.ok ())

/-- One step of a call, when the slot is marked or not: the mark after it, the call that is left,
and what the race hears. -/
def step (marked : Bool) : SlotCall → Bool × SlotCall × Option Report
  | .accepts reply =>
    if marked then (true, .cancels reply, none) else (true, .reports (.ok reply), none)
  | .settles result =>
    if marked then (true, .ends (.result (.ok ())), none) else (false, .claims result, none)
  | .claims result =>
    if marked then (true, .ends (.result (.ok ())), none)
    else (true, .reports (.error (Contest.failureOf result)), none)
  | .reports report => (marked, .reported, some report)
  | .reported => (marked, .reported, none)
  | .cancels reply =>
    (marked, .ends (Contest.afterCancelling (HeldReply.cancel [] reply).size.isSome), none)
  | .ends response => (marked, .ends response, none)

/-- **What has become of a call** before one has set the mark: it may have looked. -/
inductive Looks : SlotCall → SlotCall → Prop where
  | still {call : SlotCall} (h : call.report? ≠ none) : Looks call call
  | looked (result : Delivery) : Looks (.settles result) (.claims result)

/-- **What has become of a call** that is not the one to set the mark: it has not come to the mark
yet, or it has found it. -/
inductive Yields : SlotCall → SlotCall → Prop where
  | looks {call now : SlotCall} (h : call.Looks now) : Yields call now
  | cancels (reply : Reply) : Yields (.accepts reply) (.cancels reply)
  | ends (call : SlotCall) : Yields call (.ends call.lateResponse)

theorem Looks.report?_ne_none {call now : SlotCall} (h : call.Looks now) : now.report? ≠ none := by
  cases h with
  | still h => exact h
  | looked result => exact Option.some_ne_none _

/-- The call that sets the mark reports what it had to report from the start. -/
theorem Looks.report?_eq {call now : SlotCall} (h : call.Looks now) :
    call.report? = now.report? := by
  cases h <;> rfl

/-- **A call that finds the mark** leaves the race alone. -/
theorem Yields.step {call now : SlotCall} (h : call.Yields now) :
    ∃ next, now.step true = (true, next, none) ∧ call.Yields next := by
  cases h with
  | looks hlooks =>
    cases hlooks with
    | still hcall =>
      cases call with
      | accepts reply => exact ⟨_, rfl, .cancels reply⟩
      | settles result => exact ⟨_, rfl, .ends _⟩
      | claims result => exact ⟨_, rfl, .ends _⟩
      | _ => exact absurd rfl hcall
    | looked result => exact ⟨_, rfl, .ends (.settles result)⟩
  | cancels reply => exact ⟨_, rfl, .ends (.accepts reply)⟩
  | ends call => exact ⟨_, rfl, .ends call⟩

end SlotCall

namespace SlotMark

/-- Calls at a slot that has not reported. -/
def start (calls : List SlotCall) : SlotMark := ⟨false, calls, []⟩

/-- One call does one step. -/
def step (m : SlotMark) (index : Nat) : SlotMark :=
  match m.calls[index]? with
  | none => m
  | some call =>
    let (marked, next, report) := call.step m.marked
    ⟨marked, m.calls.set index next, m.heard ++ report.toList⟩

/-- Calls do steps in this order. -/
def run (m : SlotMark) (schedule : List Nat) : SlotMark := schedule.foldl step m

/-- The call that does this step, if it sets the mark with it. -/
def claims? (m : SlotMark) (index : Nat) : Option Nat :=
  if !m.marked && (m.step index).marked then some index else none

/-- The call that sets the mark, when calls do steps in this order. -/
def claimant? : SlotMark → List Nat → Option Nat
  | _, [] => none
  | m, index :: rest => m.claims? index <|> (m.step index).claimant? rest

/-- **How far the calls are**: none has set the mark; or one has, and it is about to report or has
reported. -/
inductive Stage (calls : List SlotCall) : Option Nat → SlotMark → Prop where
  | unclaimed {m : SlotMark} (hmarked : m.marked = false) (hheard : m.heard = [])
      (hcalls : ∀ (index : Nat) now, m.calls[index]? = some now →
        ∃ call, calls[index]? = some call ∧ call.Looks now) :
      Stage calls none m
  | claimed {m : SlotMark} {index : Nat} {call : SlotCall} {report : Report}
      (hmarked : m.marked = true) (hcall : calls[index]? = some call)
      (hreport : call.report? = some report)
      (hfirst : m.calls[index]? = some (.reports report) ∧ m.heard = [] ∨
        m.calls[index]? = some .reported ∧ m.heard = [report])
      (hothers : ∀ (other : Nat) now, other ≠ index → m.calls[other]? = some now →
        ∃ call, calls[other]? = some call ∧ call.Yields now) :
      Stage calls (some index) m

section

variable {m : SlotMark} {index : Nat} {call : SlotCall}

theorem step_of_getElem? (h : m.calls[index]? = some call) :
    m.step index = ⟨(call.step m.marked).1, m.calls.set index (call.step m.marked).2.1,
      m.heard ++ (call.step m.marked).2.2.toList⟩ := by
  rw [step, h]

theorem step_of_none (h : m.calls[index]? = none) : m.step index = m := by
  rw [step, h]

variable {calls : List SlotCall} {claimant : Option Nat}

/-- A step that no call has set the mark with, and of which the race hears nothing. -/
theorem Stage.looks (h : Stage calls none m) {next : SlotCall}
    (hcall : m.calls[index]? = some call) (hstep : call.step m.marked = (false, next, none))
    (hnext : ∀ first : SlotCall, first.Looks call → first.Looks next) :
    Stage calls (none <|> m.claims? index) (m.step index) := by
  cases h with
  | unclaimed hmarked hheard hcalls =>
    have hlt := (List.getElem?_eq_some_iff.mp hcall).1
    have hclaims : m.claims? index = none := by
      rw [claims?, step_of_getElem? hcall, hstep]
      simp
    rw [hclaims, step_of_getElem? hcall, hstep]
    refine .unclaimed rfl (by simpa using hheard) fun other now hnow => ?_
    by_cases hsame : index = other
    · subst hsame
      rw [List.getElem?_set_self hlt, Option.some.injEq] at hnow
      obtain ⟨first, hfirst, hlooks⟩ := hcalls index call hcall
      exact ⟨first, hfirst, hnow ▸ hnext first hlooks⟩
    · rw [List.getElem?_set_ne hsame] at hnow
      exact hcalls other now hnow

/-- The step that sets the mark. -/
theorem Stage.claim (h : Stage calls none m) {report : Report}
    (hcall : m.calls[index]? = some call) (hreport : call.report? = some report)
    (hstep : call.step m.marked = (true, .reports report, none)) :
    Stage calls (none <|> m.claims? index) (m.step index) := by
  cases h with
  | unclaimed hmarked hheard hcalls =>
    have hlt := (List.getElem?_eq_some_iff.mp hcall).1
    have hclaims : m.claims? index = some index := by
      rw [claims?, step_of_getElem? hcall, hstep, hmarked]
      rfl
    obtain ⟨first, hfirst, hlooks⟩ := hcalls index call hcall
    rw [hclaims, step_of_getElem? hcall, hstep]
    refine .claimed rfl hfirst (hlooks.report?_eq.trans hreport)
      (.inl ⟨List.getElem?_set_self hlt, by simpa using hheard⟩) fun other now hne hnow => ?_
    rw [List.getElem?_set_ne hne.symm] at hnow
    obtain ⟨other, hother, hyields⟩ := hcalls other now hnow
    exact ⟨other, hother, .looks hyields⟩

/-- A step after the mark has been set: the report of the call that has set it, or a step of another
one, of which the race hears nothing. -/
theorem Stage.follow {owner : Nat} (h : Stage calls (some owner) m)
    (hcall : m.calls[index]? = some call) : Stage calls (some owner) (m.step index) := by
  cases h with
  | @claimed _ _ first report hmarked hfirst hreport hstage hothers =>
    have hlt := (List.getElem?_eq_some_iff.mp hcall).1
    rw [step_of_getElem? hcall, hmarked]
    by_cases hsame : index = owner
    · subst hsame
      have hrest : ∀ next other now, other ≠ index → (m.calls.set index next)[other]? = some now →
          ∃ call, calls[other]? = some call ∧ call.Yields now := by
        intro next other now hne hnow
        rw [List.getElem?_set_ne hne.symm] at hnow
        exact hothers other now hne hnow
      rcases hstage with ⟨hreports, hheard⟩ | ⟨hreported, hheard⟩
      · obtain rfl := Option.some.inj (hcall.symm.trans hreports)
        exact .claimed rfl hfirst hreport
          (.inr ⟨List.getElem?_set_self hlt, by simp [SlotCall.step, hheard]⟩) (hrest _)
      · obtain rfl := Option.some.inj (hcall.symm.trans hreported)
        exact .claimed rfl hfirst hreport
          (.inr ⟨List.getElem?_set_self hlt, by simp [SlotCall.step, hheard]⟩) (hrest _)
    · obtain ⟨started, hstarted, hyields⟩ := hothers index call hsame hcall
      obtain ⟨next, hstep, hyields'⟩ := hyields.step
      rw [hstep]
      refine .claimed rfl hfirst hreport ?_ fun other now hne hnow => ?_
      · rw [List.getElem?_set_ne hsame]
        simpa using hstage
      · by_cases hother : index = other
        · subst hother
          rw [List.getElem?_set_self hlt, Option.some.injEq] at hnow
          exact ⟨started, hstarted, hnow ▸ hyields'⟩
        · rw [List.getElem?_set_ne hother] at hnow
          exact hothers other now hne hnow

/-- **Each step keeps it.** -/
theorem Stage.step (h : Stage calls claimant m) (index : Nat) :
    Stage calls (claimant <|> m.claims? index) (m.step index) := by
  cases hcall : m.calls[index]? with
  | none =>
    have hclaims : m.claims? index = none := by
      rw [claims?, step_of_none hcall]
      cases m.marked <;> rfl
    rw [step_of_none hcall, hclaims]
    cases claimant <;> exact h
  | some call =>
    cases claimant with
    | some owner => exact h.follow hcall
    | none =>
      have hstage := h
      cases hstage with
      | unclaimed hmarked hheard hcalls =>
        obtain ⟨first, -, hlooks⟩ := hcalls index call hcall
        cases call with
        | accepts reply => exact h.claim hcall rfl (by rw [hmarked]; rfl)
        | claims result => exact h.claim hcall rfl (by rw [hmarked]; rfl)
        | settles result =>
          -- It has only looked, and another call may still set the mark before it.
          refine h.looks hcall (by rw [hmarked]; rfl) fun first hfirst => ?_
          cases hfirst with
          | still h => exact .looked result
        | _ => exact absurd rfl hlooks.report?_ne_none

end

/-- **A slot reports once**, and what it reports is what the call had to report that has set the
mark. That call is just about to report, or the race has heard of it; as long as there is none, no
call has come past the mark. Any other call finds the mark: a response is cancelled then. -/
structure HearsOnce (calls : List SlotCall) (claimant : Option Nat) (m : SlotMark) : Prop where
  once : m.heard.length ≤ 1
  unclaimed : claimant = none → m.heard = [] ∧ ∀ call ∈ m.calls, call.report? ≠ none
  claimed : ∀ index : Nat, claimant = some index →
    ∃ call report, calls[index]? = some call ∧ call.report? = some report ∧
      (m.calls[index]? = some (.reports report) ∧ m.heard = [] ∨
        m.calls[index]? = some .reported ∧ m.heard = [report])
  others : ∀ (index : Nat) now, claimant ≠ some index → m.calls[index]? = some now →
    ∃ call, calls[index]? = some call ∧ call.Yields now
  settled : (∃ call ∈ m.calls, call.report? = none) → (∀ report, .reports report ∉ m.calls) →
    m.heard.length = 1

theorem Stage.hearsOnce {calls : List SlotCall} {claimant : Option Nat} {m : SlotMark}
    (h : Stage calls claimant m) : HearsOnce calls claimant m := by
  cases h with
  | unclaimed hmarked hheard hcalls =>
    have hlooks : ∀ call ∈ m.calls, call.report? ≠ none := by
      intro call hmem
      obtain ⟨index, hindex⟩ := List.mem_iff_getElem?.mp hmem
      obtain ⟨first, -, hlooks⟩ := hcalls index call hindex
      exact hlooks.report?_ne_none
    refine ⟨by simp [hheard], fun _ => ⟨hheard, hlooks⟩, nofun, fun index now _ hnow => ?_,
      fun ⟨call, hmem, hnone⟩ => absurd hnone (hlooks call hmem)⟩
    obtain ⟨first, hfirst, hlooks⟩ := hcalls index now hnow
    exact ⟨first, hfirst, .looks hlooks⟩
  | @claimed _ owner call report hmarked hcall hreport hfirst hothers =>
    refine ⟨?_, nofun, ?_, fun index now hne => hothers index now fun heq => hne (heq ▸ rfl),
      fun _ hquiet => ?_⟩
    · rcases hfirst with ⟨-, hheard⟩ | ⟨-, hheard⟩ <;> simp [hheard]
    · rintro index ⟨⟩
      exact ⟨call, report, hcall, hreport, hfirst⟩
    · rcases hfirst with ⟨hreports, -⟩ | ⟨-, hheard⟩
      · exact absurd (List.mem_of_getElem? hreports) (hquiet report)
      · simp [hheard]

/-- **A slot reports once**, however the steps of the calls at it interleave. -/
theorem hears_once {calls : List SlotCall} (h : ∀ call ∈ calls, call.report? ≠ none)
    (schedule : List Nat) :
    HearsOnce calls ((start calls).claimant? schedule) ((start calls).run schedule) := by
  -- On the schedule, from any stage: a call that has set the mark stays the one that has.
  have hkeeps : ∀ (claimant : Option Nat) (m : SlotMark), Stage calls claimant m →
      Stage calls (claimant <|> m.claimant? schedule) (m.run schedule) := by
    induction schedule with
    | nil =>
      intro claimant m hstage
      cases claimant <;> exact hstage
    | cons index rest ih =>
      intro claimant m hstage
      have hrest := ih _ _ (hstage.step index)
      cases claimant <;> exact hrest
  refine (hkeeps none (start calls) (.unclaimed rfl rfl fun index call hcall => ?_)).hearsOnce
  exact ⟨call, hcall, .still (h call (List.mem_of_getElem? hcall))⟩

/-- **A response may outlast the closing of its slot.** It has set the mark and not reported yet
when the slot is closed: that is over, and the race has heard nothing. It hears of the response
next. Or the response comes when the slot is closed, and its body is ready with an empty frame at
each poll: cancelling it never ends, and so its delivery does not either. -/
theorem accepts_outlasts_settles :
    ((start [.accepts (Reply.ofStatus 200), .settles (.ok ())]).run [0, 1]).calls =
        [.reports (.ok (Reply.ofStatus 200)), .ends (.result (.ok ()))] ∧
      ((start [.accepts (Reply.ofStatus 200), .settles (.ok ())]).run [0, 1]).heard = [] ∧
      ((start [.accepts (Reply.ofStatus 200), .settles (.ok ())]).run [0, 1, 0]).heard =
        [.ok (Reply.ofStatus 200)] ∧
      ((start [.settles (.ok ()), .accepts
          ⟨⟨200, .empty⟩, .stream ⟨"body", false, [], some []⟩⟩]).run [0, 0, 0, 1, 1]).calls =
        [.reported, .ends .never] := by
  have hcancel : (HeldReply.cancel []
      ⟨⟨200, .empty⟩, .stream ⟨"body", false, [], some []⟩⟩).size = none :=
    HeldReply.cancel_none_iff.mpr (Body.skim_none_iff_keepsBusy.mp
      (Body.skim_none_iff.mpr ⟨_, rfl, Feed.dawdles_nil.mpr ⟨rfl, by decide⟩⟩))
  have hlate : ∀ reply, ((start [.settles (.ok ()), .accepts reply]).run [0, 0, 0, 1, 1]).calls =
      [.reported, .ends (Contest.afterCancelling (HeldReply.cancel [] reply).size.isSome)] :=
    fun _ => rfl
  refine ⟨rfl, rfl, rfl, ?_⟩
  rw [hlate, hcancel]
  rfl

end SlotMark

/-! ## Calls that are not interrupted -/

/-- A call at a slot of a contest. -/
inductive SlotDeed where
  | accepts (reply : Reply)
  /-- The slot is closed on behalf of a lane or of the main task. -/
  | settles (owner : Option Nat) (result : Delivery)

namespace SlotDeed

/-- What it has to report. -/
def report : SlotDeed → Report
  | .accepts reply => .ok reply
  | .settles _ result => .error (Contest.failureOf result)

/-- The call before its first step. -/
def call : SlotDeed → SlotCall
  | .accepts reply => .accepts reply
  | .settles _ result => .settles result

end SlotDeed

namespace Contest

/-- A call happens at a slot. -/
def carryOut (c : Contest) (index : Nat) : SlotDeed → Contest × List Note × Reaction
  | .accepts reply => c.receive index reply
  | .settles owner result => c.closeSlot owner index result

/-- What the race hears of a call: nothing if the slot has reported. -/
def heard? (c : Contest) (index : Nat) (deed : SlotDeed) : List Report :=
  if c.hasReported index then [] else [deed.report]

/-- A contest after calls. -/
def afterDeeds (c : Contest) (deeds : List (Nat × SlotDeed)) : Contest :=
  deeds.foldl (fun c deed => (c.carryOut deed.1 deed.2).1) c

/-- What the race hears while calls happen at its slots. -/
def heardIn : Contest → List (Nat × SlotDeed) → List (Nat × Report)
  | _, [] => []
  | c, (index, deed) :: rest =>
    (c.heard? index deed).map (index, ·) ++ heardIn (c.carryOut index deed).1 rest

/-- A call that is not interrupted takes its steps one after the other. -/
theorem heard?_eq_alone (c : Contest) (index : Nat) (deed : SlotDeed) :
    c.heard? index deed =
      (SlotMark.run ⟨c.hasReported index, [deed.call], []⟩ [0, 0, 0]).heard := by
  unfold heard?
  cases c.hasReported index with
  | true => cases deed <;> rfl
  | false => cases deed <;> rfl

/-- A call that is not interrupted and finds the mark ends as its steps do, and leaves the contest
as it is. -/
theorem carryOut_eq_alone {c : Contest} {index : Nat} (h : c.hasReported index = true)
    (deed : SlotDeed) :
    ∃ notes response, c.carryOut index deed = (c, notes, .answers response) ∧
      (SlotMark.run ⟨true, [deed.call], []⟩ [0, 0, 0]).calls = [.ends response] := by
  cases deed with
  | accepts reply =>
    refine ⟨_, _, by rw [carryOut, receive, if_pos h], ?_⟩
    rw [Race.cancelSecond, HeldReply.cancelAll_singleton_snd]
    rfl
  | settles owner result => exact ⟨_, _, if_pos h, rfl⟩

section

variable {told : List (Option Report)} {delivered : List Reply} {c : Contest} {index : Nat}

theorem hears_carryOut (c : Contest) (index : Nat) (deed : SlotDeed) :
    ∃ owner, c.Hears owner index deed.report (c.carryOut index deed) := by
  cases deed with
  | accepts reply => exact ⟨_, c.hears_receive index reply⟩
  | settles owner result => exact ⟨_, c.hears_closeSlot owner index result⟩

theorem Holds.carryOut (h : c.Holds told delivered) (hlt : index < c.lanes.length)
    (deed : SlotDeed) :
    (∃ delivered', (c.carryOut index deed).1.Holds (tellFirst told (index, deed.report))
        delivered') ∧
      (c.carryOut index deed).1.lanes.length = c.lanes.length := by
  obtain ⟨owner, hhears⟩ := hears_carryOut c index deed
  exact ⟨⟨_, h.hears hlt hhears⟩, length_lanes_hears hhears⟩

/-- The race hears the first call at a slot that has not reported, and nothing more of it. -/
theorem Holds.heardIn_eq (h : c.Holds told delivered) {deeds : List (Nat × SlotDeed)}
    (hin : ∀ deed ∈ deeds, deed.1 < c.lanes.length) (index : Nat) :
    (told[index]? = some none → (c.heardIn deeds).filter (·.1 == index) =
        ((deeds.filter (·.1 == index)).map fun deed => (deed.1, deed.2.report)).take 1) ∧
      (told[index]? ≠ some none → (c.heardIn deeds).filter (·.1 == index) = []) := by
  -- On the calls, with what was told before them.
  induction deeds generalizing c told delivered with
  | nil => exact ⟨fun _ => rfl, fun _ => rfl⟩
  | cons first rest ih =>
    obtain ⟨other, deed⟩ := first
    have hlt : other < c.lanes.length := hin _ List.mem_cons_self
    obtain ⟨⟨delivered', hnext⟩, hlength⟩ := h.carryOut hlt deed
    obtain ⟨hfirst, hlater⟩ := ih hnext fun deed hdeed => by
      rw [hlength]
      exact hin deed (List.mem_cons_of_mem _ hdeed)
    rw [heardIn, List.filter_append, heard?]
    by_cases hsame : other = index
    · subst hsame
      rw [hlater (tellFirst_self_ne_none told other deed.report), List.append_nil]
      cases hreported : c.hasReported other with
      | true => exact ⟨fun hnone => absurd hnone (h.told_ne_none hlt hreported), fun _ => rfl⟩
      | false =>
        refine ⟨fun _ => by simp, fun hsome => ?_⟩
        exact absurd (h.told_eq_none hlt hreported) hsome
    · have htold : (tellFirst told (other, deed.report))[index]? = told[index]? :=
        getElem?_tellFirst_ne told (Ne.symm hsame)
      have hnone : ((if c.hasReported other = true then [] else [deed.report]).map
          (other, ·)).filter (·.1 == index) = [] := by
        cases c.hasReported other <;> simp [hsame]
      rw [← htold, hnone, List.nil_append, List.filter_cons_of_neg (by simpa using hsame)]
      exact ⟨hfirst, hlater⟩

theorem Holds.afterDeeds (h : c.Holds told delivered) {deeds : List (Nat × SlotDeed)}
    (hin : ∀ deed ∈ deeds, deed.1 < c.lanes.length) :
    ∃ told' delivered', (c.afterDeeds deeds).Holds told' delivered' ∧
      (c.afterDeeds deeds).lanes.length = c.lanes.length := by
  induction deeds generalizing c told delivered with
  | nil => exact ⟨told, delivered, h, rfl⟩
  | cons first rest ih =>
    obtain ⟨⟨delivered', hnext⟩, hlength⟩ := h.carryOut (hin _ List.mem_cons_self) first.2
    obtain ⟨told'', delivered'', hlast, hlast'⟩ := ih hnext fun deed hdeed => by
      rw [hlength]
      exact hin deed (List.mem_cons_of_mem _ hdeed)
    exact ⟨told'', delivered'', hlast, hlast'.trans hlength⟩

end

/-- **What the race hears of its slots** while these calls happen: the first call at each slot,
whose slot is empty then. A response that comes later is cancelled, it succeeds if that ever ends,
and it leaves the contest as it is. -/
structure HearsOnce (c : Contest) (deeds : List (Nat × SlotDeed)) : Prop where
  first : ∀ index, (c.heardIn deeds).filter (·.1 == index) =
    ((deeds.filter (·.1 == index)).map fun deed => (deed.1, deed.2.report)).take 1
  empty : ∀ before index deed after, deeds = before ++ (index, deed) :: after →
    (c.afterDeeds before).hasReported index = false →
      (c.afterDeeds before).race.slots[index]? = some .empty
  late : ∀ before index reply after, deeds = before ++ (index, .accepts reply) :: after →
    (c.afterDeeds before).hasReported index = true →
      (c.afterDeeds before).carryOut index (.accepts reply) =
        (c.afterDeeds before, (Race.cancelSecond [] index reply).1,
          .answers (afterCancelling (Race.cancelSecond [] index reply).2))

/-- **Each slot of a contest reports once**, whatever calls happen at its slots in whatever order.
-/
theorem hears_once (policy : Policy) {slots : Nat} {race : Race}
    (hrace : Race.ofSlots? slots = .ok race) {deeds : List (Nat × SlotDeed)}
    (hin : ∀ deed ∈ deeds, deed.1 < slots) : (start policy race slots none).HearsOnce deeds := by
  have hstart := holds_start policy (Nat.le_refl slots) hrace none
  have hlength : (start policy race slots none).lanes.length = slots := List.length_replicate
  refine ⟨fun index => ?_, fun before index deed after hdeeds hfirst => ?_,
    fun before index reply after hdeeds hreported => ?_⟩
  · have hlanes : ∀ deed ∈ deeds, deed.1 < (start policy race slots none).lanes.length := by
      rwa [hlength]
    obtain ⟨hfirst, hlater⟩ := hstart.heardIn_eq hlanes index
    by_cases hlt : index < slots
    · exact hfirst (by rw [List.getElem?_replicate, if_pos hlt])
    · have hnone : deeds.filter (·.1 == index) = [] := by
        rw [List.filter_eq_nil_iff]
        intro deed hdeed heq
        exact hlt (beq_iff_eq.mp heq ▸ hin deed hdeed)
      rw [hnone]
      exact hlater (by rw [List.getElem?_replicate, if_neg hlt]; nofun)
  · have hbefore : ∀ deed ∈ before, deed.1 < (start policy race slots none).lanes.length := by
      rw [hlength]
      exact fun deed hdeed => hin deed (hdeeds ▸ List.mem_append_left _ hdeed)
    obtain ⟨told, delivered, hholds, hlanes⟩ := hstart.afterDeeds hbefore
    have hlt : index < slots := hin (index, deed) (hdeeds ▸ by simp)
    rw [hholds.empty_iff]
    exact hholds.told_eq_none (by rw [hlanes, hlength]; exact hlt) hfirst
  · rw [carryOut, receive, if_pos hreported]

end Contest

end Switchboard
