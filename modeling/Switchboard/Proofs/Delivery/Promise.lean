import Switchboard.Proofs.Delivery.Approach
import Switchboard.Proofs.Delivery.Heard
import Switchboard.Proofs.Delivery.Outcome
set_option autoImplicit false

/-! # Sendings that keep their promise

`Sending.Delivers lost reply` is the contract of a sending that gives its connection one response:
under every schedule the connection is given this response once, and the main task returns what the
connection answers, and nothing else. A sending keeps it that just delivers a response. Notes and
pauses before it do not change that (`Sending.Leads.delivers`), and neither do wrappers that leave
the result as it is (`Sending.Delivers.wrapped`).

A broadcast cancels the responses that lose its race. One whose body never ends keeps whoever
cancels it busy for ever, and that is the one thing that may keep the main task from returning once
the connection has answered.

The sendings are `send` of a `Response` with a connection that is any `Connection`. -/

namespace Switchboard

/-! ## The contract -/

/-- **What a run owes to its connection** that is to be given this response, when these responses
lose on the way and the connection has answered this. The propositions say that the connection did
not panic, and that it answered with results only. -/
structure Run.Honours (lost : List Reply) (reply : Reply) (calm plain : Prop)
    (answer : Option Delivery) (r : Run) : Prop where
  once : r.delivered = [] ∨ r.delivered = [reply]
  first : r.ending ≠ none → r.delivered ≠ []
  rests : r.sending.Rests → r.delivered ≠ []
  returned : calm → ∀ ending, r.ending = some ending →
    ∃ result, answer = some result ∧ ending = .returned result
  returns : plain → (∀ held ∈ lost, (HeldReply.cancel [] held).size.isSome = true) →
    r.sending.Rests → ∀ result, answer = some result → r.ending = some (.returned result)

/-- **A sending that delivers one response**, and returns what the connection answers. -/
def Sending.Delivers (lost : List Reply) (reply : Reply) (s : Sending) : Prop :=
  ∀ choices : List Choice, ((Run.start s).choices choices).Honours lost reply
    (∀ choice ∈ choices, choice.Calm) (∀ choice ∈ choices, choice.Plain)
    ((Run.start s).answerAfter none choices)

theorem Choice.Plain.calm {choice : Choice} (h : choice.Plain) : choice.Calm := by
  rintro message rfl
  obtain ⟨result, hresult⟩ := h _ rfl
  cases hresult

section

variable {lost : List Reply} {reply : Reply} {s : Sending}

theorem Sending.Delivers.deliversFirst (h : s.Delivers lost reply) : s.DeliversFirst := by
  intro choices
  obtain ⟨honce, hfirst, -⟩ := h choices
  refine ⟨?_, hfirst⟩
  rcases honce with hnil | hone
  · rw [hnil]
    exact Nat.zero_le 1
  · rw [hone]
    exact Nat.le_refl 1

/-- More responses may lose. -/
theorem Run.Honours.mono {calm plain : Prop} {answer : Option Delivery} {r : Run}
    {more : List Reply} (h : r.Honours lost reply calm plain answer)
    (hsubset : lost ⊆ more) : r.Honours more reply calm plain answer :=
  ⟨h.once, h.first, h.rests, h.returned, fun hplain hcancel =>
    h.returns hplain fun held hheld => hcancel held (hsubset hheld)⟩

/-- At rest it has returned what the connection has answered, or nothing yet. -/
theorem Run.Honours.ending_eq {plain : Prop} {answer : Option Delivery} {r : Run} {calm : Prop}
    (h : r.Honours lost reply calm plain answer) (hcalm : calm) (hplain : plain)
    (hcancel : ∀ held ∈ lost, (HeldReply.cancel [] held).size.isSome = true)
    (hrests : r.sending.Rests) : r.ending = answer.map .returned := by
  cases hanswer : answer with
  | some result => exact h.returns hplain hcancel hrests result hanswer
  | none =>
    cases hending : r.ending with
    | none => rfl
    | some ending =>
      obtain ⟨result, hresult, -⟩ := h.returned hcalm ending hending
      rw [hanswer] at hresult
      cases hresult

theorem Sending.Delivers.mono {more : List Reply} (h : s.Delivers lost reply)
    (hsubset : lost ⊆ more) : s.Delivers more reply := fun choices => (h choices).mono hsubset

end

/-! ## One response -/

/-- **How far a sending is that just delivers a response.** -/
inductive Sending.Handing (reply : Reply) (calm plain : Prop) : Option Delivery → Run → Prop where
  | ready (notes : List Note) :
      Handing reply calm plain none ⟨.deliver reply, notes, [], none⟩
  | given (notes : List Note) :
      Handing reply calm plain none ⟨.delivered, notes, [reply], none⟩
  | answered (notes : List Note) (result : Delivery) :
      Handing reply calm plain (some result) ⟨.returns result, notes, [reply], none⟩
  | done (notes : List Note) (result : Delivery) :
      Handing reply calm plain (some result)
        ⟨.ended, notes, [reply], some (.returned result)⟩
  | silent (notes : List Note) (hplain : ¬ plain) (answer : Option Delivery) :
      Handing reply calm plain answer ⟨.stalled, notes, [reply], none⟩
  | unwinds (notes : List Note) (hcalm : ¬ calm) (hplain : ¬ plain) (message : String)
      (answer : Option Delivery) :
      Handing reply calm plain answer ⟨.panics message, notes, [reply], none⟩
  | broken (notes : List Note) (hcalm : ¬ calm) (hplain : ¬ plain) (ending : Ending)
      (answer : Option Delivery) :
      Handing reply calm plain answer ⟨.ended, notes, [reply], some ending⟩

section

variable {reply : Reply} {calm plain : Prop} {answer : Option Delivery} {r : Run}

theorem Sending.Handing.choose (h : Handing reply calm plain answer r) {choice : Choice}
    (hcalm : calm → choice.Calm) (hplain : plain → choice.Plain) :
    Handing reply calm plain (answerNext r.delivered answer choice) (r.choose choice) := by
  cases h with
  | ready notes =>
    rcases choice with (_ | ⟨index, path⟩) | response
    · exact .given _
    · exact .ready _
    · exact .ready _
  | given notes =>
    rcases choice with (_ | ⟨index, path⟩) | (result | message | _)
    · exact .given _
    · exact .given _
    · exact .answered _ result
    · exact .unwinds _ (fun h => hcalm h message rfl) (fun h => (hplain h).calm message rfl)
        message _
    · refine .silent _ (fun h => ?_) _
      obtain ⟨result, hresult⟩ := hplain h _ rfl
      cases hresult
  | answered notes result =>
    rcases choice with (_ | ⟨index, path⟩) | response
    · exact .done _ result
    · exact .answered _ result
    · cases response <;> exact .answered _ result
  | done notes result =>
    rcases choice with (_ | ⟨index, path⟩) | response
    · exact .done _ result
    · exact .done _ result
    · cases response <;> exact .done _ result
  | silent notes hnever answer =>
    rcases choice with (_ | ⟨index, path⟩) | response <;> exact .silent _ hnever _
  | unwinds notes hpanics hnever message answer =>
    rcases choice with (_ | ⟨index, path⟩) | response
    · exact .broken _ hpanics hnever _ _
    · exact .unwinds _ hpanics hnever _ _
    · exact .unwinds _ hpanics hnever _ _
  | broken notes hpanics hnever ending answer =>
    rcases choice with (_ | ⟨index, path⟩) | response <;> exact .broken _ hpanics hnever _ _

theorem Sending.Handing.choices (h : Handing reply calm plain answer r) {list : List Choice}
    (hcalm : calm → ∀ choice ∈ list, choice.Calm)
    (hplain : plain → ∀ choice ∈ list, choice.Plain) :
    Handing reply calm plain (r.answerAfter answer list) (r.choices list) := by
  induction list generalizing r answer with
  | nil => exact h
  | cons choice rest ih =>
    exact ih (h.choose (fun h => hcalm h choice List.mem_cons_self)
        fun h => hplain h choice List.mem_cons_self)
      (fun h other hother => hcalm h other (List.mem_cons_of_mem _ hother))
      fun h other hother => hplain h other (List.mem_cons_of_mem _ hother)

theorem Sending.Handing.honours (h : Handing reply calm plain answer r) (lost : List Reply) :
    r.Honours lost reply calm plain answer := by
  have hmoves : ∀ {s : Sending}, (s.step []).next ≠ s → ¬ s.Rests := fun hne hrests =>
    hne (hrests [])
  cases h with
  | ready notes =>
    have hbusy : ¬ (Sending.deliver reply).Rests := hmoves nofun
    exact ⟨.inl rfl, fun h => absurd rfl h, fun h => absurd h hbusy, nofun,
      fun _ _ h => absurd h hbusy⟩
  | given notes =>
    exact ⟨.inr rfl, fun h => absurd rfl h, fun _ => List.cons_ne_nil _ _, nofun, nofun⟩
  | answered notes result =>
    have hbusy : ¬ (Sending.returns result).Rests := hmoves nofun
    exact ⟨.inr rfl, fun h => absurd rfl h, fun h => absurd h hbusy, nofun,
      fun _ _ h => absurd h hbusy⟩
  | done notes result =>
    refine ⟨.inr rfl, fun _ => List.cons_ne_nil _ _, fun _ => List.cons_ne_nil _ _,
      fun _ ending heq => ⟨result, rfl, ?_⟩, fun _ _ _ other heq => ?_⟩
    · cases heq
      rfl
    · cases heq
      rfl
  | silent notes hnever answer =>
    exact ⟨.inr rfl, fun h => absurd rfl h, fun _ => List.cons_ne_nil _ _, nofun,
      fun h => absurd h hnever⟩
  | unwinds notes hpanics hnever message answer =>
    exact ⟨.inr rfl, fun h => absurd rfl h, fun _ => List.cons_ne_nil _ _,
      fun h => absurd h hpanics, fun h => absurd h hnever⟩
  | broken notes hpanics hnever ending answer =>
    exact ⟨.inr rfl, fun _ => List.cons_ne_nil _ _, fun _ => List.cons_ne_nil _ _,
      fun h => absurd h hpanics, fun h => absurd h hnever⟩

end

/-- **A sending that just delivers a response** does so. -/
theorem Sending.delivers_deliver (reply : Reply) : (Sending.deliver reply).Delivers [] reply :=
  fun _ => ((Handing.ready []).choices id id).honours []

/-! ## Around it -/

section

variable {lost : List Reply} {reply : Reply} {s t : Sending}

/-- A run that is on its way owes nothing yet. -/
theorem Sending.OnItsWay.honours {choices : List Choice} (h : s.OnItsWay choices)
    (lost : List Reply) (reply : Reply) (calm plain : Prop) (answer : Option Delivery) :
    ((Run.start s).choices choices).Honours lost reply calm plain answer where
  once := .inl h.delivered_eq
  first := fun hending => absurd h.ending_eq hending
  rests := fun hrests => absurd hrests h.busy
  returned := by
    intro _ ending heq
    rw [h.ending_eq] at heq
    cases heq
  returns := fun _ _ hrests => absurd hrests h.busy

/-- A run that has come to a sending owes what a run of that sending owes. -/
theorem Sending.Comes.honours {choices next : List Choice} (h : s.Comes t choices next)
    (ht : ((Run.start t).choices next).Honours lost reply (∀ choice ∈ next, choice.Calm)
      (∀ choice ∈ next, choice.Plain) ((Run.start t).answerAfter none next)) :
    ((Run.start s).choices choices).Honours lost reply (∀ choice ∈ choices, choice.Calm)
      (∀ choice ∈ choices, choice.Plain) ((Run.start s).answerAfter none choices) := by
  obtain ⟨hsubset, ⟨hsending, hdelivered, hending⟩, hanswer, -⟩ := h
  obtain ⟨honce, hfirst, hrests, hreturned, hreturns⟩ := ht
  rw [← hsending, ← hdelivered, ← hending, ← hanswer] at *
  exact ⟨honce, hfirst, hrests, fun hcalm => hreturned fun choice hmem =>
    hcalm choice (hsubset hmem), fun hplain => hreturns fun choice hmem =>
      hplain choice (hsubset hmem)⟩

/-- **Notes and pauses** before a sending do not change what it delivers. -/
theorem Sending.Leads.delivers {notes : List Note} (h : s.Leads notes t)
    (ht : t.Delivers lost reply) : s.Delivers lost reply := by
  intro choices
  rcases h.choices choices with hway | ⟨next, hcomes⟩
  · exact hway.honours _ _ _ _ _
  · exact hcomes.honours (ht next)

theorem Sending.Leads.deliversFirst {notes : List Note} (h : s.Leads notes t)
    (ht : t.DeliversFirst) : s.DeliversFirst := by
  intro choices
  rcases h.choices choices with ⟨hdelivered, hending, -, -⟩ | ⟨next, hcomes⟩
  · rw [hdelivered, hending]
    exact ⟨Nat.zero_le 1, fun hended => absurd rfl hended⟩
  · rw [hcomes.alike.delivered_eq, hcomes.alike.ending_eq]
    exact ht next

/-- A wrapper that leaves the result as it is. -/
def Wrapper.KeepsResult (w : Wrapper) : Prop := ∀ result, (w.inward result).2 = result

/-- **A run of a wrapped sending** is a run of the sending within, with its responses changed. -/
structure Run.Wraps (w : Wrapper) (inner outer : Run) : Prop where
  sending_eq : outer.sending = .wrapped w inner.sending
  delivered_eq : outer.delivered = inner.delivered.map fun reply => (w.outward reply).2
  ending_eq : outer.ending = inner.ending

/-- What a wrapper lets be seen of a step. -/
theorem Sending.signal_wrappedTurn {w : Wrapper} (hw : w.KeepsResult) (t : Turn) :
    Run.deliveredBy (wrappedTurn w t).signal =
        (Run.deliveredBy t.signal).map (fun reply => (w.outward reply).2) ∧
      Run.endingBy (wrappedTurn w t).signal = Run.endingBy t.signal := by
  unfold wrappedTurn
  cases hsignal : t.signal with
  | delivers reply => exact ⟨rfl, rfl⟩
  | returned result =>
    refine ⟨rfl, ?_⟩
    dsimp only [Run.endingBy]
    rw [hw result]
  | _ => exact ⟨rfl, rfl⟩

theorem Run.Wraps.choices {w : Wrapper} (hw : w.KeepsResult) {inner outer : Run}
    (h : Run.Wraps w inner outer) (list : List Choice) :
    Run.Wraps w (inner.choices list) (outer.choices list) ∧
      ∀ answer, outer.answerAfter answer list = inner.answerAfter answer list := by
  induction list generalizing inner outer with
  | nil => exact ⟨h, fun _ => rfl⟩
  | cons choice rest ih =>
    obtain ⟨hsending, hdelivered, hending⟩ := h
    have hnext : Run.Wraps w (inner.choose choice) (outer.choose choice) := by
      have hafter : (outer.choose choice).sending = .wrapped w (inner.choose choice).sending := by
        rw [Run.sending_choose, Run.sending_choose, hsending, Sending.after_wrapped]
      cases choice with
      | answer response => exact ⟨hafter, hdelivered, hending⟩
      | task path =>
        obtain ⟨hgives, hends⟩ := Sending.signal_wrappedTurn hw (inner.sending.step path)
        refine ⟨hafter, ?_, ?_⟩
        · rw [Run.delivered_choose, Run.delivered_choose, hsending, hdelivered, List.map_append]
          exact congrArg _ hgives
        · rw [Run.ending_choose, Run.ending_choose, hsending, hending]
          exact congrArg (inner.ending <|> ·) hends
    obtain ⟨hwraps, hanswer⟩ := ih hnext
    refine ⟨hwraps, fun answer => ?_⟩
    have hsame : answerNext outer.delivered answer choice =
        answerNext inner.delivered answer choice := by
      cases choice with
      | task path => rfl
      | answer response => rw [answerNext, answerNext, hdelivered, List.isEmpty_map]
    rw [Run.answerAfter, Run.answerAfter, hsame]
    exact hanswer _

/-- A run of a wrapped sending and the run of the sending within. -/
theorem Sending.choices_wrapped {w : Wrapper} (hw : w.KeepsResult) (s : Sending)
    (choices : List Choice) :
    Run.Wraps w ((Run.start s).choices choices) ((Run.start (.wrapped w s)).choices choices) ∧
      (Run.start (.wrapped w s)).answerAfter none choices =
        (Run.start s).answerAfter none choices := by
  have hstart : Run.Wraps w (Run.start s) (Run.start (.wrapped w s)) := ⟨rfl, rfl, rfl⟩
  obtain ⟨hwraps, hanswer⟩ := hstart.choices hw choices
  exact ⟨hwraps, hanswer none⟩

theorem Run.Wraps.rests {w : Wrapper} {inner outer : Run} (h : Run.Wraps w inner outer)
    (hrests : outer.sending.Rests) : inner.sending.Rests := by
  rw [h.sending_eq] at hrests
  exact hrests.wrapped

theorem Run.Wraps.delivered_ne_nil {w : Wrapper} {inner outer : Run} (h : Run.Wraps w inner outer)
    (hne : inner.delivered ≠ []) : outer.delivered ≠ [] := by
  rw [h.delivered_eq]
  exact fun hnil => hne (List.map_eq_nil_iff.mp hnil)

/-- **A wrapper that leaves the result as it is** changes the response and nothing else. -/
theorem Sending.Delivers.wrapped {w : Wrapper} (hw : w.KeepsResult)
    (h : s.Delivers lost reply) :
    (Sending.wrapped w s).Delivers lost (w.outward reply).2 := by
  intro choices
  obtain ⟨hwraps, hanswer⟩ := s.choices_wrapped hw choices
  obtain ⟨honce, hfirst, hrests, hreturned, hreturns⟩ := h choices
  refine ⟨?_, fun hne => ?_, fun hrest => ?_, ?_, ?_⟩
  · rw [hwraps.delivered_eq]
    rcases honce with hnil | hone
    · rw [hnil]
      exact .inl rfl
    · rw [hone]
      exact .inr rfl
  · rw [hwraps.ending_eq] at hne
    exact hwraps.delivered_ne_nil (hfirst hne)
  · exact hwraps.delivered_ne_nil (hrests (hwraps.rests hrest))
  · rw [hwraps.ending_eq, hanswer]
    exact hreturned
  · rw [hwraps.ending_eq, hanswer]
    exact fun hplain hcancel hrest => hreturns hplain hcancel (hwraps.rests hrest)

end

/-! ## No response at all -/

/-- **A sending that refuses**: it gives the connection nothing, and fails with this. -/
def Sending.Refuses (error : SendError) (s : Sending) : Prop :=
  ∀ choices : List Choice, ((Run.start s).choices choices).delivered = [] ∧
    (∀ ending, ((Run.start s).choices choices).ending = some ending →
      ending = .returned (.error error)) ∧
    (((Run.start s).choices choices).sending.Rests →
      ((Run.start s).choices choices).ending ≠ none)

section

variable {error : SendError} {s t : Sending}

theorem Sending.refuses_returns (error : SendError) :
    (Sending.returns (.error error)).Refuses error := by
  -- It has returned already, or it is about to.
  have hruns : ∀ (choices : List Choice) (r : Run),
      (∃ notes, r = ⟨.returns (.error error), notes, [], none⟩ ∨
        r = ⟨.ended, notes, [], some (.returned (.error error))⟩) →
      ∃ notes, r.choices choices = ⟨.returns (.error error), notes, [], none⟩ ∨
        r.choices choices = ⟨.ended, notes, [], some (.returned (.error error))⟩ := by
    intro choices
    induction choices with
    | nil => exact fun _ h => h
    | cons choice rest ih =>
      rintro r ⟨notes, rfl | rfl⟩
      · refine ih _ ?_
        rcases choice with (_ | ⟨index, path⟩) | response
        · exact ⟨_, .inr rfl⟩
        · exact ⟨_, .inl rfl⟩
        · exact ⟨_, .inl rfl⟩
      · refine ih _ ?_
        rcases choice with (_ | ⟨index, path⟩) | response <;> exact ⟨_, .inr rfl⟩
  intro choices
  obtain ⟨notes, hrun | hrun⟩ := hruns choices (Run.start _) ⟨[], .inl rfl⟩
  · rw [hrun]
    refine ⟨rfl, nofun, fun hrests => ?_⟩
    have hnext := hrests []
    cases hnext
  · rw [hrun]
    refine ⟨rfl, fun ending heq => ?_, fun _ => Option.some_ne_none _⟩
    cases heq
    rfl

theorem Sending.Leads.refuses {notes : List Note} (h : s.Leads notes t) (ht : t.Refuses error) :
    s.Refuses error := by
  intro choices
  rcases h.choices choices with ⟨hdelivered, hending, hbusy, -⟩ | ⟨next, hcomes⟩
  · refine ⟨hdelivered, ?_, fun hrests => absurd hrests hbusy⟩
    rw [hending]
    exact nofun
  · obtain ⟨hsending, hdelivered, hending⟩ := hcomes.alike
    rw [hsending, hdelivered, hending]
    exact ht next

theorem Sending.Refuses.wrapped {w : Wrapper} (hw : w.KeepsResult) (h : s.Refuses error) :
    (Sending.wrapped w s).Refuses error := by
  intro choices
  obtain ⟨hwraps, -⟩ := s.choices_wrapped hw choices
  obtain ⟨hdelivered, hending, hrests⟩ := h choices
  rw [hwraps.delivered_eq, hwraps.ending_eq, hdelivered]
  exact ⟨rfl, hending, fun hrest => hrests (hwraps.rests hrest)⟩

end

end Switchboard
