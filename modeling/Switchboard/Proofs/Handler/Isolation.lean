import Switchboard.Proofs.Handler.Given
set_option autoImplicit false

/-! # Backends that panic

A group depends on its backends only through what they give (`Handler.group_serves`). So a backend
that panics while its response is sent, before it has delivered one, does no more harm than one that
returns without a response: its connection gets the best of what the other backends give, and the
main task returns what the connection answers (`Handler.group_isolates`).

A backend that panics when it is asked is not caught like that. The panic unwinds the main task,
which asks the backends itself: those after it are never asked, and the main task ends with the
panic under every schedule (`Handler.group_unwinds`). -/

namespace Switchboard

/-! ## Backends that are asked -/

namespace Responding

/-- What a backend may come to give its slot, by these choices of its lane. -/
def MayGive (r : Responding) (own : List Choice) (given : Option Reply) : Prop :=
  ∃ s, r.sending = .ok s ∧ s.MayGive own given

/-- The lane of a backend has come to its end with these choices. -/
def IsOver (r : Responding) (own : List Choice) : Prop :=
  ∃ s, r.sending = .ok s ∧ ((Run.start s).choices own).ending ≠ none

/-- What the backends of a group may come to give, each by the choices of its own lane. -/
structure AllGive (asked : List Responding) (own : Nat → List Choice)
    (given : List (Option Reply)) : Prop where
  length_eq : asked.length = given.length
  mayGive : ∀ (index : Nat) (r : Responding) (reply : Option Reply), asked[index]? = some r →
    given[index]? = some reply → r.MayGive (own index) reply

/-- The lanes of all backends have come to their ends. -/
def AllOver (asked : List Responding) (own : Nat → List Choice) : Prop :=
  ∀ (index : Nat) (r : Responding), asked[index]? = some r → r.IsOver (own index)

section

variable {asked : List Responding} {starts : List Sending} {own : Nat → List Choice}
  {given : List (Option Reply)}

/-- A lane is what its backend gives. -/
theorem exists_asked (hstarts : starts.map .ok = asked.map Responding.sending) {index : Nat}
    {start : Sending} (hstart : starts[index]? = some start) :
    ∃ r, asked[index]? = some r ∧ r.sending = .ok start := by
  have hsending : (asked.map Responding.sending)[index]? = some (.ok start) := by
    rw [← hstarts, List.getElem?_map, hstart]
    rfl
  rw [List.getElem?_map] at hsending
  exact Option.map_eq_some_iff.mp hsending

theorem AllGive.lanes (h : AllGive asked own given)
    (hstarts : starts.map .ok = asked.map Responding.sending) :
    Sending.AllGive starts own given where
  length_eq := by
    have hlength := congrArg List.length hstarts
    rw [List.length_map, List.length_map] at hlength
    exact hlength.trans h.length_eq
  mayGive := by
    intro index start reply hstart hgiven
    obtain ⟨r, hr, hsending⟩ := exists_asked hstarts hstart
    obtain ⟨s, hs, hgives⟩ := h.mayGive index r reply hr hgiven
    cases hsending.symm.trans hs
    exact hgives

theorem AllOver.lanes (h : AllOver asked own)
    (hstarts : starts.map .ok = asked.map Responding.sending) : Sending.AllEnd starts own := by
  intro index start hstart
  obtain ⟨r, hr, hsending⟩ := exists_asked hstarts hstart
  obtain ⟨s, hs, hended⟩ := h index r hr
  cases hsending.symm.trans hs
  exact hended

theorem allGive_nil (own : Nat → List Choice) : AllGive [] own [] := ⟨rfl, nofun⟩

/-- One more backend, before the others. -/
theorem AllGive.cons {r : Responding} {reply : Option Reply} (hgives : r.MayGive (own 0) reply)
    (h : AllGive asked (fun index => own (index + 1)) given) :
    AllGive (r :: asked) own (reply :: given) where
  length_eq := congrArg (· + 1) h.length_eq
  mayGive := by
    intro index other given' hother hgiven
    cases index with
    | zero =>
      cases hother
      cases hgiven
      exact hgives
    | succ index => exact h.mayGive index other given' hother hgiven

theorem allOver_nil (own : Nat → List Choice) : AllOver [] own := nofun

theorem AllOver.cons {r : Responding} (hover : r.IsOver (own 0))
    (h : AllOver asked fun index => own (index + 1)) : AllOver (r :: asked) own := by
  intro index other hother
  cases index with
  | zero =>
    cases hother
    exact hover
  | succ index => exact h index other hother

end

end Responding

/-! ## Runs of a group -/

section

variable {accepts : ResponseHead → Bool} {given : List (Option Reply)} {ended ended' : Prop}

/-- A run that is on its way owes nothing yet. -/
theorem Sending.OnItsWay.serves {s : Sending} {choices : List Choice} (h : s.OnItsWay choices)
    (calm plain : Prop) (answer : Option Delivery) :
    ((Run.start s).choices choices).Serves accepts given ended calm plain answer where
  once := .inl h.delivered_eq
  first := fun hending => absurd h.ending_eq hending
  returned := by
    intro _ ending hending
    rw [h.ending_eq] at hending
    cases hending
  rests := fun _ hrests => absurd hrests h.busy
  returns := fun _ _ _ hrests => absurd hrests h.busy

/-- A run that has come to a sending owes what a run of that sending owes. -/
theorem Sending.Comes.serves {s t : Sending} {choices next : List Choice}
    (h : s.Comes t choices next) (hover : ended → ended')
    (ht : ((Run.start t).choices next).Serves accepts given ended' (∀ choice ∈ next, choice.Calm)
      (∀ choice ∈ next, choice.Plain) ((Run.start t).answerAfter none next)) :
    ((Run.start s).choices choices).Serves accepts given ended (∀ choice ∈ choices, choice.Calm)
      (∀ choice ∈ choices, choice.Plain) ((Run.start s).answerAfter none choices) := by
  obtain ⟨hsubset, ⟨hsending, hdelivered, hending⟩, hanswer, -⟩ := h
  obtain ⟨honce, hfirst, hreturned, hrests, hreturns⟩ := ht
  rw [← hsending, ← hdelivered, ← hending, ← hanswer] at *
  exact ⟨honce, hfirst, fun hcalm => hreturned fun choice hmem => hcalm choice (hsubset hmem),
    fun h => hrests (hover h), fun hplain hcancel h => hreturns
      (fun choice hmem => hplain choice (hsubset hmem)) hcancel (hover h)⟩

/-- Nothing is delivered or returned before all these notes are made. -/
theorem Sending.Leads.notes_of_seen {s : Sending} {notes : List Note} {c : Contest}
    {lanes : List Sending} (h : s.Leads notes (.broadcast c lanes)) (choices : List Choice)
    (hseen : ((Run.start s).choices choices).delivered ≠ [] ∨
      ((Run.start s).choices choices).ending ≠ none) :
    ∃ later, ((Run.start s).choices choices).notes = notes ++ later := by
  have hprecedes : Sending.Precedes notes (.broadcast c lanes) (Run.start s) :=
    ⟨⟨notes, rfl, h⟩, rfl, rfl⟩
  rcases hprecedes.choices choices with ⟨hbefore, -⟩ | ⟨first, next, rfl, hfirst, -⟩
  · rcases hseen with hdelivered | hending
    · exact absurd hbefore.delivered_eq hdelivered
    · exact absurd hbefore.ending_eq hending
  · rw [Run.choices_append, hfirst]
    exact Run.notes_choices _ next

end

namespace Handler

/-- What backends give when they are asked with copies of a request. -/
def asked (backends : List Handler) (head : RequestHead) (content : Bytes) : List Responding :=
  backends.map fun backend => backend.respond head.copy (Body.ofBytes content)

section

variable {head : RequestHead} {body : Body} {reading : List Note} {content : Bytes}

/-- **A group serves its connection** with the best of what its backends give, under every schedule,
once it has asked all of them. -/
theorem group_serves (accepts : ResponseHead → Bool) {backends : List Handler}
    (hbackends : backends ≠ []) (primary : Nat) (hmethod : head.method.goesToAll = true)
    (hbody : body.content.Yields reading (.ok content))
    (hasked : ∀ backend ∈ backends,
      ∃ s, (backend.respond head.copy (Body.ofBytes content)).sending = .ok s) :
    ∃ s, (Handler.group backends primary (Policy.ofBool accepts)).respond head body = .quiet s ∧
      ∀ (choices : List Choice) (given : List (Option Reply)),
        (Responding.AllGive (asked backends head content) (s.ownIn choices) given →
          ((Run.start s).choices choices).Serves accepts given
            (Responding.AllOver (asked backends head content) (s.ownIn choices))
            (∀ choice ∈ choices, choice.Calm) (∀ choice ∈ choices, choice.Plain)
            ((Run.start s).answerAfter none choices)) ∧
          (((Run.start s).choices choices).delivered ≠ [] ∨
              ((Run.start s).choices choices).ending ≠ none →
            ∃ later, ((Run.start s).choices choices).notes =
              askingNotes reading head content (asked backends head content) ++ later) := by
  obtain ⟨s, race, starts, hrespond, hrace, hstarts, hleads⟩ :=
    leads_group hbackends primary (Policy.ofBool accepts) hmethod hbody hasked
  have hlanes : starts.map .ok = (asked backends head content).map Responding.sending := by
    rw [hstarts, asked, List.map_map]
    rfl
  refine ⟨s, hrespond, fun choices given => ⟨fun hgiven => ?_, hleads.notes_of_seen choices⟩⟩
  rcases hleads.choices choices with hway | ⟨next, hcomes⟩
  · exact hway.serves _ _ _
  · have hown : s.ownIn choices = (Sending.opening accepts race starts).ownIn next :=
      funext hcomes.own_eq
    rw [hown] at hgiven ⊢
    exact hcomes.serves (fun hover => hover.lanes hlanes)
      (Sending.serves_opening hrace (hgiven.lanes hlanes))

/-- **A backend that gives nothing does no harm**, whether it panics while its response is sent,
fails, or returns without one. All backends are asked once before anything else is seen. Under every
schedule the connection is given the best response of the other backends, if it is given any, and
the main task returns nothing but the answer to it. When all lanes have come to their ends and
everything is at rest, that response was given; and so the group gives the same as with any other
backend that gives nothing, and returns the same as well if the cancels of the responses that lose
come to their end. -/
theorem group_isolates (accepts : ResponseHead → Bool) (first later : List Handler)
    (crashing quiet : Handler) (primary : Nat) (hmethod : head.method.goesToAll = true)
    (hbody : body.content.Yields reading (.ok content))
    (hasked : ∀ backend ∈ crashing :: quiet :: (first ++ later),
      ∃ s, (backend.respond head.copy (Body.ofBytes content)).sending = .ok s) :
    ∃ s s', (Handler.group (first ++ crashing :: later) primary (Policy.ofBool accepts)).respond
          head body = .quiet s ∧
        (Handler.group (first ++ quiet :: later) primary (Policy.ofBool accepts)).respond
          head body = .quiet s' ∧
      ∀ (choices choices' : List Choice) (given : List (Option Reply)),
        given[first.length]? = some none →
        Responding.AllGive (asked (first ++ crashing :: later) head content) (s.ownIn choices)
          given →
        Responding.AllGive (asked (first ++ quiet :: later) head content) (s'.ownIn choices')
          given →
        ((Run.start s).choices choices).Serves accepts (given.eraseIdx first.length)
            (Responding.AllOver (asked (first ++ crashing :: later) head content)
              (s.ownIn choices))
            (∀ choice ∈ choices, choice.Calm) (∀ choice ∈ choices, choice.Plain)
            ((Run.start s).answerAfter none choices) ∧
          (((Run.start s).choices choices).delivered ≠ [] ∨
              ((Run.start s).choices choices).ending ≠ none →
            ∃ notes, ((Run.start s).choices choices).notes =
              askingNotes reading head content (asked (first ++ crashing :: later) head content) ++
                notes) ∧
          (Responding.AllOver (asked (first ++ crashing :: later) head content)
              (s.ownIn choices) →
            Responding.AllOver (asked (first ++ quiet :: later) head content)
              (s'.ownIn choices') →
            ((Run.start s).choices choices).sending.Rests →
            ((Run.start s').choices choices').sending.Rests →
            ((Run.start s).choices choices).delivered =
                ((Run.start s').choices choices').delivered ∧
              ((∀ reply ∈ Race.losers accepts given,
                  (HeldReply.cancel [] reply).size.isSome = true) →
                (∀ choice ∈ choices, choice.Plain) → (∀ choice ∈ choices', choice.Plain) →
                (Run.start s).answerAfter none choices =
                    (Run.start s').answerAfter none choices' →
                ((Run.start s).choices choices).ending =
                  ((Run.start s').choices choices').ending)) := by
  have hall : ∀ backend, backend = crashing ∨ backend = quiet →
      ∀ other ∈ first ++ backend :: later,
        ∃ s, (other.respond head.copy (Body.ofBytes content)).sending = .ok s := by
    intro backend hbackend other hmem
    refine hasked other ?_
    rw [List.mem_append, List.mem_cons] at hmem
    rw [List.mem_cons, List.mem_cons, List.mem_append]
    rcases hmem with hfirst | rfl | hlater
    · exact .inr (.inr (.inl hfirst))
    · exact hbackend.imp id .inl
    · exact .inr (.inr (.inr hlater))
  have hsome : ∀ backend, first ++ backend :: later ≠ [] := fun backend =>
    List.append_ne_nil_of_right_ne_nil _ (List.cons_ne_nil _ _)
  -- Both groups serve their connections with the best of what is given, and that is the same
  -- without the backend that gives nothing.
  obtain ⟨s, hrespond, hserves⟩ := group_serves accepts (hsome crashing) primary hmethod hbody
    (hall crashing (.inl rfl))
  obtain ⟨s', hrespond', hserves'⟩ := group_serves accepts (hsome quiet) primary hmethod hbody
    (hall quiet (.inr rfl))
  refine ⟨s, s', hrespond, hrespond', fun choices choices' given hnone hgiven hgiven' => ?_⟩
  obtain ⟨hrun, hasks⟩ := hserves choices given
  have hrun := hrun hgiven
  have hrun' := (hserves' choices' given).1 hgiven'
  refine ⟨hrun.eraseIdx hnone, hasks, fun hover hover' hrests hrests' => ⟨?_, ?_⟩⟩
  · rw [hrun.delivered_eq hover hrests, hrun'.delivered_eq hover' hrests']
  · intro hcancel hplain hplain' hanswer
    rw [hrun.returns hplain hcancel hover hrests, hrun'.returns hplain' hcancel hover' hrests',
      hanswer]

end

/-- The first backend panics while its response is sent, or returns without one; the second one
answers. In one group the main task closes the slot of the first backend, which decides the race,
and replays the response of the second one itself; in the other the second backend does. -/
theorem group_isolates_first :
    (RequestHead.ofLine ⟨.get, ⟨none, none, "/", none⟩, .http11⟩).method.goesToAll = true ∧
      (Body.once [7]).content.Yields [] (.ok [7]) ∧
      (∀ backend ∈ ([.panicsWhenSent 0 "lost", .silent 0 (.ok ()), .fixed (Reply.octets [1])] :
        List Handler), ∃ s, (backend.respond
          (RequestHead.ofLine ⟨.get, ⟨none, none, "/", none⟩, .http11⟩).copy
          (Body.ofBytes [7])).sending = .ok s) ∧
      ∃ (s s' : Sending) (choices choices' : List Choice),
        (Handler.group [.panicsWhenSent 0 "lost", .fixed (Reply.octets [1])] 0
          (Policy.ofBool fun head => head.status == 200)).respond
            (RequestHead.ofLine ⟨.get, ⟨none, none, "/", none⟩, .http11⟩) (.once [7]) = .quiet s ∧
          (Handler.group [.silent 0 (.ok ()), .fixed (Reply.octets [1])] 0
            (Policy.ofBool fun head => head.status == 200)).respond
              (RequestHead.ofLine ⟨.get, ⟨none, none, "/", none⟩, .http11⟩) (.once [7]) =
            .quiet s' ∧
          ((Run.start s').choices choices').delivered = [Reply.octets [1]] ∧
          ((Run.start s').choices choices').ending = some (.returned (.ok ())) ∧
          ((Run.start s).choices choices).delivered =
            ((Run.start s').choices choices').delivered ∧
          ((Run.start s).choices choices).ending = ((Run.start s').choices choices').ending := by
  have hmethod : (RequestHead.ofLine
      ⟨.get, ⟨none, none, "/", none⟩, .http11⟩).method.goesToAll = true := by decide +kernel
  have hbody : (Body.once [7]).content.Yields [] (.ok [7]) := .done _
  have hasked : ∀ backend ∈ ([.panicsWhenSent 0 "lost", .silent 0 (.ok ()),
      .fixed (Reply.octets [1])] : List Handler), ∃ s, (backend.respond
        (RequestHead.ofLine ⟨.get, ⟨none, none, "/", none⟩, .http11⟩).copy
        (Body.ofBytes [7])).sending = .ok s := by
    intro backend hmem
    simp only [List.mem_cons, List.not_mem_nil, or_false] at hmem
    rcases hmem with rfl | rfl | rfl
    · exact ⟨_, rfl⟩
    · exact ⟨_, rfl⟩
    · exact ⟨_, rfl⟩
  have hplain : ∀ early late : List Path, ∀ choice ∈ early.map Choice.task ++
      .answer (.result (.ok ())) :: late.map Choice.task, choice.Plain := by
    intro early late choice hmem response hchoice
    subst hchoice
    simp only [List.mem_append, List.mem_cons, List.mem_map, reduceCtorEq, and_false, exists_false,
      false_or, or_false, Choice.answer.injEq] at hmem
    exact ⟨_, hmem⟩
  have hrests : ∀ (s : Sending) (c : Contest), s = .broadcast c [.ended, .ended] →
      c.main = .gone → s.Rests := by
    rintro _ c rfl hmain
    exact Sending.rests_broadcast hmain (by simp [Sending.rests_ended])
  obtain ⟨s, s', hs, hs', hall⟩ := group_isolates (fun head => head.status == 200) []
    [.fixed (Reply.octets [1])] (.panicsWhenSent 0 "lost") (.silent 0 (.ok ())) 0 hmethod hbody
    hasked
  cases hs
  cases hs'
  obtain ⟨-, -, hsame⟩ := hall
    ([[], [], [1], [1], [0], [], [], [], []].map Choice.task ++ .answer (.result (.ok ())) ::
      [[], [], [], []].map Choice.task)
    ([[], [], [0], [1]].map Choice.task ++ .answer (.result (.ok ())) ::
      [[1], [], [], [], [], [], [], [], []].map Choice.task)
    [none, some (Reply.octets [1])] rfl
    (.cons ⟨_, rfl, .panicked rfl rfl⟩ (.cons ⟨_, rfl, .delivered rfl
      (Sending.not_endsUntold rfl)⟩ (Responding.allGive_nil _)))
    (.cons ⟨_, rfl, .returned rfl rfl⟩ (.cons ⟨_, rfl, .delivered rfl
      (Sending.not_endsUntold rfl)⟩ (Responding.allGive_nil _)))
  obtain ⟨hdelivered, hending⟩ := hsame
    (.cons ⟨_, rfl, Option.some_ne_none _⟩ (.cons ⟨_, rfl, Option.some_ne_none _⟩
      (Responding.allOver_nil _)))
    (.cons ⟨_, rfl, Option.some_ne_none _⟩ (.cons ⟨_, rfl, Option.some_ne_none _⟩
      (Responding.allOver_nil _)))
    (hrests _ _ rfl rfl) (hrests _ _ rfl rfl)
  exact ⟨hmethod, hbody, hasked, _, _, _, _, rfl, rfl, rfl, rfl, hdelivered,
    hending nofun (hplain _ _) (hplain _ _) rfl⟩

end Handler

end Switchboard
