import Switchboard.Proofs.Delivery.Approach
import Switchboard.Proofs.Delivery.Fulfilment
import Switchboard.Proofs.Handler.Group
import Switchboard.Proofs.Handler.Lineup
set_option autoImplicit false

/-! # Panics before the lanes

The main task of a group asks the backends itself. When one of them panics then, those after it are
not asked any more, and all that is left of the main task is its panic: it starts the lanes that it
has prepared and unwinds (`MainPhase.Unwinds`). So it never returns a result, whatever the other
backends, the connection and the schedule do (`Handler.group_unwinds`). -/

namespace Switchboard

/-! ## The lineup -/

namespace Handler

/-- The first backend that panics when it is asked is the one that a lineup ends with. -/
theorem panic_respondAll {first : List Handler} {crashing : Handler} {head : RequestHead}
    {body : Body} {message : String}
    (hfirst : ∀ backend ∈ first, ∃ s, (backend.respond head body).sending = .ok s)
    (hpanics : (crashing.respond head body).sending = .error message) (later : List Handler) :
    (respondAll (first ++ crashing :: later) head body).panic = some message := by
  induction first with
  | nil => rw [List.nil_append, respondAll, Lineup.cons, hpanics]
  | cons backend rest ih =>
    obtain ⟨s, hs⟩ := hfirst backend List.mem_cons_self
    rw [List.cons_append, respondAll, Lineup.cons, hs]
    exact ih fun other hother => hfirst other (List.mem_cons_of_mem _ hother)

end Handler

/-! ## The main task -/

/-- **A main task that unwinds** with this panic, and how it has ended. -/
inductive MainPhase.Unwinds (message : String) : MainPhase → Option Ending → Prop where
  | spawning : Unwinds message (.spawning (some message)) none
  | panicking : Unwinds message (.panicking message) none
  | gone : Unwinds message .gone (some (.panicked message))

section

variable {message : String} {policy : Policy} {told : List (Option Report)}
  {delivered : List Reply} {ending : Option Ending} {c c' : Contest} {lanes : List Sending}

theorem MainPhase.Unwinds.ending_eq {main : MainPhase} (h : main.Unwinds message ending) :
    ending = none ∨ ending = some (.panicked message) := by
  cases h with
  | spawning => exact .inl rfl
  | panicking => exact .inl rfl
  | gone => exact .inr rfl

/-- It closes no slot and replays no response. -/
theorem MainPhase.Unwinds.ne_closing {main : MainPhase} (h : main.Unwinds message ending)
    (next : Nat) : main ≠ .closing next := by
  cases h <;> exact nofun

/-- **Each move keeps it**: the lanes and the connection have no part in it. -/
theorem MainPhase.Unwinds.moves (hunderway : Underway policy told delivered ending c lanes)
    (h : c.main.Unwinds message ending) {choice : Choice} {going : Option (Nat × List Choice)}
    {report : Option (Nat × Report)} {gives : List Reply} {ends : Option Ending}
    (hmoves : Moves c lanes choice going report gives ends c') :
    c'.main.Unwinds message (ending <|> ends) := by
  have hsame : ∀ {main : MainPhase}, main = c.main →
      main.Unwinds message (ending <|> (none : Option Ending)) := by
    rintro _ rfl
    cases ending <;> exact h
  cases hmoves with
  | mainRests hrests => exact hsame rfl
  | laneRests hrests => exact hsame rfl
  | ignores hreplay => exact hsame rfl
  | runs hfree hlane hdelivered hending => exact hsame rfl
  | panics hfree hlane hsignal => exact hsame rfl
  | main hgoes =>
    generalize hmain : c.main = main at h
    cases h with
    | spawning => cases hgoes <;> simp_all [MainPhase.Unwinds.panicking]
    | panicking => cases hgoes <;> simp_all [MainPhase.Unwinds.gone]
    | gone => cases hgoes <;> simp_all
  | closes hmain hown hlt hphase hclosed => exact absurd hmain (h.ne_closing _)
  | delivers hfree hlane hsignal hreceived =>
    exact hsame (Contest.sameTasks_of_receive hreceived).main_eq
  | @returns index lane result closed hfree hlane hsignal hclosed =>
    have hmain : (closed.1.laneTold index closed.2.2).main = closed.1.main := by
      rcases closed.2.2 with (_ | _ | _) | _ <;> rfl
    exact hsame (hmain.trans (Contest.sameTasks_of_closeSlot hclosed).main_eq)
  | answersMain hreplay hconcluded =>
    -- Whoever replays a response as the main task is closing slots.
    obtain ⟨next, hmain⟩ := hunderway.owned.main_of_replay _ hreplay
    exact absurd hmain (h.ne_closing next)
  | @answersReplay response index losers concluded hreplay hconcluded hphase =>
    have hmain : (concluded.1.laneTold index (.answers concluded.2.2)).main = concluded.1.main := by
      rcases concluded.2.2 with _ | _ | _ <;> rfl
    exact hsame (hmain.trans (Contest.concludes_of_conclude hconcluded).main_eq)
  | answersLane hreplay hconcluded hphase =>
    exact hsame (Contest.concludes_of_conclude hconcluded).main_eq

end

/-! ## Runs -/

section

variable {message : String} {policy : Policy} {told : List (Option Report)} {r : Run}

/-- A run of a broadcast whose main task unwinds. -/
def Run.Unwinds (message : String) (policy : Policy) (told : List (Option Report)) (r : Run) :
    Prop :=
  ∃ c lanes, r.sending = .broadcast c lanes ∧
    Underway policy told r.delivered r.ending c lanes ∧ c.main.Unwinds message r.ending

/-- **Each choice keeps it.** -/
theorem Run.Unwinds.choose (h : r.Unwinds message policy told) (choice : Choice) :
    (r.choose choice).Unwinds message policy
      (Contest.tell? told (r.sending.slotReport? choice)) := by
  obtain ⟨c, lanes, hsending, hunderway, hunwinds⟩ := h
  obtain ⟨c', hnext, hmoves⟩ := Sending.moves_after c lanes choice
  refine ⟨c', _, by rw [Run.sending_choose, hsending, hnext], ?_, ?_⟩
  · rw [Run.delivered_choose, Run.ending_choose, hsending]
    exact hunderway.moves hmoves
  · rw [Run.ending_choose, hsending]
    exact hunwinds.moves hunderway hmoves

/-- **Each run keeps it**, so it ends with the panic, if it ends. -/
theorem Run.Unwinds.ending_choices (h : r.Unwinds message policy told) (list : List Choice) :
    (r.choices list).ending = none ∨ (r.choices list).ending = some (.panicked message) := by
  induction list generalizing r told with
  | nil =>
    obtain ⟨c, lanes, -, -, hunwinds⟩ := h
    exact hunwinds.ending_eq
  | cons choice rest ih => exact ih (h.choose choice)

/-- Nothing is delivered any more when there are no lanes and the main task is gone. -/
theorem Run.delivered_choices_of_gone {c : Contest} (hsending : r.sending = .broadcast c [])
    (hmain : c.main = .gone) (hreplay : c.replay = none) (list : List Choice) :
    (r.choices list).delivered = r.delivered := by
  obtain ⟨policy, race, states, main, replay, verdict⟩ := c
  dsimp only at hmain hreplay
  subst hmain hreplay
  induction list generalizing r with
  | nil => rfl
  | cons choice rest ih =>
    have hstays : (r.choose choice).sending = r.sending ∧
        (r.choose choice).delivered = r.delivered := by
      rw [Run.sending_choose, Run.delivered_choose, hsending]
      rcases choice with (_ | ⟨index, path⟩) | response
      · exact ⟨rfl, List.append_nil _⟩
      · rw [Sending.gives, Sending.after, Sending.step, Sending.stepLane]
        split <;> exact ⟨rfl, List.append_nil _⟩
      · exact ⟨rfl, List.append_nil _⟩
    exact (ih (hstays.1.trans hsending)).trans hstays.2

end

/-! ## Groups -/

namespace Handler

/-- **A backend that panics when it is asked unwinds its group**, whatever the other backends, the
policy and the connection do, and in whatever order: the main task never comes to its end but with
the panic. -/
theorem group_unwinds {first : List Handler} {crashing : Handler} (later : List Handler)
    (primary : Nat) (policy : Policy) {head : RequestHead} {body : Body} {reading : List Note}
    {content : Bytes} {message : String} (hmethod : head.method.goesToAll = true)
    (hbody : body.content.Yields reading (.ok content))
    (hfirst : ∀ backend ∈ first,
      ∃ s, (backend.respond head.copy (Body.ofBytes content)).sending = .ok s)
    (hpanics : (crashing.respond head.copy (Body.ofBytes content)).sending = .error message) :
    ∃ s, (Handler.group (first ++ crashing :: later) primary policy).respond head body =
        .quiet s ∧
      ∀ choices : List Choice, ((Run.start s).choices choices).ending = none ∨
        ((Run.start s).choices choices).ending = some (.panicked message) := by
  have hbackends : first ++ crashing :: later ≠ [] :=
    List.append_ne_nil_of_right_ne_nil _ (List.cons_ne_nil _ _)
  obtain ⟨s, race, hrespond, hrace, hleads⟩ :=
    leads_lineup hbackends primary policy hmethod hbody rfl
  have hunderway := underway_lineup policy hrace head.copy (Body.ofBytes content)
  rw [panic_respondAll hfirst hpanics later] at hleads hunderway
  refine ⟨s, hrespond, fun choices => ?_⟩
  rcases hleads.choices choices with hway | ⟨next, hcomes⟩
  · exact .inl hway.ending_eq
  · rw [hcomes.alike.ending_eq]
    have hstart : (Run.start (.broadcast (.start policy race _ (some message)) _)).Unwinds message
        policy _ := ⟨_, _, rfl, hunderway, .spawning⟩
    exact hstart.ending_choices next

/-- The first backend panics when it is asked, and the second one would have answered: the group
never returns a result, and in this run its connection is given nothing, now or later. With a
backend in the place of the first one that returns without a response, the response of the second
one is given, and the answer to it is returned. -/
theorem group_unwinds_unlike_silent :
    ∃ (s s' : Sending) (choices choices' : List Choice),
      (Handler.group [.panicsWhenAsked "lost", .fixed (Reply.octets [1])] 0
          Policy.successOrRedirect).respond
            (RequestHead.ofLine ⟨.get, ⟨none, none, "/", none⟩, .http11⟩) .empty = .quiet s ∧
        (Handler.group [.silent 0 (.ok ()), .fixed (Reply.octets [1])] 0
          Policy.successOrRedirect).respond
            (RequestHead.ofLine ⟨.get, ⟨none, none, "/", none⟩, .http11⟩) .empty = .quiet s' ∧
        (∀ list, ((Run.start s).choices list).ending = none ∨
          ((Run.start s).choices list).ending = some (.panicked "lost")) ∧
        ((Run.start s).choices choices).ending = some (.panicked "lost") ∧
        (∀ more, (((Run.start s).choices choices).choices more).delivered = []) ∧
        ((Run.start s').choices choices').delivered = [Reply.octets [1]] ∧
        ((Run.start s').choices choices').ending = some (.returned (.ok ())) := by
  have hmethod : (RequestHead.ofLine
      ⟨.get, ⟨none, none, "/", none⟩, .http11⟩).method.goesToAll = true := by decide +kernel
  have hpanics : (Handler.panicsWhenAsked "lost").respond
      (RequestHead.ofLine ⟨.get, ⟨none, none, "/", none⟩, .http11⟩).copy (Body.ofBytes []) =
        ⟨[], .error "lost"⟩ := by rw [respond]
  have hfirst : ∀ backend ∈ ([] : List Handler), ∃ s, (backend.respond
      (RequestHead.ofLine ⟨.get, ⟨none, none, "/", none⟩, .http11⟩).copy
      (Body.ofBytes [])).sending = .ok s := fun _ hmem => absurd hmem List.not_mem_nil
  have hbody : Body.empty.content.Yields [] (.ok []) := .done _
  obtain ⟨s, hrespond, hends⟩ := group_unwinds [.fixed (Reply.octets [1])] 0
    Policy.successOrRedirect hmethod hbody hfirst (congrArg Responding.sending hpanics)
  cases hrespond
  refine ⟨_, _, [[], [], []].map .task, [[], [], [0], [1]].map .task ++
    .answer (.result (.ok ())) :: [[1], [], [], [], [], [], [], [], []].map .task,
    rfl, rfl, hends, ?_, ?_, ?_, ?_⟩
  · rfl
  · exact Run.delivered_choices_of_gone rfl rfl rfl
  · rfl
  · rfl

end Handler

end Switchboard
