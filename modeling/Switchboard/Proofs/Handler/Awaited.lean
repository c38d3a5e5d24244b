import Switchboard.Proofs.Delivery.Crowds
import Switchboard.Proofs.Delivery.Once
import Switchboard.Proofs.Handler.Trees
set_option autoImplicit false

/-! # Handlers that come later

A request to a handler that is still awaited stays as it is until the wait is over. Then the handler
is asked, once and with this request, and from that moment on the run is the one that begins with
the response of the handler itself; if there is no handler after all, the response is a 500 with the
reason. `Awaiting` says how far a request is before that moment, `Awaiting.tryChoice` that one step
leaves it there or comes to just that moment, and `Crowd.run_later` what follows for any number
of requests that are made and go on in any order, before the wait is over or after it. -/

namespace Switchboard

open Incident (askedIn choicesIn aloneIn)

/-- A handler that is there after a shared wait, or that turns out not to be. -/
def Handler.later (key ms : Nat) : Except String Handler → Handler
  | .ok handler => .awaited key ms handler
  | .error cause => .awaitedFailure key ms cause

/-- The response that is given once the wait is over. -/
def Handler.answer (result : Except String Handler) (head : RequestHead) (body : Body) :
    Responding :=
  match result with
  | .ok handler => handler.respond head body
  | .error cause => .quiet (.failed cause)

/-- The sending that is left when a handler has been asked by the task that sends the response. -/
def Responding.rest (r : Responding) : Sending :=
  match r.sending with
  | .ok s => s
  | .error message => .panics message

/-- No task can change anything while only these shared waits are over. -/
def Run.Halts (past : List Nat) (r : Run) : Prop :=
  ∀ path, (r.tryChoice past (.task path)).sending = r.sending

/-- **A request that has not been handed over yet**: nothing is seen of it but first notes of the
handler, and once these waits are over it does not halt. -/
structure Run.Pends (key : Nat) (past : List Nat) (answer : Responding) (r : Run) : Prop where
  delivered_eq : r.delivered = []
  ending_eq : r.ending = none
  notes_prefix : r.notes <+: answer.notes
  busy : key ∈ past → ¬ r.Halts past

/-- **A request that has been handed over** between these incidents: its run was just the one that
begins with this response, and then it went on as if it were alone, by what happened next to it. -/
structure Crowd.HandedOver (key request : Nat) (answer : Responding) (before after : List Incident)
    (r : Run) : Prop where
  resolved : .resolves key ∈ before
  begun : (empty.afterAll before).runs[request]? = some answer.begun
  alone : ((⟨(empty.afterAll before).past, [answer.begun]⟩ : Crowd).afterAll
    (aloneIn after request)).runs[0]? = some r
  goesOn : ∃ next, next.Sublist (choicesIn after request) ∧ r = answer.begun.choices next

/-! ## Before the handler has been asked -/

/-- **How far a request is before its handler has been asked**: it waits, or the wait is over and
the task that sends the response makes the notes of the handler, after which the handler may panic.
-/
inductive Awaiting (key ms : Nat) (answer : Responding) (past : List Nat) : Run → Prop where
  | waits : Awaiting key ms answer past (Run.start (.afterShared key ms answer.inline))
  | noting (hpast : key ∈ past) {note : Note} {made left : List Note}
      (hnotes : made ++ note :: left = answer.notes) :
      Awaiting key ms answer past ⟨.note note (.afterNotes left answer.rest), made, [], none⟩
  | breaks (hpast : key ∈ past) {message : String} (hsending : answer.sending = .error message) :
      Awaiting key ms answer past ⟨.panics message, answer.notes, [], none⟩

section

variable {key ms : Nat} {answer : Responding} {past : List Nat} {r : Run}

theorem Awaiting.mono (h : Awaiting key ms answer past r) {past' : List Nat}
    (hpast : past ⊆ past') : Awaiting key ms answer past' r := by
  cases h with
  | waits => exact .waits
  | noting hkey hnotes => exact .noting (hpast hkey) hnotes
  | breaks hkey hsending => exact .breaks (hpast hkey) hsending

/-- The handler has been asked when all its notes are made, unless it panics. -/
theorem Awaiting.asked (hpast : key ∈ past) {made left : List Note}
    (hnotes : made ++ left = answer.notes) :
    Awaiting key ms answer past ⟨.afterNotes left answer.rest, made, [], none⟩ ∨
      key ∈ past ∧ ⟨.afterNotes left answer.rest, made, [], none⟩ = answer.begun := by
  cases left with
  | cons note left => exact .inl (.noting hpast hnotes)
  | nil =>
    obtain rfl : made = answer.notes := by rw [← hnotes, List.append_nil]
    rw [Responding.begun, Responding.rest]
    cases hsending : answer.sending with
    | error message => exact .inl (.breaks hpast hsending)
    | ok s => exact .inr ⟨hpast, rfl⟩

/-- **What happens next to a request** whose handler has not been asked yet. It goes on only if the
wait is over, and then it comes to the run of the response that the handler gives. -/
theorem Awaiting.tryChoice (h : Awaiting key ms answer past r) (choice : Choice) :
    Awaiting key ms answer past (r.tryChoice past choice) ∨
      key ∈ past ∧ r.tryChoice past choice = answer.begun := by
  cases h with
  | waits =>
    rcases choice with (_ | ⟨index, path⟩) | response
    · by_cases hpast : key ∈ past
      · have hpermits : (Run.start (.afterShared key ms answer.inline)).permits past (.task []) =
            true := List.contains_iff_mem.mpr hpast
        rw [Run.tryChoice, if_pos hpermits]
        exact Awaiting.asked hpast (List.nil_append _)
      · have hpermits : ¬ (Run.start (.afterShared key ms answer.inline)).permits past (.task []) =
            true := fun h => hpast (List.contains_iff_mem.mp h)
        rw [Run.tryChoice, if_neg hpermits]
        exact .inl .waits
    · exact .inl .waits
    · exact .inl .waits
  | @noting hpast note made left hnotes =>
    have hsame : made ++ [] ++ note :: left = answer.notes := by rw [List.append_nil, hnotes]
    rcases choice with (_ | ⟨index, path⟩) | response
    · have hmade : made ++ [note] ++ left = answer.notes := by
        rw [← hnotes, List.append_assoc]
        rfl
      exact Awaiting.asked hpast hmade
    · exact .inl (.noting hpast hsame)
    · exact .inl (.noting hpast hsame)
  | @breaks hpast message hsending =>
    have hstays : Awaiting key ms answer past
        ⟨.panics message, answer.notes ++ [], [], none⟩ := by
      rw [List.append_nil]
      exact .breaks hpast hsending
    rcases choice with (_ | ⟨index, path⟩) | response
    · have hbegun : ⟨.ended, answer.notes ++ [], [], some (.panicked message)⟩ = answer.begun := by
        rw [Responding.begun, hsending, List.append_nil]
      exact .inr ⟨hpast, hbegun⟩
    · exact .inl hstays
    · exact .inl hstays

theorem Awaiting.untouched (h : Awaiting key ms answer past r) (hpast : key ∉ past) :
    r = Run.start (.afterShared key ms answer.inline) := by
  cases h with
  | waits => rfl
  | noting hkey => exact absurd hkey hpast
  | breaks hkey => exact absurd hkey hpast

theorem Awaiting.delivered_eq (h : Awaiting key ms answer past r) : r.delivered = [] := by
  cases h <;> rfl

theorem Awaiting.ending_eq (h : Awaiting key ms answer past r) : r.ending = none := by
  cases h <;> rfl

/-- The task that sends the response has something to do. -/
theorem Awaiting.step_ne (h : Awaiting key ms answer past r) :
    (r.sending.step []).next ≠ r.sending := by
  intro hnext
  have hrank := congrArg Sending.rank hnext
  cases h with
  | waits => simp [Run.start, Sending.afterShared, Sending.step, Sending.rank] at hrank
  | noting hpast hnotes => simp [Sending.step, Sending.rank] at hrank
  | breaks hpast hsending => simp [Sending.step, Sending.rank] at hrank

/-- Once the wait is over it can do so. -/
theorem Awaiting.permits (h : Awaiting key ms answer past r) (hpast : key ∈ past) :
    r.permits past (.task []) = true := by
  cases h with
  | waits => exact List.contains_iff_mem.mpr hpast
  | noting hkey hnotes => rfl
  | breaks hkey hsending => rfl

theorem Awaiting.pends (h : Awaiting key ms answer past r) : r.Pends key past answer where
  delivered_eq := h.delivered_eq
  ending_eq := h.ending_eq
  notes_prefix := by
    cases h with
    | waits => exact List.nil_prefix
    | noting hkey hnotes => exact ⟨_, hnotes⟩
    | breaks hkey hsending => exact List.prefix_rfl
  busy := by
    intro hpast hhalts
    have hnext := hhalts []
    rw [Run.tryChoice, if_pos (h.permits hpast), Run.sending_choose] at hnext
    exact h.step_ne hnext

/-- It owes its response still. -/
theorem Awaiting.honours (h : Awaiting key ms answer past r) (reply : Reply) (calm plain : Prop) :
    r.Honours [] reply calm plain none := by
  have hbusy : ¬ r.sending.Rests := fun hrests => h.step_ne (hrests [])
  refine ⟨.inl h.delivered_eq, fun hended => absurd h.ending_eq hended,
    fun hrests => absurd hrests hbusy, fun _ ending heq => ?_,
    fun _ _ hrests => absurd hrests hbusy⟩
  rw [h.ending_eq] at heq
  cases heq

end

theorem Handler.begun_later (key ms : Nat) (result : Except String Handler) (head : RequestHead)
    (body : Body) :
    ((later key ms result).respond head body).begun =
      Run.start (.afterShared key ms (answer result head body).inline) := by
  cases result <;> rfl

section

variable {key ms : Nat} {answer : Responding} {r : Run} {request : Nat}

/-- **One incident** leaves the request where it is, or comes to the moment at which its run is just
the one that begins with the response of the handler. -/
theorem Crowd.after_awaiting (crowd : Crowd) (incident : Incident)
    (hrun : crowd.runs[request]? = some r) (h : Awaiting key ms answer crowd.past r) :
    (∃ r', (crowd.after incident).runs[request]? = some r' ∧
        Awaiting key ms answer (crowd.after incident).past r') ∨
      key ∈ (crowd.after incident).past ∧
        (crowd.after incident).runs[request]? = some answer.begun := by
  have hpast := crowd.past_subset incident
  have hafter := crowd.run_after incident request hrun
  cases hchoice : incident.choice? request with
  | none =>
    rw [hchoice] at hafter
    exact .inl ⟨r, hafter, h.mono hpast⟩
  | some choice =>
    rw [hchoice] at hafter
    rcases h.tryChoice choice with hstill | ⟨hkey, hbegun⟩
    · exact .inl ⟨_, hafter, hstill.mono hpast⟩
    · exact .inr ⟨hpast hkey, hbegun ▸ hafter⟩

/-- **Any incidents** leave it on its way, or there is such a moment. -/
theorem Crowd.afterAll_awaiting (crowd : Crowd) (incidents : List Incident)
    (hrun : crowd.runs[request]? = some r) (h : Awaiting key ms answer crowd.past r) :
    (∃ r', (crowd.afterAll incidents).runs[request]? = some r' ∧
        Awaiting key ms answer (crowd.afterAll incidents).past r') ∨
      ∃ before after, incidents = before ++ after ∧ key ∈ (crowd.afterAll before).past ∧
        (crowd.afterAll before).runs[request]? = some answer.begun := by
  induction incidents generalizing crowd r with
  | nil => exact .inl ⟨r, hrun, h⟩
  | cons incident rest ih =>
    rcases crowd.after_awaiting incident hrun h with ⟨r', hrun', h'⟩ | ⟨hkey, hbegun⟩
    · rcases ih (crowd.after incident) hrun' h' with hstill | ⟨before, after, rfl, hmoment⟩
      · exact .inl hstill
      · exact .inr ⟨incident :: before, after, rfl, hmoment⟩
    · exact .inr ⟨[incident], rest, rfl, hkey, hbegun⟩

end

/-! ## Failures -/

namespace Sending

/-- A sending that waits for nothing but its connection. -/
def Prompt : Sending → Prop
  | .note _ next => next.Prompt
  | .pause _ _ => False
  | .wrapped _ _ => False
  | .detached _ _ _ => False
  | .broadcast _ _ => False
  | _ => True

theorem Prompt.after {s : Sending} (h : s.Prompt) (choice : Choice) : (s.after choice).Prompt := by
  cases s with
  | note n next => rcases choice with (_ | ⟨index, path⟩) | response <;> exact h
  | delivered => rcases choice with (_ | ⟨index, path⟩) | (_ | _ | _) <;> trivial
  | pause _ _ | wrapped _ _ | detached _ _ _ | broadcast _ _ => cases h
  | _ => rcases choice with (_ | ⟨index, path⟩) | response <;> trivial

end Sending

section

variable {r : Run} {past : List Nat}

theorem Run.permits_of_prompt (h : r.sending.Prompt) (choice : Choice) :
    r.permits past choice = true := by
  rcases choice with path | response
  · rw [permits]
    cases hsending : r.sending with
    | pause _ _ | wrapped _ _ | detached _ _ _ | broadcast _ _ => rw [hsending] at h; cases h
    | _ => cases path <;> rfl
  · rfl

theorem Run.prompt_choices (h : r.sending.Prompt) (choices : List Choice) :
    (r.choices choices).sending.Prompt := by
  induction choices generalizing r with
  | nil => exact h
  | cons choice rest ih =>
    refine ih ?_
    rw [sending_choose]
    exact h.after choice

/-- Nothing holds such a sending up but its connection. -/
theorem Run.Halts.rests (h : r.Halts past) (hprompt : r.sending.Prompt) : r.sending.Rests := by
  intro path
  have hpath := h path
  rwa [tryChoice, if_pos (permits_of_prompt hprompt _), sending_choose] at hpath

end

theorem Responding.delivered_begun_once (answer : Responding) (choices : List Choice) :
    (answer.begun.choices choices).delivered.length ≤ 1 := by
  have hnone : answer.begun.delivered = [] := by
    rw [begun]
    cases answer.sending <;> rfl
  rw [(Run.seen_choices answer.begun choices).1, hnone, List.nil_append]
  exact Run.delivered_once _ choices

namespace Crowd

section

variable {incidents : List Incident} {request key ms : Nat} {result : Except String Handler}
  {head : RequestHead} {body : Body}

theorem mem_past_iff : key ∈ (empty.afterAll incidents).past ↔ .resolves key ∈ incidents :=
  (empty.mem_past_afterAll incidents key).trans (or_iff_right List.not_mem_nil)

/-- **A request to a handler that comes later** still waits for it, or it has been handed over. -/
theorem run_later
    (hasked : (askedIn incidents)[request]? = some (.later key ms result, head, body)) :
    ∃ r, (empty.afterAll incidents).runs[request]? = some r ∧
      (Awaiting key ms (Handler.answer result head body) (empty.afterAll incidents).past r ∨
        ∃ before after, incidents = before ++ after ∧
          HandedOver key request (Handler.answer result head body) before after r) := by
  obtain ⟨before, after, rfl, hlength⟩ := empty.asked_afterAll incidents request hasked
  have hsplit (rest : List Incident) :
      empty.afterAll (before ++ .asks (.later key ms result) head body :: rest) =
        ((empty.afterAll before).after (.asks (.later key ms result) head body)).afterAll rest :=
    afterAll_append empty before _
  have hrun : ((empty.afterAll before).after
      (.asks (.later key ms result) head body)).runs[request]? =
        some (Run.start (.afterShared key ms (Handler.answer result head body).inline)) := by
    have hrequest : (empty.afterAll before).runs.length = request := hlength.trans (Nat.zero_add _)
    rw [Crowd.after, Handler.begun_later, ← hrequest]
    exact List.getElem?_concat_length
  rcases afterAll_awaiting _ after hrun .waits with
    ⟨r, hlast, hstill⟩ | ⟨first, later, rfl, hkey, hbegun⟩
  · rw [← hsplit] at hlast hstill
    exact ⟨r, hlast, .inl hstill⟩
  · rw [← hsplit] at hkey hbegun
    obtain ⟨next, hnext, hlast⟩ := run_afterAll _ later request hbegun
    have halone := run_alone _ later request hbegun
    rw [hlast] at halone
    have hincidents : before ++ .asks (.later key ms result) head body :: (first ++ later) =
        (before ++ .asks (.later key ms result) head body :: first) ++ later :=
      (List.append_assoc before (.asks (.later key ms result) head body :: first) later).symm
    rw [hincidents, afterAll_append]
    exact ⟨_, hlast, .inr ⟨_, later, rfl, mem_past_iff.mp hkey, hbegun, halone.symm, next, hnext,
      rfl⟩⟩

end

end Crowd

end Switchboard
