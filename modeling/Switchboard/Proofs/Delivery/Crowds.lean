import Switchboard.Delivery.Crowd
import Switchboard.Proofs.Delivery.Moves
set_option autoImplicit false

/-! # Runs in a crowd

Each request of a crowd has a run of its own: it begins when the request is made
(`Crowd.asked_afterAll`) and goes on by what happens next to it (`Crowd.run_after`). All other
incidents matter to it only in that shared waits come to be over, so it goes on as if it were alone
(`Crowd.run_alone`).

The requests are those of any slices, and the shared waits the futures of `AsyncSlice`. -/

namespace Switchboard

namespace Incident

theorem askedIn_cons (incident : Incident) (rest : List Incident) :
    askedIn (incident :: rest) = incident.asked?.toList ++ askedIn rest := by
  cases incident <;> rfl

theorem choicesIn_cons (incident : Incident) (rest : List Incident) (request : Nat) :
    choicesIn (incident :: rest) request =
      (incident.choice? request).toList ++ choicesIn rest request := by
  rw [choicesIn, List.filterMap_cons]
  cases incident.choice? request <;> rfl

theorem aloneIn_cons (incident : Incident) (rest : List Incident) (request : Nat) :
    aloneIn (incident :: rest) request =
      (incident.alone? request).toList ++ aloneIn rest request := by
  rw [aloneIn, List.filterMap_cons]
  cases incident.alone? request <;> rfl

end Incident

namespace Crowd

open Incident (askedIn choicesIn aloneIn askedIn_cons choicesIn_cons aloneIn_cons)

section

variable (crowd : Crowd) (incident : Incident) (first next : List Incident) (request : Nat)

theorem afterAll_cons : crowd.afterAll (incident :: next) = (crowd.after incident).afterAll next :=
  rfl

theorem afterAll_append : crowd.afterAll (first ++ next) = (crowd.afterAll first).afterAll next :=
  List.foldl_append

/-- A wait is over from the incident on that resolves it. -/
theorem mem_past_afterAll (key : Nat) :
    key ∈ (crowd.afterAll next).past ↔ key ∈ crowd.past ∨ .resolves key ∈ next := by
  induction next generalizing crowd with
  | nil => exact (or_iff_left List.not_mem_nil).symm
  | cons incident rest ih =>
    rw [afterAll_cons, ih, List.mem_cons]
    cases incident with
    | resolves other => simp [after, or_assoc, or_left_comm]
    | _ => simp [after]

/-- No wait is resumed. -/
theorem past_subset : crowd.past ⊆ (crowd.after incident).past := by
  cases incident with
  | resolves key => exact List.subset_cons_self key crowd.past
  | _ => exact List.Subset.refl _

/-- There is a run for everything that is asked. -/
theorem length_afterAll :
    (crowd.afterAll next).runs.length = crowd.runs.length + (askedIn next).length := by
  induction next generalizing crowd with
  | nil => rfl
  | cons incident rest ih =>
    rw [afterAll_cons, ih, askedIn_cons, List.length_append, ← Nat.add_assoc]
    refine congrArg (· + _) ?_
    cases incident with
    | asks handler head body => exact List.length_append
    | resolves key => rfl
    | goesOn request choice => exact List.length_modify _ _ _

/-- **A run in a crowd** goes on by what happens next to it, and by nothing else. -/
theorem run_after {r : Run} (hrun : crowd.runs[request]? = some r) :
    (crowd.after incident).runs[request]? =
      some ((incident.choice? request).elim r fun choice => r.tryChoice crowd.past choice) := by
  cases incident with
  | asks handler head body =>
    have hlt : request < crowd.runs.length := (List.getElem?_eq_some_iff.mp hrun).1
    exact (List.getElem?_append_left hlt).trans hrun
  | resolves key => exact hrun
  | goesOn other choice =>
    rw [after, List.getElem?_modify, hrun, Incident.choice?]
    by_cases hsame : other = request
    · rw [if_pos hsame]; simp [hsame]
    · rw [if_neg hsame]; simp [hsame]

theorem run_afterAll {r : Run} (hrun : crowd.runs[request]? = some r) :
    ∃ own, own.Sublist (choicesIn next request) ∧
      (crowd.afterAll next).runs[request]? = some (r.choices own) := by
  induction next generalizing crowd r with
  | nil => exact ⟨[], List.Sublist.refl _, hrun⟩
  | cons incident rest ih =>
    obtain ⟨own, hown, hrest⟩ := ih (crowd.after incident) (crowd.run_after incident request hrun)
    rw [choicesIn_cons, afterAll_cons, hrest]
    cases incident.choice? request with
    | none => exact ⟨own, hown, rfl⟩
    | some choice =>
      rw [Option.elim_some, Run.tryChoice]
      split
      · exact ⟨choice :: own, hown.cons_cons choice, rfl⟩
      · exact ⟨own, hown.cons choice, rfl⟩

/-- **A run in a crowd goes on as if it were alone.** -/
theorem run_alone {r : Run} (hrun : crowd.runs[request]? = some r) :
    (crowd.afterAll next).runs[request]? =
      ((⟨crowd.past, [r]⟩ : Crowd).afterAll (aloneIn next request)).runs[0]? := by
  induction next generalizing crowd r with
  | nil => exact hrun
  | cons incident rest ih =>
    rw [afterAll_cons, ih (crowd.after incident) (crowd.run_after incident request hrun),
      aloneIn_cons]
    cases incident with
    | asks handler head body => rfl
    | resolves key => rfl
    | goesOn other choice =>
      rw [Incident.choice?, Incident.alone?]
      by_cases hsame : other = request
      · rw [if_pos hsame, if_pos hsame]
        rfl
      · rw [if_neg hsame, if_neg hsame]
        rfl

/-- **What is asked gets the next number.** -/
theorem asked_afterAll {handler : Handler} {head : RequestHead} {body : Body}
    (hasked : (askedIn next)[request]? = some (handler, head, body)) :
    ∃ before after, next = before ++ .asks handler head body :: after ∧
      (crowd.afterAll before).runs.length = crowd.runs.length + request := by
  induction next generalizing crowd request with
  | nil => cases hasked
  | cons incident rest ih =>
    -- It is asked with this incident, or with a later one.
    have hlater {request' : Nat} (hrest : (askedIn rest)[request']? = some (handler, head, body))
        (hlength : (crowd.after incident).runs.length + request' = crowd.runs.length + request) :
        ∃ before after, incident :: rest = before ++ .asks handler head body :: after ∧
          (crowd.afterAll before).runs.length = crowd.runs.length + request := by
      obtain ⟨before, later, rfl, hruns⟩ := ih (crowd.after incident) request' hrest
      exact ⟨incident :: before, later, rfl, hruns.trans hlength⟩
    cases incident with
    | resolves key => exact hlater hasked rfl
    | goesOn other choice => exact hlater hasked (congrArg (· + request) (List.length_modify _ _ _))
    | asks handler' head' body' =>
      cases request with
      | zero =>
        obtain ⟨rfl, rfl, rfl⟩ : handler' = handler ∧ head' = head ∧ body' = body := by
          simpa [askedIn_cons, Incident.asked?] using hasked
        exact ⟨[], rest, rfl, rfl⟩
      | succ request =>
        refine hlater hasked ?_
        rw [after, List.length_append, List.length_singleton, Nat.add_assoc, Nat.add_comm 1]

end

end Crowd

end Switchboard
