import Switchboard.Handler.Group
import Switchboard.Proofs.Delivery.Outcome
import Switchboard.Proofs.Delivery.Prelude
set_option autoImplicit false

/-! # Groups that broadcast

A group answers a request that only reads with a broadcast. It reads the request to its end, asks
each of its backends once, with a copy of its own, and from then on it is a broadcast of what they
gave (`Handler.leads_group`). So each run settles as broadcasts do, whatever the backends do and in
whatever order (`Handler.group_settles`). -/

namespace Switchboard

open Contest (toldAfter)

/-! ## The backends -/

/-- A lineup of all backends: what each of them notes, and the sending that each of them gives. -/
structure Lineup.Asks (lineup : Lineup) (respondings : List Responding) : Prop where
  notes_eq : lineup.notes = respondings.flatMap Responding.notes
  lanes_eq : respondings.map Responding.sending = lineup.lanes.map .ok
  panic_eq : lineup.panic = none

/-- What a group notes until all of its backends are asked, in this order. -/
def askingNotes (reading : List Note) (head : RequestHead) (content : Bytes)
    (respondings : List Responding) : List Note :=
  reading ++ .log (broadcastEntry head respondings.length content) ::
    respondings.flatMap Responding.notes

/-- **What has been asked.** Nothing is delivered or reported before all backends are asked, and
then each of them goes on in a lane of its own. -/
inductive HasAsked (asking : List Note) (starts : List Sending) (told : List (Option Report))
    (r : Run) : Prop where
  | reading (left : List Note) (hnotes : r.notes ++ left = asking)
      (hsending : ∀ c lanes, r.sending ≠ .broadcast c lanes) (hdelivered : r.delivered = [])
      (htold : told = List.replicate starts.length none)
  | asked (later : List Note) {c : Contest} {lanes : List Sending}
      (hnotes : r.notes = asking ++ later) (hsending : r.sending = .broadcast c lanes)
      (hlanes : LanesRun starts told c.phaseOf lanes)

namespace Handler

/-- **All backends are asked once**, unless one of them panics. -/
theorem asks_respondAll {backends : List Handler} {head : RequestHead} {body : Body}
    (h : ∀ backend ∈ backends, ∃ s, (backend.respond head body).sending = .ok s) :
    (respondAll backends head body).Asks
      (backends.map fun backend => backend.respond head body) := by
  induction backends with
  | nil =>
    rw [respondAll]
    exact ⟨rfl, rfl, rfl⟩
  | cons backend rest ih =>
    obtain ⟨s, hs⟩ := h backend List.mem_cons_self
    obtain ⟨hnotes, hlanes, hpanic⟩ := ih fun other hother =>
      h other (List.mem_cons_of_mem _ hother)
    rw [respondAll, Lineup.cons, hs]
    refine ⟨?_, ?_, hpanic⟩
    · rw [List.map_cons, List.flatMap_cons, hnotes]
    · rw [List.map_cons, List.map_cons, hs, hlanes]
      rfl

section

variable {backends : List Handler} {head : RequestHead} {body : Body} {reading : List Note}
  {content : Bytes}

/-- A group that broadcasts reads the request, asks its backends, and goes on as the broadcast of
the lineup that they give. -/
theorem leads_lineup (hbackends : backends ≠ []) (primary : Nat) (policy : Policy)
    (hmethod : head.method.goesToAll = true) (hbody : body.content.Yields reading (.ok content))
    {lineup : Lineup} (hlineup : respondAll backends head.copy (Body.ofBytes content) = lineup) :
    ∃ s race, (Handler.group backends primary policy).respond head body = .quiet s ∧
      Race.ofSlots? backends.length = .ok race ∧
      s.Leads (reading ++ .log (broadcastEntry head backends.length content) :: lineup.notes)
        (.broadcast (.start policy race lineup.lanes.length lineup.panic) lineup.lanes) := by
  have hsome : backends.length ≠ 0 := fun h => hbackends (List.length_eq_zero_iff.mp h)
  obtain ⟨race, hrace⟩ : ∃ race, Race.ofSlots? backends.length = .ok race := ⟨_, if_neg hsome⟩
  have hempty : backends.isEmpty = false := by
    cases backends with
    | nil => exact absurd rfl hbackends
    | cons backend rest => rfl
  refine ⟨_, race, by rw [respond, hempty, if_neg Bool.false_ne_true, if_pos hmethod], hrace, ?_⟩
  refine (Sending.leads_afterWork hbody _).trans (.note _ ?_)
  unfold Sending.ofLineup
  rw [hrace, hlineup]
  exact Sending.leads_afterNotes _ _

/-- **A group that broadcasts** reads the request, asks its backends, and goes on as a broadcast. -/
theorem leads_group (hbackends : backends ≠ []) (primary : Nat) (policy : Policy)
    (hmethod : head.method.goesToAll = true) (hbody : body.content.Yields reading (.ok content))
    (hasked : ∀ backend ∈ backends,
      ∃ s, (backend.respond head.copy (Body.ofBytes content)).sending = .ok s) :
    ∃ s race starts,
      (Handler.group backends primary policy).respond head body = .quiet s ∧
        Race.ofSlots? starts.length = .ok race ∧
        starts.map .ok =
          backends.map (fun backend => (backend.respond head.copy (Body.ofBytes content)).sending) ∧
        s.Leads (askingNotes reading head content
            (backends.map fun backend => backend.respond head.copy (Body.ofBytes content)))
          (.broadcast (.start policy race starts.length none) starts) := by
  obtain ⟨hnotes, hlanes, hpanic⟩ := asks_respondAll hasked
  rw [List.map_map] at hlanes
  have hlength : (respondAll backends head.copy (Body.ofBytes content)).lanes.length =
      backends.length := by
    have := congrArg List.length hlanes
    rwa [List.length_map, List.length_map, eq_comm] at this
  obtain ⟨s, race, hrespond, hrace, hleads⟩ :=
    leads_lineup hbackends primary policy hmethod hbody rfl
  rw [hnotes, hpanic] at hleads
  rw [askingNotes, List.length_map]
  exact ⟨s, race, _, hrespond, by rw [hlength]; exact hrace, hlanes.symm, hleads⟩

/-- The broadcast of all backends is as it should be when it begins. -/
theorem contends_start (accepts : ResponseHead → Bool) {starts : List Sending} {race : Race}
    (hrace : Race.ofSlots? starts.length = .ok race) (notes : List Note) :
    Run.Contends accepts starts (List.replicate starts.length none) none
      ⟨.broadcast (.start (Policy.ofBool accepts) race starts.length none) starts, notes, [],
        none⟩ :=
  ⟨_, starts, rfl, Contest.keeps_start accepts hrace, .spawning,
    lanesRun_start starts fun _ h => Contest.phaseOf_start _ race h⟩

end

end Handler

end Switchboard
