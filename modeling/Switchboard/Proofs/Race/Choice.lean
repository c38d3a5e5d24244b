import Switchboard.Race.Basic
set_option autoImplicit false

/-! # The choice of a race

`Chooses accepts results winner reply` says what a race is for, of all of its results at once: the
response of the lowest index that the policy accepts, or the canonical 404 when it accepts none.
There is one such choice (`Chooses.unique`), and all other responses lose (`losers`). A race looks
at its slots instead, some of which may be empty; `standsAs_standingFrom` says what its scan finds,
in the same words.

What is chosen is what an `Aggregator` replays to its connection. -/

namespace Switchboard

/-- The scan for the winner goes past a slot that has reported, unless it holds a response that is
accepted. -/
def Slot.isPassed (accepts : ResponseHead → Bool) : Slot → Bool
  | .empty => false
  | .holds response => !accepts response.head
  | .failed => true
  | .spent => true

namespace Race

/-! ## Over all results -/

/-- The result with this index is a response that the policy accepts. -/
def AcceptedAt (accepts : ResponseHead → Bool) (results : List Report) (index : Nat)
    (response : HeldReply) : Prop :=
  results[index]? = some (.ok response) ∧ accepts response.head = true

/-- The choice over all results of a race, and the response that goes to the connection for it. -/
inductive Chooses (accepts : ResponseHead → Bool) (results : List Report) :
    Option (Nat × HeldReply) → Reply → Prop where
  | winner {index : Nat} {response : HeldReply}
      (haccepted : AcceptedAt accepts results index response)
      (hlowest : ∀ lower < index, ∀ other, ¬ AcceptedAt accepts results lower other) :
      Chooses accepts results (some (index, response)) response
  | none (hnone : ∀ index response, ¬ AcceptedAt accepts results index response) :
      Chooses accepts results none Reply.notFound

section

variable {accepts : ResponseHead → Bool} {results : List Report}

theorem AcceptedAt.response_eq {index : Nat} {response other : HeldReply}
    (h : AcceptedAt accepts results index response) (h' : AcceptedAt accepts results index other) :
    other = response := by
  have heq := h'.1.symm.trans h.1
  rwa [Option.some.injEq, Except.ok.injEq] at heq

/-- **There is one choice.** -/
theorem Chooses.unique {winner winner' : Option (Nat × HeldReply)} {reply reply' : Reply}
    (h : Chooses accepts results winner reply) (h' : Chooses accepts results winner' reply') :
    winner' = winner ∧ reply' = reply := by
  cases h with
  | none hnone =>
    cases h' with
    | none hnone' => exact ⟨rfl, rfl⟩
    | winner haccepted' hlowest' => exact absurd haccepted' (hnone _ _)
  | @winner index response haccepted hlowest =>
    cases h' with
    | none hnone' => exact absurd haccepted (hnone' _ _)
    | @winner index' response' haccepted' hlowest' =>
      have hindex : index' = index := by
        rcases Nat.lt_trichotomy index' index with hlt | heq | hgt
        · exact absurd haccepted' (hlowest _ hlt _)
        · exact heq
        · exact absurd haccepted (hlowest' _ hgt _)
      subst hindex
      rw [haccepted.response_eq haccepted']
      exact ⟨rfl, rfl⟩

end

/-! ## Computed -/

/-- The response of a result that the policy accepts. -/
def acceptedOf? (accepts : ResponseHead → Bool) : Report → Option Reply
  | .ok response => if accepts response.head then some response else none
  | .error _ => none

/-- The response that goes to the connection for these results. -/
def pick (accepts : ResponseHead → Bool) (results : List Report) : Reply :=
  (results.findSome? (acceptedOf? accepts)).getD Reply.notFound

section

variable {accepts : ResponseHead → Bool} {results : List Report}

theorem acceptedOf?_eq_some {result : Report} {response : Reply} :
    acceptedOf? accepts result = some response ↔
      result = .ok response ∧ accepts response.head = true := by
  cases result with
  | error cause => exact iff_of_false nofun fun h => by cases h.1
  | ok other =>
    rw [acceptedOf?]
    split
    · next haccepted =>
      rw [Option.some.injEq, Except.ok.injEq]
      exact ⟨fun heq => ⟨heq, heq ▸ haccepted⟩, And.left⟩
    · next hrejected =>
      refine iff_of_false nofun fun h => hrejected ?_
      rw [Except.ok.injEq] at h
      rw [h.1]
      exact h.2

/-- **The choice can be computed.** -/
theorem chooses_pick (accepts : ResponseHead → Bool) (results : List Report) :
    ∃ winner, Chooses accepts results winner (pick accepts results) := by
  unfold pick
  cases hfound : results.findSome? (acceptedOf? accepts) with
  | none =>
    refine ⟨none, .none fun index response haccepted => ?_⟩
    have hmem := List.mem_of_getElem? haccepted.1
    have hnone := List.findSome?_eq_none_iff.mp hfound _ hmem
    rw [acceptedOf?_eq_some.mpr ⟨rfl, haccepted.2⟩] at hnone
    cases hnone
  | some response =>
    obtain ⟨before, result, after, rfl, hresult, hbefore⟩ :=
      List.findSome?_eq_some_iff.mp hfound
    obtain ⟨rfl, haccepts⟩ := acceptedOf?_eq_some.mp hresult
    refine ⟨some (before.length, response), .winner ⟨by simp, haccepts⟩ ?_⟩
    intro lower hlt other haccepted
    have hget := haccepted.1
    rw [List.getElem?_append_left hlt] at hget
    have hnone := hbefore _ (List.mem_of_getElem? hget)
    rw [acceptedOf?_eq_some.mpr ⟨rfl, haccepted.2⟩] at hnone
    cases hnone

theorem Chooses.eq_pick {winner : Option (Nat × HeldReply)} {reply : Reply}
    (h : Chooses accepts results winner reply) : reply = pick accepts results := by
  obtain ⟨winner', hpick⟩ := chooses_pick accepts results
  exact (hpick.unique h).2

end

/-! ## The losers -/

/-- The responses among these that lose: those before the first accepted one, and all after it. -/
def losers (accepts : ResponseHead → Bool) : List (Option Reply) → List Reply
  | [] => []
  | none :: rest => losers accepts rest
  | some reply :: rest =>
    if accepts reply.head then rest.filterMap id else reply :: losers accepts rest

section

variable {accepts : ResponseHead → Bool} {given : List (Option Reply)} {reply : Reply}

theorem losers_of_accepted (h : accepts reply.head = true) (rest : List (Option Reply)) :
    losers accepts (some reply :: rest) = rest.filterMap id := by
  rw [losers, if_pos h]

theorem losers_of_refused (h : accepts reply.head = false) (rest : List (Option Reply)) :
    losers accepts (some reply :: rest) = reply :: losers accepts rest := by
  rw [losers, if_neg (Bool.eq_false_iff.mp h)]

/-- Only what is given loses. -/
theorem losers_subset (given : List (Option Reply)) :
    losers accepts given ⊆ given.filterMap id := by
  induction given with
  | nil => exact List.nil_subset _
  | cons first rest ih =>
    cases first with
    | none => exact ih
    | some reply =>
      cases haccepts : accepts reply.head with
      | true =>
        rw [losers_of_accepted haccepts]
        exact List.subset_cons_self reply _
      | false =>
        rw [losers_of_refused haccepts]
        exact List.cons_subset_cons reply ih

/-- Those who lose among these responses and later ones: of the later ones all, if one of these is
accepted. -/
theorem losers_append (these later : List (Option Reply)) :
    losers accepts (these ++ later) = losers accepts these ++
      if these.any (·.any (accepts ·.head)) then later.filterMap id
      else losers accepts later := by
  induction these with
  | nil => rfl
  | cons first rest ih =>
    rw [List.cons_append, List.any_cons]
    cases first with
    | none => exact ih
    | some reply =>
      rw [Option.any_some]
      cases haccepts : accepts reply.head with
      | true =>
        rw [losers_of_accepted haccepts, losers_of_accepted haccepts, List.filterMap_append]
        rfl
      | false =>
        rw [losers_of_refused haccepts, losers_of_refused haccepts, ih]
        rfl

/-- **A response loses** if it is refused or if one of a lower index is accepted. -/
theorem mem_losers {index : Nat} (hreply : given[index]? = some (some reply))
    (hbeaten : accepts reply.head = true → ∃ lower < index, ∃ better : Reply,
      given[lower]? = some (some better) ∧ accepts better.head = true) :
    reply ∈ losers accepts given := by
  induction given generalizing index with
  | nil => cases hreply
  | cons first rest ih =>
    cases index with
    | zero =>
      cases hreply
      cases haccepts : accepts reply.head with
      | true =>
        obtain ⟨lower, hlt, -⟩ := hbeaten haccepts
        exact absurd hlt (Nat.not_lt_zero lower)
      | false =>
        rw [losers_of_refused haccepts]
        exact List.mem_cons_self
    | succ index =>
      have hrest : (∀ better, first = some better → accepts better.head = false) →
          reply ∈ losers accepts rest := by
        refine fun hfirst => ih hreply fun haccepts => ?_
        obtain ⟨lower, hlt, better, hbetter, hbest⟩ := hbeaten haccepts
        cases lower with
        | zero =>
          cases hbetter
          rw [hfirst better rfl] at hbest
          cases hbest
        | succ lower => exact ⟨lower, Nat.lt_of_succ_lt_succ hlt, better, hbetter, hbest⟩
      cases first with
      | none => exact hrest nofun
      | some first =>
        cases haccepts : accepts first.head with
        | true =>
          rw [losers_of_accepted haccepts]
          exact List.mem_filterMap.mpr ⟨some reply, List.mem_of_getElem? hreply, rfl⟩
        | false =>
          rw [losers_of_refused haccepts]
          refine List.mem_cons_of_mem _ (hrest ?_)
          rintro better ⟨⟩
          exact haccepts

end

/-! ## Over the slots -/

/-- What a scan of the slots finds when it counts them from an index, and that it goes past all
those before. -/
inductive StandsAs (accepts : ResponseHead → Bool) (start : Nat) (slots : List Slot) :
    Standing → Prop where
  | open {index : Nat} (hempty : slots[index]? = some .empty)
      (hpassed : ∀ lower < index, ∀ slot : Slot,
        slots[lower]? = some slot → slot.isPassed accepts = true) :
      StandsAs accepts start slots .open
  | winner {index : Nat} {response : HeldReply} (hholds : slots[index]? = some (.holds response))
      (haccepted : accepts response.head = true)
      (hpassed : ∀ lower < index, ∀ slot : Slot,
        slots[lower]? = some slot → slot.isPassed accepts = true) :
      StandsAs accepts start slots (.winner (start + index))
  | noWinner (hpassed : ∀ slot ∈ slots, slot.isPassed accepts = true) :
      StandsAs accepts start slots .noWinner

section

variable {accepts : ResponseHead → Bool}

theorem StandsAs.cons {start : Nat} {slots : List Slot} {standing : Standing}
    (h : StandsAs accepts (start + 1) slots standing) {slot : Slot}
    (hslot : slot.isPassed accepts = true) : StandsAs accepts start (slot :: slots) standing := by
  have hcons : ∀ {index : Nat},
      (∀ lower < index, ∀ other : Slot,
        slots[lower]? = some other → other.isPassed accepts = true) →
      ∀ lower < index + 1, ∀ other : Slot,
        (slot :: slots)[lower]? = some other → other.isPassed accepts = true := by
    intro index hpassed lower hlt other hother
    cases lower with
    | zero =>
      rw [List.getElem?_cons_zero, Option.some.injEq] at hother
      rwa [← hother]
    | succ lower => exact hpassed lower (by omega) other hother
  cases h with
  | «open» hempty hpassed => exact .open hempty (hcons hpassed)
  | winner hholds haccepted hpassed =>
    rw [Nat.add_assoc, Nat.add_comm 1]
    exact .winner hholds haccepted (hcons hpassed)
  | noWinner hpassed =>
    refine .noWinner fun other hother => ?_
    rcases List.mem_cons.mp hother with rfl | hrest
    · exact hslot
    · exact hpassed other hrest

/-- **The scan for the winner.** With a policy that always gives an answer it never panics. -/
theorem standsAs_standingFrom (start : Nat) (slots : List Slot) :
    StandsAs accepts start slots (standingFrom (Policy.ofBool accepts) start slots) := by
  induction slots generalizing start with
  | nil => exact .noWinner (by simp)
  | cons slot slots ih =>
    cases slot with
    | empty => exact .open (show (Slot.empty :: slots)[0]? = some .empty from rfl) (by simp)
    | failed => exact (ih (start + 1)).cons rfl
    | spent => exact (ih (start + 1)).cons rfl
    | holds response =>
      cases haccepted : accepts response.head with
      | true =>
        have hholds : (Slot.holds response :: slots)[0]? = some (.holds response) := rfl
        rw [standingFrom, Policy.ofBool, haccepted]
        exact .winner hholds haccepted (by simp)
      | false =>
        have hstanding : standingFrom (Policy.ofBool accepts) start (.holds response :: slots) =
            standingFrom (Policy.ofBool accepts) (start + 1) slots := by
          rw [standingFrom, Policy.ofBool, haccepted]
        rw [hstanding]
        exact (ih (start + 1)).cons (by simp [Slot.isPassed, haccepted])

/-- The response that a slot holds is found among the held ones. -/
theorem find?_heldFrom {slots : List Slot} {index : Nat} {response : HeldReply}
    (h : slots[index]? = some (.holds response)) (start : Nat) :
    (heldFrom start slots).find? (·.1 = start + index) = some (start + index, response) := by
  induction slots generalizing index start with
  | nil => cases h
  | cons slot slots ih =>
    cases index with
    | zero =>
      rw [List.getElem?_cons_zero, Option.some.injEq] at h
      subst h
      simp [heldFrom]
    | succ index =>
      have hrest := ih h (start + 1)
      rw [show start + 1 + index = start + (index + 1) by omega] at hrest
      cases slot with
      | holds other => simpa [heldFrom] using hrest
      | empty => exact hrest
      | failed => exact hrest
      | spent => exact hrest

/-- Only responses that slots hold are among the held ones. -/
theorem getElem?_of_mem_heldFrom {slots : List Slot} {start : Nat} {held : Nat × HeldReply}
    (h : held ∈ heldFrom start slots) :
    ∃ index, held.1 = start + index ∧ slots[index]? = some (.holds held.2) := by
  induction slots generalizing start with
  | nil => cases h
  | cons slot slots ih =>
    have hrest : held ∈ heldFrom (start + 1) slots →
        ∃ index, held.1 = start + index ∧ (slot :: slots)[index]? = some (.holds held.2) := by
      intro hmem
      obtain ⟨index, hindex, hslot⟩ := ih hmem
      exact ⟨index + 1, by omega, hslot⟩
    cases slot with
    | holds response =>
      rcases List.mem_cons.mp h with rfl | hmem
      · exact ⟨0, rfl, rfl⟩
      · exact hrest hmem
    | empty => exact hrest h
    | failed => exact hrest h
    | spent => exact hrest h

end

end Race

end Switchboard
