import Switchboard.Proofs.Race.Choice
set_option autoImplicit false

/-! # Reports of a race

A race hears of its results one by one, in any order. `Race.Knows told` says what its slots have to
do with the results that it has been told, and `Knows.report` is the step: a report is refused by
nobody, and decides the race as soon as the results that are told settle the choice whatever the
others are (`Settled`). Runs of reports follow, and with them that the order does not matter.

The race is that of an `Aggregator`, and a report what its critical section does. -/

namespace Switchboard

namespace Race

/-! ## What is told -/

/-- The results that a race has been told settle the choice: all of them are told, or an accepted
one and all before it. -/
def Settled (accepts : ResponseHead → Bool) (told : List (Option Report)) : Prop :=
  (∀ result ∈ told, result ≠ none) ∨
    ∃ (index : Nat) (response : HeldReply), told[index]? = some (some (.ok response)) ∧
      accepts response.head = true ∧ ∀ lower < index, told[lower]? ≠ some none

/-- All results, when some have been told. -/
structure Completes (told : List (Option Report)) (results : List Report) : Prop where
  length_eq : results.length = told.length
  result_eq : ∀ (index : Nat) (result : Report),
    told[index]? = some (some result) → results[index]? = some result

/-- **A response that was told and loses**: it is refused, or one of a lower index is accepted. -/
structure Loses (accepts : ResponseHead → Bool) (told : List (Option Report)) (index : Nat)
    (response : HeldReply) : Prop where
  told_eq : told[index]? = some (some (.ok response))
  beaten : accepts response.head = true → ∃ lower < index, ∃ better : HeldReply,
    told[lower]? = some (some (.ok better)) ∧ accepts better.head = true

/-- The slot of a result that may have been told. -/
def slotOf? : Option Report → Slot
  | none => .empty
  | some result => slotOf result

/-- **The invariant of a race** that has been told some of its results. -/
structure Knows (accepts : ResponseHead → Bool) (told : List (Option Report)) (race : Race) :
    Prop where
  empty_iff : ∀ index : Nat, race.slots[index]? = some .empty ↔ told[index]? = some none
  slots_eq : race.undecided = true → race.slots = told.map slotOf?
  undecided_iff : race.undecided = false ↔ Settled accepts told

section

variable {accepts : ResponseHead → Bool} {told : List (Option Report)} {race : Race}

/-- What has lost stays so, whatever is told after that. -/
theorem Loses.mono {index : Nat} {response : HeldReply} (h : Loses accepts told index response)
    {told' : List (Option Report)}
    (hkept : ∀ (other : Nat) (held : HeldReply), told[other]? = some (some (.ok held)) →
      told'[other]? = some (some (.ok held))) : Loses accepts told' index response where
  told_eq := hkept index response h.told_eq
  beaten := by
    intro haccepts
    obtain ⟨lower, hlt, better, hbetter, hbest⟩ := h.beaten haccepts
    exact ⟨lower, hlt, better, hkept lower better hbetter, hbest⟩

/-- A response that loses among those that were told loses among all that are given. -/
theorem Loses.mem_losers {index : Nat} {response : HeldReply}
    (h : Loses accepts told index response) {given : List (Option Reply)}
    (hgiven : ∀ (other : Nat) (held : HeldReply), told[other]? = some (some (.ok held)) →
      given[other]? = some (some held)) : response ∈ losers accepts given := by
  refine Race.mem_losers (hgiven index response h.told_eq) fun haccepts => ?_
  obtain ⟨lower, hlt, better, hbetter, hbest⟩ := h.beaten haccepts
  exact ⟨lower, hlt, better, hgiven lower better hbetter, hbest⟩

/-- All results, when what is missing fails. -/
theorem completes_getD (told : List (Option Report)) (cause : SendError) :
    Completes told (told.map (·.getD (.error cause))) where
  length_eq := List.length_map _
  result_eq := by
    intro index result htold
    rw [List.getElem?_map, htold]
    rfl

theorem slotOf?_eq_empty {result : Option Report} (h : slotOf? result = .empty) :
    result = none := by
  cases result with
  | none => rfl
  | some result => cases result <;> cases h

theorem slotOf?_eq_holds {result : Option Report} {response : HeldReply}
    (h : slotOf? result = .holds response) : result = some (.ok response) := by
  cases result with
  | none => cases h
  | some result =>
    cases result with
    | ok other =>
      cases h
      rfl
    | error cause => cases h

/-- A race that nobody has reported to knows nothing, and as it has a slot, it is not decided. -/
theorem knows_ofSlots? {count : Nat} (h : ofSlots? count = .ok race) :
    Knows accepts (List.replicate count none) race := by
  unfold ofSlots? at h
  split at h
  · cases h
  · next hcount =>
    cases h
    refine ⟨fun index => ?_, fun _ => by simp [slotOf?], ?_⟩
    · simp [List.getElem?_replicate]
    · constructor
      · intro h'
        cases h'
      · rintro (hall | ⟨index, response, htold, -⟩)
        · exact absurd rfl (hall none (by simp [hcount]))
        · simp [List.getElem?_replicate] at htold

/-! ## The decision -/

/-- A result that is told and not accepted: the choice does not fall on it. -/
def RuledOut (accepts : ResponseHead → Bool) (result : Option Report) : Prop :=
  result ≠ none ∧ ∀ response, result = some (.ok response) → accepts response.head = false

/-- A scan of the slots goes past those that are ruled out. -/
theorem ruledOut_of_isPassed {result : Option Report}
    (h : (slotOf? result).isPassed accepts = true) : RuledOut accepts result := by
  refine ⟨?_, ?_⟩
  · rintro rfl
    cases h
  · rintro response rfl
    simpa [slotOf?, slotOf, Slot.isPassed] using h

theorem Completes.not_acceptedAt {results : List Report} (h : Completes told results) {index : Nat}
    (hout : ∀ result, told[index]? = some result → RuledOut accepts result)
    (response : HeldReply) : ¬ AcceptedAt accepts results index response := by
  intro haccepted
  have hlt : index < told.length := by
    rw [← h.length_eq]
    exact (List.getElem?_eq_some_iff.mp haccepted.1).1
  obtain ⟨hne, hrejected⟩ := hout _ (List.getElem?_eq_getElem hlt)
  obtain ⟨result, hresult⟩ := Option.ne_none_iff_exists'.mp hne
  have heq := h.result_eq index result (by rw [List.getElem?_eq_getElem hlt, hresult])
  rw [haccepted.1, Option.some.injEq] at heq
  have hnot := hrejected response (by rw [hresult, ← heq])
  rw [haccepted.2] at hnot
  cases hnot

/-- What a ruling says of the results that are told now, and of the race before and after it:
whether it is undecided. -/
inductive Rules (accepts : ResponseHead → Bool) (told : List (Option Report)) :
    Bool → Bool → Ruling → Prop where
  | undecided : Rules accepts told true true .undecided
  | decided {winner : Option (Nat × HeldReply)} {losers : List (Nat × HeldReply)}
      (hchooses : ∀ results, Completes told results →
        Chooses accepts results winner (chosen winner))
      (hlosers : ∀ loser ∈ losers, Loses accepts told loser.1 loser.2) :
      Rules accepts told true false (.decided winner losers)
  | late (response : Option HeldReply) : Rules accepts told false false (.late response)

/-- The choice is settled by an accepted result when all before it are ruled out. -/
theorem chooses_of_told {index : Nat} {response : HeldReply}
    (htold : told[index]? = some (some (.ok response))) (haccepted : accepts response.head = true)
    (hout : ∀ lower < index, ∀ result, told[lower]? = some result → RuledOut accepts result)
    {results : List Report} (hresults : Completes told results) :
    Chooses accepts results (some (index, response)) response :=
  .winner ⟨hresults.result_eq index _ htold, haccepted⟩ fun lower hlt =>
    hresults.not_acceptedAt (hout lower hlt)

/-- There is no choice when all results are ruled out. -/
theorem chooses_none_of_told (hout : ∀ result ∈ told, RuledOut accepts result)
    {results : List Report} (hresults : Completes told results) :
    Chooses accepts results none Reply.notFound :=
  .none fun _ => hresults.not_acceptedAt fun result htold =>
    hout result (List.mem_of_getElem? htold)

/-- The first result that is not told leaves the choice open when all before it are ruled out. -/
theorem not_settled {index : Nat} (htold : told[index]? = some none)
    (hout : ∀ lower < index, ∀ result, told[lower]? = some result → RuledOut accepts result) :
    ¬ Settled accepts told := by
  rintro (hall | ⟨winner, response, hwinner, haccepted, hbelow⟩)
  · exact hall none (List.mem_of_getElem? htold) rfl
  · rcases Nat.lt_trichotomy winner index with hlt | rfl | hgt
    · have hrejected := (hout winner hlt _ hwinner).2 response rfl
      rw [haccepted] at hrejected
      cases hrejected
    · rw [htold] at hwinner
      cases hwinner
    · exact hbelow index hgt htold

/-- A response that is ruled out loses. -/
theorem RuledOut.loses {index : Nat} {response : HeldReply}
    (h : RuledOut accepts (some (.ok response)))
    (htold : told[index]? = some (some (.ok response))) : Loses accepts told index response := by
  refine ⟨htold, fun haccepts => ?_⟩
  rw [h.2 response rfl] at haccepts
  cases haccepts

/-- Every other response loses to the accepted one that has only results before it that are ruled
out. -/
theorem Loses.of_winner {winner index : Nat} {best response : HeldReply}
    (hwinner : told[winner]? = some (some (.ok best))) (haccepted : accepts best.head = true)
    (hout : ∀ lower < winner, ∀ result, told[lower]? = some result → RuledOut accepts result)
    (htold : told[index]? = some (some (.ok response))) (hne : index ≠ winner) :
    Loses accepts told index response := by
  rcases Nat.lt_or_gt_of_ne hne with hlt | hgt
  · exact (hout index hlt _ htold).loses htold
  · exact ⟨htold, fun _ => ⟨winner, hgt, best, hwinner, haccepted⟩⟩

/-- A response that is held was told. -/
theorem told_of_mem_heldFrom (hslots : race.slots = told.map slotOf?) {held : Nat × HeldReply}
    (h : held ∈ heldFrom 0 race.slots) : told[held.1]? = some (some (.ok held.2)) := by
  obtain ⟨index, hindex, hholds⟩ := getElem?_of_mem_heldFrom h
  rw [hslots, List.getElem?_map, Option.map_eq_some_iff] at hholds
  obtain ⟨result, htold, hresult⟩ := hholds
  rw [hindex, Nat.zero_add, htold, slotOf?_eq_holds hresult]

/-- **The decision is neither too early nor too late.** The race decides when the choice is settled,
and then for the choice over all results. -/
theorem rules_rule (race : Race) (hslots : race.slots = told.map slotOf?)
    (hundecided : race.undecided = true) :
    Rules accepts told true (race.rule (Policy.ofBool accepts)).1.undecided
        (race.rule (Policy.ofBool accepts)).2 ∧
      ((race.rule (Policy.ofBool accepts)).1.undecided = false ↔ Settled accepts told) ∧
      ((race.rule (Policy.ofBool accepts)).1 = race ∨
        (race.rule (Policy.ofBool accepts)).1 = ⟨race.slots.map Slot.release, false⟩) := by
  have hout : ∀ {index : Nat},
      (∀ lower < index, ∀ slot, race.slots[lower]? = some slot → slot.isPassed accepts = true) →
      ∀ lower < index, ∀ result, told[lower]? = some result → RuledOut accepts result := by
    intro index hpassed lower hlt result htold
    exact ruledOut_of_isPassed (hpassed lower hlt _ (by rw [hslots, List.getElem?_map, htold]; rfl))
  have hstands : StandsAs accepts 0 race.slots _ := standsAs_standingFrom 0 race.slots
  generalize hstanding : standingFrom (Policy.ofBool accepts) 0 race.slots = standing at hstands
  cases hstands with
  | @«open» index hempty hpassed =>
    have hrule : race.rule (Policy.ofBool accepts) = (race, .undecided) := by
      rw [rule, hstanding]
    obtain ⟨result, htold, hresult⟩ := Option.map_eq_some_iff.mp
      (List.getElem?_map .. ▸ hslots ▸ hempty)
    -- The first empty slot is that of the first result that is missing.
    have hnot : ¬ Settled accepts told :=
      not_settled (slotOf?_eq_empty hresult ▸ htold) (hout hpassed)
    rw [hrule, hundecided]
    exact ⟨.undecided, by simp [hnot], .inl rfl⟩
  | @winner index response hholds haccepted hpassed =>
    have hrule : race.rule (Policy.ofBool accepts) = (⟨race.slots.map Slot.release, false⟩,
        .decided (some (0 + index, response))
          ((heldFrom 0 race.slots).filter (·.1 != 0 + index))) := by
      rw [rule, hstanding, ← find?_heldFrom hholds 0]
    obtain ⟨result, htold, hresult⟩ := Option.map_eq_some_iff.mp
      (List.getElem?_map .. ▸ hslots ▸ hholds)
    rw [slotOf?_eq_holds hresult] at htold
    rw [hrule, Nat.zero_add]
    have hlosers : ∀ loser ∈ (heldFrom 0 race.slots).filter (·.1 != index),
        Loses accepts told loser.1 loser.2 := by
      intro loser hloser
      obtain ⟨hmem, hne⟩ := List.mem_filter.mp hloser
      exact .of_winner htold haccepted (hout hpassed) (told_of_mem_heldFrom hslots hmem)
        (bne_iff_ne.mp hne)
    refine ⟨.decided
        (fun results hresults => chooses_of_told htold haccepted (hout hpassed) hresults) hlosers,
      ⟨fun _ => .inr ⟨index, response, htold, haccepted, fun lower hlt hnone => ?_⟩, fun _ => rfl⟩,
      .inr rfl⟩
    exact (hout hpassed lower hlt none hnone).1 rfl
  | noWinner hpassed =>
    have hrule : race.rule (Policy.ofBool accepts) = (⟨race.slots.map Slot.release, false⟩,
        .decided none (heldFrom 0 race.slots)) := by
      rw [rule, hstanding]
    have hall : ∀ result ∈ told, RuledOut accepts result := fun result hresult =>
      ruledOut_of_isPassed (hpassed _ (hslots ▸ List.mem_map_of_mem hresult))
    have hlosers : ∀ loser ∈ heldFrom 0 race.slots, Loses accepts told loser.1 loser.2 := by
      intro loser hloser
      have htold := told_of_mem_heldFrom hslots hloser
      exact (hall _ (List.mem_of_getElem? htold)).loses htold
    rw [hrule]
    exact ⟨.decided (fun results hresults => chooses_none_of_told hall hresults) hlosers,
      ⟨fun _ => .inl fun result hresult => (hall result hresult).1, fun _ => rfl⟩, .inr rfl⟩

/-! ## One report -/

theorem release_eq_empty {slot : Slot} : slot.release = .empty ↔ slot = .empty := by
  cases slot <;> simp [Slot.release]

theorem getElem?_map_eq_empty {f : Slot → Slot} (hf : ∀ slot, f slot = .empty ↔ slot = .empty)
    (slots : List Slot) (index : Nat) :
    (slots.map f)[index]? = some .empty ↔ slots[index]? = some .empty := by
  cases hslot : slots[index]? with
  | none => simp [hslot]
  | some slot => simp [hslot, hf]

theorem getElem?_map_slotOf? (told : List (Option Report)) (index : Nat) :
    (told.map slotOf?)[index]? = some .empty ↔ told[index]? = some none := by
  rw [List.getElem?_map, Option.map_eq_some_iff]
  constructor
  · rintro ⟨result, htold, hresult⟩
    rw [htold, slotOf?_eq_empty hresult]
  · intro htold
    exact ⟨none, htold, rfl⟩

/-- What is settled stays so. -/
theorem Settled.set (h : Settled accepts told) {index : Nat} (hindex : told[index]? = some none)
    (result : Report) : Settled accepts (told.set index (some result)) := by
  rcases h with hall | ⟨winner, response, hwinner, haccepted, hbelow⟩
  · exact absurd rfl (hall none (List.mem_of_getElem? hindex))
  · have hne : index ≠ winner := by
      rintro rfl
      rw [hindex] at hwinner
      cases hwinner
    refine .inr ⟨winner, response, ?_, haccepted, fun lower hlt hnone => ?_⟩
    · rwa [List.getElem?_set_ne hne]
    · have hne : index ≠ lower := by
        rintro rfl
        exact hbelow index hlt hindex
      rw [List.getElem?_set_ne hne] at hnone
      exact hbelow lower hlt hnone

/-- A report that comes in time is held back and ruled on. -/
theorem report_of_undecided {policy : Policy} {index : Nat}
    (hempty : race.slots[index]? = some .empty) (hundecided : race.undecided = true)
    (result : Report) : race.report policy index result =
      ((rule policy ⟨race.slots.set index (slotOf result), true⟩).1, [reportEntry index result],
        (rule policy ⟨race.slots.set index (slotOf result), true⟩).2) := by
  rw [Race.report, hempty]
  simp only [hundecided, if_true]

/-- A report that comes after the decision is not held back. -/
theorem report_of_decided {policy : Policy} {index : Nat}
    (hempty : race.slots[index]? = some .empty) (hdecided : race.undecided = false)
    (result : Report) : race.report policy index result =
      (⟨race.slots.set index .spent, false⟩, [], .late (responseOf? result)) := by
  rw [Race.report, hempty]
  simp [hdecided]

/-- **A report of a slot that has not reported yet** is taken in. -/
theorem Knows.report (h : Knows accepts told race) {index : Nat} (hindex : told[index]? = some none)
    (result : Report) :
    Knows accepts (told.set index (some result))
        (race.report (Policy.ofBool accepts) index result).1 ∧
      Rules accepts (told.set index (some result)) race.undecided
        (race.report (Policy.ofBool accepts) index result).1.undecided
        (race.report (Policy.ofBool accepts) index result).2.2 := by
  have hempty := (h.empty_iff index).mpr hindex
  have hlt : index < told.length := (List.getElem?_eq_some_iff.mp hindex).1
  cases hundecided : race.undecided with
  | true =>
    have hslots : race.slots.set index (slotOf result) =
        (told.set index (some result)).map slotOf? := by
      rw [List.map_set, h.slots_eq hundecided]
      rfl
    rw [report_of_undecided hempty hundecided]
    obtain ⟨hrules, hsettled, hsame⟩ :=
      rules_rule ⟨race.slots.set index (slotOf result), true⟩ hslots rfl
    -- A decision empties no slot: whoever has reported is not waited for.
    refine ⟨⟨fun other => ?_, fun h' => ?_, hsettled⟩, hrules⟩
    · rw [← getElem?_map_slotOf?, ← hslots]
      rcases hsame with hsame | hsame
      · rw [hsame]
      · rw [hsame]
        exact getElem?_map_eq_empty (fun _ => release_eq_empty) _ other
    · rcases hsame with hsame | hsame
      · rw [hsame]
        exact hslots
      · rw [hsame] at h'
        cases h'
  | false =>
    rw [report_of_decided hempty hundecided]
    refine ⟨⟨fun other => ?_, nofun, fun _ => ?_, fun _ => rfl⟩, .late _⟩
    · by_cases hother : index = other
      · subst hother
        simp [List.getElem?_set]
      · rw [List.getElem?_set_ne hother, List.getElem?_set_ne hother]
        exact h.empty_iff other
    · exact (h.undecided_iff.mp hundecided).set hindex result

end

/-- The response that is late is the reported one. -/
theorem responseOf?_of_late {policy : Policy} {race : Race} {index : Nat} {result : Report}
    {response : Option HeldReply} (h : (race.report policy index result).2.2 = .late response) :
    response = responseOf? result := by
  unfold Race.report at h
  split at h
  · cases h
  · split at h
    · unfold rule at h
      dsimp only at h
      split at h <;> cases h
    · cases h
      rfl
  · cases h

/-! ## Runs of reports -/

/-- Takes one report after the other, and gives what follows from each. -/
def reportAll (policy : Policy) : Race → List (Nat × Report) → Race × List Ruling
  | race, [] => (race, [])
  | race, (index, result) :: rest =>
    let (race, _, ruling) := race.report policy index result
    let (race, rulings) := reportAll policy race rest
    (race, ruling :: rulings)

/-- The reports of these slots, in this order. -/
def reportsOf (results : List Report) (order : List Nat) : List (Nat × Report) :=
  order.filterMap fun index => (results[index]?).map (index, ·)

/-- The winners of the decisions among rulings. -/
def winnersIn (rulings : List Ruling) : List (Option (Nat × HeldReply)) :=
  rulings.filterMap fun | .decided winner _ => some winner | _ => none

/-- Nobody was refused, and no policy panicked. -/
def NonePanicked (rulings : List Ruling) : Prop :=
  ∀ message, Ruling.panicked message ∉ rulings

/-- The results that a race has been told when these slots have reported. -/
def toldOf (results : List Report) (order : List Nat) : List (Option Report) :=
  results.mapIdx fun index result => if index ∈ order then some result else none

section

variable {accepts : ResponseHead → Bool} {results : List Report} {race : Race} {order : List Nat}

theorem getElem?_toldOf (index : Nat) : (toldOf results order)[index]? =
    (results[index]?).map fun result => if index ∈ order then some result else none := by
  rw [toldOf, List.getElem?_mapIdx]

theorem toldOf_nil : toldOf results [] = List.replicate results.length none := by
  refine List.ext_getElem? fun index => ?_
  rw [getElem?_toldOf, List.getElem?_replicate]
  by_cases hlt : index < results.length
  · simp [hlt]
  · simp [hlt]

theorem toldOf_snoc {index : Nat} {result : Report} (h : results[index]? = some result) :
    toldOf results (order ++ [index]) = (toldOf results order).set index (some result) := by
  refine List.ext_getElem? fun other => ?_
  by_cases hother : index = other
  · subst hother
    have hlt : index < (toldOf results order).length := by
      rw [toldOf, List.length_mapIdx]
      exact (List.getElem?_eq_some_iff.mp h).1
    rw [getElem?_toldOf, List.getElem?_set_self hlt, h]
    simp
  · rw [getElem?_toldOf, List.getElem?_set_ne hother, getElem?_toldOf]
    have hne : other ≠ index := fun heq => hother heq.symm
    simp [hne]

theorem toldOf_eq_some {index : Nat} {result : Report} :
    (toldOf results order)[index]? = some (some result) ↔
      results[index]? = some result ∧ index ∈ order := by
  rw [getElem?_toldOf, Option.map_eq_some_iff]
  constructor
  · rintro ⟨other, hother, heq⟩
    split at heq
    · next hmem => exact ⟨by rwa [← Option.some.inj heq], hmem⟩
    · cases heq
  · rintro ⟨hresult, hmem⟩
    exact ⟨result, hresult, if_pos hmem⟩

theorem toldOf_eq_none {index : Nat} :
    (toldOf results order)[index]? = some none ↔ index < results.length ∧ index ∉ order := by
  rw [getElem?_toldOf, Option.map_eq_some_iff]
  constructor
  · rintro ⟨other, hother, heq⟩
    split at heq
    · cases heq
    · next hmem => exact ⟨(List.getElem?_eq_some_iff.mp hother).1, hmem⟩
  · rintro ⟨hlt, hmem⟩
    exact ⟨results[index], List.getElem?_eq_getElem hlt, if_neg hmem⟩

theorem completes_toldOf : Completes (toldOf results order) results where
  length_eq := by rw [toldOf, List.length_mapIdx]
  result_eq := fun _ _ htold => (toldOf_eq_some.mp htold).1

/-- What is settled, said of the order in which the slots have reported. -/
theorem settled_toldOf : Settled accepts (toldOf results order) ↔
    (∀ index < results.length, index ∈ order) ∨
      ∃ index response, AcceptedAt accepts results index response ∧
        ∀ lower ≤ index, lower ∈ order := by
  constructor
  · rintro (hall | ⟨index, response, htold, haccepted, hbelow⟩)
    · refine .inl fun index hlt => ?_
      refine Decidable.byContradiction fun hmem => ?_
      exact hall none (List.mem_of_getElem? (toldOf_eq_none.mpr ⟨hlt, hmem⟩)) rfl
    · obtain ⟨hresult, hmem⟩ := toldOf_eq_some.mp htold
      refine .inr ⟨index, response, ⟨hresult, haccepted⟩, fun lower hle => ?_⟩
      rcases Nat.lt_or_eq_of_le hle with hlt | rfl
      · refine Decidable.byContradiction fun hnot => ?_
        have hlength := (List.getElem?_eq_some_iff.mp hresult).1
        exact hbelow lower hlt (toldOf_eq_none.mpr ⟨by omega, hnot⟩)
      · exact hmem
  · rintro (hall | ⟨index, response, ⟨hresult, haccepted⟩, hbelow⟩)
    · refine .inl fun result hmem => ?_
      rintro rfl
      obtain ⟨index, hindex⟩ := List.mem_iff_getElem?.mp hmem
      obtain ⟨hlt, hnot⟩ := toldOf_eq_none.mp hindex
      exact hnot (hall index hlt)
    · refine .inr ⟨index, response, toldOf_eq_some.mpr ⟨hresult, hbelow index (Nat.le_refl _)⟩,
        haccepted, fun lower hlt hnone => ?_⟩
      exact (toldOf_eq_none.mp hnone).2 (hbelow lower (Nat.le_of_lt hlt))

/-- What a run of reports decides: nothing that was decided before, and once, for the choice over
all results, when it ends decided. -/
structure Decides (accepts : ResponseHead → Bool) (results : List Report) (before after : Bool)
    (rulings : List Ruling) : Prop where
  undecided_of_after : after = true → before = true
  winnersIn_of_same : after = before → winnersIn rulings = []
  winnersIn_of_decided : before = true → after = false → ∃ winner, winnersIn rulings = [winner] ∧
    Chooses accepts results winner (chosen winner)
  nonePanicked : NonePanicked rulings

theorem Decides.cons {told : List (Option Report)} (hcompletes : Completes told results)
    {before between after : Bool} {ruling : Ruling} {rulings : List Ruling}
    (h : Rules accepts told before between ruling)
    (h' : Decides accepts results between after rulings) :
    Decides accepts results before after (ruling :: rulings) := by
  have hpanicked : ∀ message, ruling ≠ .panicked message := by
    rintro message rfl
    cases h
  refine ⟨?_, ?_, ?_, fun message hmem => ?_⟩
  · intro hafter
    have hbetween := h'.undecided_of_after hafter
    cases h with
    | undecided => rfl
    | decided hchooses hlosers => cases hbetween
    | late response => cases hbetween
  · intro hsame
    cases h with
    | undecided => exact h'.winnersIn_of_same hsame
    | decided hchooses hlosers =>
      have hbetween := h'.undecided_of_after hsame
      cases hbetween
    | late response => exact h'.winnersIn_of_same hsame
  · intro hbefore hafter
    cases h with
    | undecided => exact h'.winnersIn_of_decided rfl hafter
    | @decided winner losers hchooses hlosers =>
      have hrest := h'.winnersIn_of_same hafter
      exact ⟨winner, congrArg (winner :: ·) hrest, hchooses results hcompletes⟩
    | late response => cases hbefore
  · rcases List.mem_cons.mp hmem with heq | hrest
    · exact hpanicked message heq.symm
    · exact h'.nonePanicked message hrest

theorem reportsOf_cons {index : Nat} {result : Report} (h : results[index]? = some result)
    (rest : List Nat) :
    reportsOf results (index :: rest) = (index, result) :: reportsOf results rest := by
  simp [reportsOf, h]

/-- **Runs of reports.** Whatever the order in which slots report, the race knows what it was told.
-/
theorem Knows.reportAll (h : Knows accepts (toldOf results order) race) {next : List Nat}
    (hnodup : (order ++ next).Nodup) (hrange : ∀ index ∈ next, index < results.length) :
    Knows accepts (toldOf results (order ++ next))
        (race.reportAll (Policy.ofBool accepts) (reportsOf results next)).1 ∧
      Decides accepts results race.undecided
        (race.reportAll (Policy.ofBool accepts) (reportsOf results next)).1.undecided
        (race.reportAll (Policy.ofBool accepts) (reportsOf results next)).2 := by
  -- On the slots that are still to report, with those that have reported in `order`.
  induction next generalizing order race with
  | nil =>
    rw [List.append_nil]
    exact ⟨h, fun h' => h', fun _ => rfl, fun h₁ h₂ => absurd (h₁.symm.trans h₂) (by simp),
      fun _ => List.not_mem_nil⟩
  | cons index rest ih =>
    have hlt := hrange index List.mem_cons_self
    have hresult := List.getElem?_eq_getElem hlt
    have hfresh : index ∉ order := fun hmem =>
      (List.nodup_append.mp hnodup).2.2 index hmem index List.mem_cons_self rfl
    obtain ⟨hknows, hrules⟩ := h.report (toldOf_eq_none.mpr ⟨hlt, hfresh⟩) results[index]
    rw [← toldOf_snoc hresult] at hknows hrules
    rw [List.append_cons] at hnodup
    obtain ⟨hknows', hdecides⟩ := ih hknows hnodup
      fun other hother => hrange other (List.mem_cons_of_mem _ hother)
    rw [List.append_cons, reportsOf_cons hresult]
    exact ⟨hknows', hdecides.cons completes_toldOf hrules⟩

end

/-! ## Whole races -/

/-- **What a race has come to** when the slots of an order have reported: it is decided exactly when
nothing that is missing could change the choice, and then it was decided once, for the choice over
all results. -/
structure HasHeard (accepts : ResponseHead → Bool) (results : List Report) (order : List Nat)
    (run : Race × List Ruling) : Prop where
  decided_iff : run.1.undecided = false ↔
    (∀ index < results.length, index ∈ order) ∨
      ∃ index response, AcceptedAt accepts results index response ∧
        ∀ lower ≤ index, lower ∈ order
  winnersIn_of_undecided : run.1.undecided = true → winnersIn run.2 = []
  winnersIn_of_decided : run.1.undecided = false → ∃ winner, winnersIn run.2 = [winner] ∧
    Chooses accepts results winner (chosen winner)
  nonePanicked : NonePanicked run.2

theorem hasHeard_reportAll {accepts : ResponseHead → Bool} {results : List Report} {race : Race}
    (hrace : ofSlots? results.length = .ok race) {order : List Nat} (hnodup : order.Nodup)
    (hrange : ∀ index ∈ order, index < results.length) :
    HasHeard accepts results order
      (race.reportAll (Policy.ofBool accepts) (reportsOf results order)) := by
  have hstart : Knows accepts (toldOf results []) race := by
    rw [toldOf_nil]
    exact knows_ofSlots? hrace
  have hundecided : race.undecided = true := by
    unfold ofSlots? at hrace
    split at hrace <;> cases hrace
    rfl
  obtain ⟨hknows, hdecides⟩ := hstart.reportAll hnodup hrange
  rw [List.nil_append] at hknows
  refine ⟨hknows.undecided_iff.trans settled_toldOf, fun hafter => ?_, fun hafter => ?_,
    hdecides.nonePanicked⟩
  · exact hdecides.winnersIn_of_same (hafter.trans hundecided.symm)
  · exact hdecides.winnersIn_of_decided hundecided hafter

/-- **A race chooses what there is to choose**, for every policy that is a function of the head, all
results of at least one slot, and every order in which slots report. It is decided neither too
early nor too late, stays decided, and any two orders that decide it choose the same response. -/
theorem reportAll_chooses (accepts : ResponseHead → Bool) {results : List Report}
    (hresults : results ≠ []) :
    ∃ race, ofSlots? results.length = .ok race ∧
      (∀ order : List Nat, order.Nodup → (∀ index ∈ order, index < results.length) →
        HasHeard accepts results order
          (race.reportAll (Policy.ofBool accepts) (reportsOf results order))) ∧
      (∀ order more : List Nat, (order ++ more).Nodup →
        (∀ index ∈ order ++ more, index < results.length) →
        (race.reportAll (Policy.ofBool accepts) (reportsOf results order)).1.undecided = false →
        (race.reportAll (Policy.ofBool accepts)
          (reportsOf results (order ++ more))).1.undecided = false) ∧
      ∀ order order' : List Nat, order.Nodup → order'.Nodup →
        (∀ index ∈ order, index < results.length) → (∀ index ∈ order', index < results.length) →
        (race.reportAll (Policy.ofBool accepts) (reportsOf results order)).1.undecided = false →
        (race.reportAll (Policy.ofBool accepts) (reportsOf results order')).1.undecided = false →
        winnersIn (race.reportAll (Policy.ofBool accepts) (reportsOf results order)).2 =
          winnersIn (race.reportAll (Policy.ofBool accepts) (reportsOf results order')).2 := by
  have hlength : results.length ≠ 0 := fun h => hresults (List.length_eq_zero_iff.mp h)
  obtain ⟨race, hrace⟩ : ∃ race, ofSlots? results.length = .ok race := ⟨_, if_neg hlength⟩
  refine ⟨race, hrace, fun order hnodup hrange => hasHeard_reportAll hrace hnodup hrange,
    fun order more hnodup hrange hdecided => ?_,
    fun order order' hnodup hnodup' hrange hrange' h h' => ?_⟩
  · have hheard : HasHeard accepts results order _ :=
      hasHeard_reportAll hrace (List.nodup_append.mp hnodup).1
        fun index hmem => hrange index (List.mem_append_left _ hmem)
    refine (hasHeard_reportAll hrace hnodup hrange).decided_iff.mpr ?_
    rcases hheard.decided_iff.mp hdecided with hall | ⟨index, response, haccepted, hbelow⟩
    · exact .inl fun index hlt => List.mem_append_left _ (hall index hlt)
    · exact .inr ⟨index, response, haccepted, fun lower hle =>
        List.mem_append_left _ (hbelow lower hle)⟩
  · obtain ⟨winner, hwinners, hchooses⟩ :=
      (hasHeard_reportAll hrace hnodup hrange).winnersIn_of_decided h
    obtain ⟨winner', hwinners', hchooses'⟩ :=
      (hasHeard_reportAll hrace hnodup' hrange').winnersIn_of_decided h'
    rw [hwinners, hwinners', (hchooses.unique hchooses').1]

/-- The accepted response of lower priority reports first, and the race waits for the slots before
it. -/
theorem reportAll_chooses_lowest :
    ([.error (.closed "gone"), .ok (Reply.octets [1]), .ok (Reply.octets [2])] : List Report) ≠ [] ∧
      ∃ race, ofSlots? 3 = .ok race ∧
        HasHeard (fun head => head.status == 200)
          [.error (.closed "gone"), .ok (Reply.octets [1]), .ok (Reply.octets [2])] [2, 1, 0]
          (race.reportAll (Policy.ofBool fun head => head.status == 200)
            (reportsOf [.error (.closed "gone"), .ok (Reply.octets [1]), .ok (Reply.octets [2])]
              [2, 1, 0])) ∧
        winnersIn (race.reportAll (Policy.ofBool fun head => head.status == 200)
            (reportsOf [.error (.closed "gone"), .ok (Reply.octets [1]), .ok (Reply.octets [2])]
              [2, 1, 0])).2 = [some (1, Reply.octets [1])] := by
  have hne : ([.error (.closed "gone"), .ok (Reply.octets [1]), .ok (Reply.octets [2])] :
      List Report) ≠ [] := List.cons_ne_nil _ _
  obtain ⟨race, hrace, hheard, -, -⟩ := reportAll_chooses (fun head => head.status == 200) hne
  refine ⟨hne, race, hrace, hheard [2, 1, 0] (by decide) (by simp), ?_⟩
  cases hrace
  rfl

end Race

end Switchboard
