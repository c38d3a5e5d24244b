import Switchboard.Proofs.Race.Reports
set_option autoImplicit false

/-! # Responses that are held

Until its race is decided, a response stays in the slot that reported it. The decision takes all of
them out at once (`Rulings`), so what the slots hold before it are the responses that were reported,
and after it they hold nothing.

They are the `Captured` responses in the slots of an `Aggregator`. -/

namespace Switchboard

namespace Race

/-! ## Held responses -/

/-- The responses among reports, with the slots that reported them. -/
def responsesOf (reports : List (Nat × Report)) : List (Nat × HeldReply) :=
  reports.filterMap fun report => (responseOf? report.2).map (report.1, ·)

theorem responsesOf_append (reports more : List (Nat × Report)) :
    responsesOf (reports ++ more) = responsesOf reports ++ responsesOf more :=
  List.filterMap_append

/-- Each slot that reports a response has reported. -/
theorem responsesOf_sublist (reports : List (Nat × Report)) :
    ((responsesOf reports).map Prod.fst).Sublist (reports.map Prod.fst) := by
  induction reports with
  | nil => exact .slnil
  | cons report rest ih =>
    obtain ⟨index, result⟩ := report
    cases result with
    | ok response => exact ih.cons_cons index
    | error cause => exact ih.cons index

section

variable {index : Nat} {slots : List Slot}

theorem pairwise_heldFrom (start : Nat) (slots : List Slot) :
    (heldFrom start slots).Pairwise (·.1 < ·.1) := by
  induction slots generalizing start with
  | nil => exact .nil
  | cons slot slots ih =>
    cases slot with
    | holds response =>
      refine .cons (fun held hheld => ?_) (ih (start + 1))
      obtain ⟨index, hindex, -⟩ := getElem?_of_mem_heldFrom hheld
      show start < held.1
      omega
    | empty => exact ih (start + 1)
    | failed => exact ih (start + 1)
    | spent => exact ih (start + 1)

/-- A response that is reported is held in its slot, and a failure is not. -/
theorem heldFrom_set (h : slots[index]? = some .empty) (start : Nat) (result : Report) :
    (heldFrom start (slots.set index (slotOf result))).Perm
      (heldFrom start slots ++ responsesOf [(start + index, result)]) := by
  induction slots generalizing start index with
  | nil => cases h
  | cons slot slots ih =>
    cases index with
    | zero =>
      rw [List.getElem?_cons_zero, Option.some.injEq] at h
      subst h
      cases result with
      | ok response =>
        have hcomm : ([(start, response)] ++ heldFrom (start + 1) slots).Perm
            (heldFrom (start + 1) slots ++ [(start, response)]) := List.perm_append_comm
        exact hcomm
      | error cause => simp [heldFrom, slotOf, responsesOf, responseOf?]
    | succ index =>
      have hrest := ih h (start + 1)
      rw [show start + 1 + index = start + (index + 1) by omega] at hrest
      cases slot with
      | holds other => exact hrest.cons (start, other)
      | empty => exact hrest
      | failed => exact hrest
      | spent => exact hrest

theorem heldFrom_set_spent (h : slots[index]? = some .empty) (start : Nat) :
    heldFrom start (slots.set index .spent) = heldFrom start slots := by
  induction slots generalizing start index with
  | nil => cases h
  | cons slot slots ih =>
    cases index with
    | zero =>
      rw [List.getElem?_cons_zero, Option.some.injEq] at h
      subst h
      rfl
    | succ index =>
      have hrest := ih h (start + 1)
      cases slot with
      | holds other => exact congrArg ((start, other) :: ·) hrest
      | empty => exact hrest
      | failed => exact hrest
      | spent => exact hrest

theorem heldFrom_release (start : Nat) (slots : List Slot) :
    heldFrom start (slots.map Slot.release) = [] := by
  induction slots generalizing start with
  | nil => rfl
  | cons slot slots ih => cases slot <;> exact ih (start + 1)

theorem heldFrom_replicate_empty (start count : Nat) :
    heldFrom start (List.replicate count .empty) = [] := by
  induction count generalizing start with
  | zero => rfl
  | succ count ih => exact ih (start + 1)

end

/-- A winner and the others are all that were held. -/
theorem perm_of_find {held : List (Nat × HeldReply)} (h : held.Pairwise (·.1 < ·.1)) (index : Nat) :
    ((held.find? (·.1 = index)).toList ++ held.filter (·.1 != index)).Perm held := by
  induction held with
  | nil => exact .nil
  | cons first rest ih =>
    obtain ⟨hfirst, hrest⟩ := List.pairwise_cons.mp h
    by_cases heq : first.1 = index
    · have hothers : rest.filter (·.1 != index) = rest := by
        rw [List.filter_eq_self]
        intro other hother
        have hlt := hfirst other hother
        rw [bne_iff_ne]
        omega
      rw [List.find?_cons_of_pos (by simpa using heq), List.filter_cons_of_neg (by simpa using heq),
        hothers]
      exact .refl _
    · rw [List.find?_cons_of_neg (by simpa using heq), List.filter_cons_of_pos (by simpa using heq)]
      exact List.perm_middle.trans ((ih hrest).cons first)

/-! ## The ruling -/

/-- A scan of the slots that leaves the choice open has found an empty one. -/
theorem empty_mem_of_open {policy : Policy} {start : Nat} {slots : List Slot}
    (h : standingFrom policy start slots = .open) : .empty ∈ slots := by
  induction slots generalizing start with
  | nil => cases h
  | cons slot slots ih =>
    unfold standingFrom at h
    split at h
    · exact List.mem_cons_self
    · split at h
      · cases h
      · exact List.mem_cons_of_mem _ (ih h)
      · cases h
    · exact List.mem_cons_of_mem _ (ih h)
    · exact List.mem_cons_of_mem _ (ih h)

/-- **What a ruling does with the responses that are held**: it leaves them where they are, or takes
all of them out. -/
inductive Rulings (policy : Policy) (slots : List Slot) : Race × Ruling → Prop where
  | «open» (hopen : standingFrom policy 0 slots = .open) :
      Rulings policy slots (⟨slots, true⟩, .undecided)
  | panicked (message : String) : Rulings policy slots (⟨slots, true⟩, .panicked message)
  | decided {winner : Option (Nat × HeldReply)} {losers : List (Nat × HeldReply)}
      (hparts : (winner.toList ++ losers).Perm (heldFrom 0 slots))
      (hlosers : losers.Sublist (heldFrom 0 slots)) :
      Rulings policy slots (⟨slots.map Slot.release, false⟩, .decided winner losers)

theorem rulings_rule (policy : Policy) (slots : List Slot) :
    Rulings policy slots (rule policy ⟨slots, true⟩) := by
  rw [rule]
  dsimp only
  split
  · next hopen => exact .open hopen
  · exact .panicked _
  · exact .decided (.refl _) (List.Sublist.refl _)
  · exact .decided (perm_of_find (pairwise_heldFrom 0 slots) _) List.filter_sublist

/-! ## Slots that have not reported -/

theorem getElem?_set_eq_empty {slots : List Slot} {index : Nat} {slot : Slot}
    (hslot : slot ≠ .empty) (other : Nat) : (slots.set index slot)[other]? = some .empty ↔
      slots[other]? = some .empty ∧ other ≠ index := by
  by_cases hother : index = other
  · subst hother
    simp [List.getElem?_set, hslot]
  · simp [List.getElem?_set_ne hother, Ne.symm hother]

/-- A slot that reports is not empty any more, and all others are as empty as before. -/
theorem getElem?_report_eq_empty {race : Race} {index : Nat}
    (hempty : race.slots[index]? = some .empty) (policy : Policy) (result : Report) (other : Nat) :
    (race.report policy index result).1.slots[other]? = some .empty ↔
      race.slots[other]? = some .empty ∧ other ≠ index := by
  have hslot : slotOf result ≠ .empty := by cases result <;> nofun
  cases hundecided : race.undecided with
  | false =>
    rw [report_of_decided hempty hundecided]
    exact getElem?_set_eq_empty (show Slot.spent ≠ .empty from nofun) other
  | true =>
    rw [report_of_undecided hempty hundecided, ← getElem?_set_eq_empty hslot]
    have hrulings := rulings_rule policy (race.slots.set index (slotOf result))
    generalize rule policy _ = ruled at hrulings ⊢
    cases hrulings with
    | «open» hopen => exact .rfl
    | panicked message => exact .rfl
    | decided hparts hlosers => exact getElem?_map_eq_empty (fun _ => release_eq_empty) _ other

end Race

end Switchboard
