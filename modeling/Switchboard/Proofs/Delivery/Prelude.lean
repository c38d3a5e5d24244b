import Switchboard.Proofs.Body.Content
import Switchboard.Proofs.Delivery.Broadcast
set_option autoImplicit false

/-! # What comes before a broadcast

Before a sending becomes a broadcast it makes notes and pauses, one after the other and on its main
task alone. `Sending.Leads` says where that leads to. Until then nothing is delivered or reported,
whatever else is tried (`Sending.Leads.choices`).

So does a `GroupResponse` while it reads the body of the request, and an `AsyncResponse` while it
waits for its future. -/

namespace Switchboard

theorem Run.notes_choices (r : Run) (list : List Choice) :
    ∃ later, (r.choices list).notes = r.notes ++ later := by
  induction list generalizing r with
  | nil => exact ⟨[], (List.append_nil _).symm⟩
  | cons choice rest ih =>
    obtain ⟨later, hlater⟩ := ih (r.choose choice)
    cases choice <;> exact ⟨_, hlater.trans (List.append_assoc _ _ _)⟩

namespace Sending

/-- A sending that makes these notes, with pauses between them, and then goes on as another one. -/
inductive Leads : Sending → List Note → Sending → Prop where
  | refl (s : Sending) : Leads s [] s
  | note (note : Note) {next s : Sending} {notes : List Note} (h : Leads next notes s) :
      Leads (.note note next) (note :: notes) s
  | pause (pause : Pause) {next s : Sending} {notes : List Note} (h : Leads next notes s) :
      Leads (.pause pause next) notes s

theorem Leads.trans {s t u : Sending} {notes more : List Note} (h : Leads s notes t)
    (h' : Leads t more u) : Leads s (notes ++ more) u := by
  induction h with
  | refl s => exact h'
  | note note h ih => exact .note note (ih h')
  | pause pause h ih => exact .pause pause (ih h')

theorem leads_afterNotes (notes : List Note) (s : Sending) :
    Leads (afterNotes notes s) notes s := by
  induction notes with
  | nil => exact .refl s
  | cons note notes ih => exact .note note ih

theorem leads_afterWork {α : Type} {work : Work α} {notes : List Note} {value : α}
    (h : work.Yields notes value) (f : α → Sending) : Leads (afterWork work f) notes (f value) := by
  induction h with
  | done value => exact .refl (f value)
  | note note h ih => exact .note note ih
  | pause pause h ih => exact .pause pause ih

/-! ## Runs -/

/-- A run that is on its way to a sending, or has just come to it: some of these notes are made, and
the rest is left. -/
structure Precedes (notes : List Note) (s : Sending) (r : Run) : Prop where
  leads : ∃ left, r.notes ++ left = notes ∧ r.sending.Leads left s
  delivered_eq : r.delivered = []
  ending_eq : r.ending = none

section

variable {notes : List Note} {s : Sending} {r : Run}

/-- **A step before the broadcast.** -/
theorem Precedes.choose (h : Precedes notes s r) (hne : r.sending ≠ s) (choice : Choice) :
    Precedes notes s (r.choose choice) ∧ r.sending.slotReport? choice = none := by
  obtain ⟨⟨left, hnotes, hleads⟩, hdelivered, hending⟩ := h
  obtain ⟨sending, made, delivered, ending⟩ := r
  dsimp only at hnotes hleads hdelivered hending hne
  subst hdelivered hending
  have hstay : sending.Leads left s → made ++ [] ++ left = notes ∧ sending.Leads left s := by
    intro h
    rw [List.append_nil]
    exact ⟨hnotes, h⟩
  cases hleads with
  | refl => exact absurd rfl hne
  | @note note next s left hleads =>
    cases choice with
    | answer response => exact ⟨⟨⟨_, hstay (.note note hleads)⟩, rfl, rfl⟩, rfl⟩
    | task path =>
      cases path with
      -- There is no lane yet.
      | cons index path => exact ⟨⟨⟨_, hstay (.note note hleads)⟩, rfl, rfl⟩, rfl⟩
      | nil =>
        have hmade : made ++ [note] ++ left = notes := by simpa using hnotes
        exact ⟨⟨⟨left, hmade, hleads⟩, rfl, rfl⟩, rfl⟩
  | @pause pause next s left hleads =>
    cases choice with
    | answer response => exact ⟨⟨⟨_, hstay (.pause pause hleads)⟩, rfl, rfl⟩, rfl⟩
    | task path =>
      cases path with
      | cons index path => exact ⟨⟨⟨_, hstay (.pause pause hleads)⟩, rfl, rfl⟩, rfl⟩
      | nil => exact ⟨⟨⟨left, (hstay (.pause pause hleads)).1, hleads⟩, rfl, rfl⟩, rfl⟩

theorem Precedes.eq_of_arrived {c : Contest} {lanes : List Sending}
    (h : Precedes notes (.broadcast c lanes) r) (hsending : r.sending = .broadcast c lanes) :
    r = ⟨.broadcast c lanes, notes, [], none⟩ := by
  obtain ⟨⟨left, hnotes, hleads⟩, hdelivered, hending⟩ := h
  obtain ⟨sending, made, delivered, ending⟩ := r
  dsimp only at hnotes hleads hdelivered hending hsending
  subst hsending hdelivered hending
  cases hleads
  rw [List.append_nil] at hnotes
  rw [hnotes]

theorem Precedes.ne_broadcast {c : Contest} {lanes : List Sending}
    (h : Precedes notes (.broadcast c lanes) r) (hne : r.sending ≠ .broadcast c lanes)
    (c' : Contest) (lanes' : List Sending) : r.sending ≠ .broadcast c' lanes' := by
  obtain ⟨left, -, hleads⟩ := h.leads
  generalize r.sending = sending at hleads hne
  cases hleads with
  | refl => exact absurd rfl hne
  | note note h => exact fun heq => by cases heq
  | pause pause h => exact fun heq => by cases heq

/-- **A run before the broadcast.** It comes to the broadcast, or it is still on its way. -/
theorem Precedes.choices {c : Contest} {lanes : List Sending}
    (h : Precedes notes (.broadcast c lanes) r) (list : List Choice) :
    (Precedes notes (.broadcast c lanes) (r.choices list) ∧
        (r.choices list).sending ≠ .broadcast c lanes ∧ reportsIn r.sending list = []) ∨
      ∃ first next, list = first ++ next ∧
        r.choices first = ⟨.broadcast c lanes, notes, [], none⟩ ∧
        reportsIn r.sending list = reportsIn (.broadcast c lanes) next ∧
        ∀ answer, r.answerAfter answer list = (r.choices first).answerAfter answer next := by
  -- On the choices, up to the one that comes to the broadcast.
  induction list generalizing r with
  | nil =>
    by_cases hsending : r.sending = .broadcast c lanes
    · exact .inr ⟨[], [], rfl, h.eq_of_arrived hsending, rfl, fun _ => rfl⟩
    · exact .inl ⟨h, hsending, rfl⟩
  | cons choice rest ih =>
    by_cases hsending : r.sending = .broadcast c lanes
    · exact .inr ⟨[], choice :: rest, rfl, h.eq_of_arrived hsending, by rw [hsending],
        fun _ => rfl⟩
    · obtain ⟨hnext, hreport⟩ := h.choose hsending choice
      have hreports : reportsIn r.sending (choice :: rest) =
          reportsIn (r.choose choice).sending rest := by
        rw [reportsIn, hreport, Run.sending_choose]
        rfl
      have hanswer : ∀ answer, answerNext r.delivered answer choice = answer := by
        intro answer
        rw [h.delivered_eq]
        cases choice <;> rfl
      rw [hreports]
      rcases ih hnext with ⟨hprecedes, hne, hnone⟩ | ⟨first, next, rfl, hfirst, hnext', hafter⟩
      · exact .inl ⟨hprecedes, hne, hnone⟩
      · refine .inr ⟨choice :: first, next, rfl, hfirst, hnext', fun answer => ?_⟩
        rw [Run.answerAfter, hanswer]
        exact hafter answer

end

end Sending

end Switchboard
