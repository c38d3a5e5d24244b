import Switchboard.Proofs.Delivery.Prelude
import Switchboard.Proofs.Delivery.Rest
set_option autoImplicit false

/-! # On the way

A sending that makes notes and pauses first, and then goes on as another one, cannot be told apart
from that one by what its runs deliver and how they end: a run is still on its way, or it has come
to the other sending, and the choices that are left make the same of both (`Sending.Leads.choices`).

The other sending is a `GroupResponse` that has read its body, or the response that an
`AsyncResponse` has waited for. -/

namespace Switchboard

namespace Run

/-- Runs that cannot be told apart but by their notes. -/
structure Alike (r r' : Run) : Prop where
  sending_eq : r.sending = r'.sending
  delivered_eq : r.delivered = r'.delivered
  ending_eq : r.ending = r'.ending

theorem Alike.choose {r r' : Run} (h : r.Alike r') (choice : Choice) :
    (r.choose choice).Alike (r'.choose choice) := by
  obtain ⟨hsending, hdelivered, hending⟩ := h
  refine ⟨?_, ?_, ?_⟩
  · rw [sending_choose, sending_choose, hsending]
  · rw [delivered_choose, delivered_choose, hsending, hdelivered]
  · rw [ending_choose, ending_choose, hsending, hending]

theorem Alike.choices {r r' : Run} (h : r.Alike r') (list : List Choice) :
    (r.choices list).Alike (r'.choices list) ∧
      ∀ answer, r.answerAfter answer list = r'.answerAfter answer list := by
  induction list generalizing r r' with
  | nil => exact ⟨h, fun _ => rfl⟩
  | cons choice rest ih =>
    obtain ⟨halike, hanswer⟩ := ih (h.choose choice)
    refine ⟨halike, fun answer => ?_⟩
    rw [answerAfter, answerAfter, h.delivered_eq]
    exact hanswer _

end Run

namespace Sending

/-- What a choice reports to a slot of the broadcast within any wrappers. -/
def innerReport? : Sending → Choice → Option (Nat × Report)
  | .wrapped _ inner, choice => inner.innerReport? choice
  | s, choice => s.slotReport? choice

/-- What the slots of the broadcast within any wrappers report while a sending makes choices. -/
def innerReportsIn : Sending → List Choice → List (Nat × Report)
  | _, [] => []
  | s, choice :: rest => (s.innerReport? choice).toList ++ (s.after choice).innerReportsIn rest

theorem innerReportsIn_broadcast (c : Contest) (lanes : List Sending) (choices : List Choice) :
    (broadcast c lanes).innerReportsIn choices = (broadcast c lanes).reportsIn choices := by
  induction choices generalizing c lanes with
  | nil => rfl
  | cons choice rest ih =>
    obtain ⟨c', hnext, -⟩ := moves_after c lanes choice
    rw [innerReportsIn, reportsIn, hnext, ih]
    rfl

theorem after_wrapped (w : Wrapper) (s : Sending) (choice : Choice) :
    (wrapped w s).after choice = .wrapped w (s.after choice) := by
  cases choice with
  | answer response => rfl
  | task path =>
    rw [after, step, wrappedTurn]
    split <;> rfl

theorem innerReportsIn_wrapped (w : Wrapper) (s : Sending) (choices : List Choice) :
    (wrapped w s).innerReportsIn choices = s.innerReportsIn choices := by
  induction choices generalizing s with
  | nil => rfl
  | cons choice rest ih =>
    rw [innerReportsIn, innerReportsIn, after_wrapped, ih]
    rfl

/-- **A sending whose main task makes one step**, by which it becomes another one; nothing else
happens to it. -/
structure Opens (s next : Sending) : Prop where
  goes : ((Run.start s).choose (.task [])).Alike (Run.start next)
  stays : ∀ choice, choice ≠ .task [] → (Run.start s).choose choice = Run.start s
  quiet : ∀ choice, s.going choice = none ∧ s.innerReport? choice = none
  busy : ¬ s.Rests

theorem opens_note (note : Note) (next : Sending) : (Sending.note note next).Opens next where
  goes := ⟨rfl, rfl, rfl⟩
  stays := by
    intro choice hne
    rcases choice with (_ | ⟨index, path⟩) | response
    · exact absurd rfl hne
    · rfl
    · rfl
  quiet := by
    intro choice
    rcases choice with (_ | ⟨index, path⟩) | response <;> exact ⟨rfl, rfl⟩
  busy := by
    intro hrests
    have hsize := congrArg rank (hrests [])
    simp [step, rank] at hsize

theorem opens_pause (pause : Pause) (next : Sending) : (Sending.pause pause next).Opens next where
  goes := ⟨rfl, rfl, rfl⟩
  stays := by
    intro choice hne
    rcases choice with (_ | ⟨index, path⟩) | response
    · exact absurd rfl hne
    · rfl
    · rfl
  quiet := by
    intro choice
    rcases choice with (_ | ⟨index, path⟩) | response <;> exact ⟨rfl, rfl⟩
  busy := by
    intro hrests
    have hsize := congrArg rank (hrests [])
    simp [step, rank] at hsize

/-- **What is left of a run when it has come to a sending**: the other choices of this run make the
same of that sending. -/
structure Comes (s t : Sending) (choices next : List Choice) : Prop where
  subset : next ⊆ choices
  alike : ((Run.start s).choices choices).Alike ((Run.start t).choices next)
  answer_eq : (Run.start s).answerAfter none choices = (Run.start t).answerAfter none next
  own_eq : ∀ index, s.ownIn choices index = t.ownIn next index
  reports_eq : s.innerReportsIn choices = t.innerReportsIn next

/-- A run that is still on its way to what it is for. -/
structure OnItsWay (s : Sending) (choices : List Choice) : Prop where
  delivered_eq : ((Run.start s).choices choices).delivered = []
  ending_eq : ((Run.start s).choices choices).ending = none
  busy : ¬ ((Run.start s).choices choices).sending.Rests
  reports_eq : s.innerReportsIn choices = []

theorem Opens.choices {s next : Sending} (h : s.Opens next) (choices : List Choice) :
    s.OnItsWay choices ∨ ∃ rest, s.Comes next choices rest := by
  induction choices with
  | nil => exact .inl ⟨rfl, rfl, h.busy, rfl⟩
  | cons choice rest ih =>
    obtain ⟨hgoing, hreport⟩ := h.quiet choice
    have hown : ∀ index, s.ownIn (choice :: rest) index = (s.after choice).ownIn rest index := by
      intro index
      rw [ownIn, goingOf, hgoing]
      rfl
    have hreports : s.innerReportsIn (choice :: rest) = (s.after choice).innerReportsIn rest := by
      rw [innerReportsIn, hreport]
      rfl
    have hanswer : (Run.start s).answerAfter none (choice :: rest) =
        ((Run.start s).choose choice).answerAfter none rest := by
      cases choice <;> rfl
    by_cases hfirst : choice = .task []
    · subst hfirst
      obtain ⟨halike, hafter⟩ := h.goes.choices rest
      have hnext : s.after (.task []) = next := h.goes.sending_eq
      refine .inr ⟨rest, List.subset_cons_self _ _, halike, hanswer.trans (hafter none),
        fun index => ?_, ?_⟩
      · rw [hown, hnext]
      · rw [hreports, hnext]
    · have hstays := h.stays choice hfirst
      have hsame : s.after choice = s := by
        have hsending := congrArg Run.sending hstays
        rwa [Run.sending_choose] at hsending
      have hrun : (Run.start s).choices (choice :: rest) = (Run.start s).choices rest := by
        rw [Run.choices, List.foldl_cons, hstays]
        rfl
      rcases ih with ⟨hdelivered, hending, hbusy, hnone⟩ |
        ⟨next', hsubset, halike, hanswer', hown', hreports'⟩
      · rw [← hrun] at hdelivered hending hbusy
        refine .inl ⟨hdelivered, hending, hbusy, ?_⟩
        rw [hreports, hsame]
        exact hnone
      · refine .inr ⟨next', fun other hother => List.mem_cons_of_mem _ (hsubset hother), ?_, ?_,
          fun index => ?_, ?_⟩
        · rw [hrun]
          exact halike
        · rw [hanswer, hstays]
          exact hanswer'
        · rw [hown, hsame]
          exact hown' index
        · rw [hreports, hsame]
          exact hreports'

theorem Comes.trans {s t u : Sending} {choices next last : List Choice}
    (h : s.Comes t choices next) (h' : t.Comes u next last) : s.Comes u choices last where
  subset := fun _ hmem => h.subset (h'.subset hmem)
  alike := ⟨h.alike.sending_eq.trans h'.alike.sending_eq,
    h.alike.delivered_eq.trans h'.alike.delivered_eq, h.alike.ending_eq.trans h'.alike.ending_eq⟩
  answer_eq := h.answer_eq.trans h'.answer_eq
  own_eq := fun index => (h.own_eq index).trans (h'.own_eq index)
  reports_eq := h.reports_eq.trans h'.reports_eq

/-- What holds from the next step on. -/
theorem Opens.trans {s next t : Sending} (h : s.Opens next)
    (hnext : ∀ choices, next.OnItsWay choices ∨
      ∃ rest, next.Comes t choices rest) (choices : List Choice) :
    s.OnItsWay choices ∨ ∃ rest, s.Comes t choices rest := by
  rcases h.choices choices with hway | ⟨rest, hcomes⟩
  · exact .inl hway
  · rcases hnext rest with ⟨hdelivered, hending, hbusy, hnone⟩ | ⟨last, hlast⟩
    · refine .inl ⟨hcomes.alike.delivered_eq.trans hdelivered,
        hcomes.alike.ending_eq.trans hending, ?_, hcomes.reports_eq.trans hnone⟩
      rw [hcomes.alike.sending_eq]
      exact hbusy
    · exact .inr ⟨last, hcomes.trans hlast⟩

/-- **A run of a sending that leads to another one** is still on its way, or it is a run of that one
from then on. -/
theorem Leads.choices {s t : Sending} {notes : List Note} (h : s.Leads notes t)
    (choices : List Choice) :
    s.OnItsWay choices ∨ ∃ next, s.Comes t choices next := by
  induction h generalizing choices with
  | refl s => exact .inr ⟨choices, fun _ => id, ⟨rfl, rfl, rfl⟩, rfl, fun _ => rfl, rfl⟩
  | note note h ih => exact (opens_note note _).trans ih choices
  | pause pause h ih => exact (opens_pause pause _).trans ih choices

end Sending

end Switchboard
