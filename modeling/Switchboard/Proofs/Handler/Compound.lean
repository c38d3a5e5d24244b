import Switchboard.Proofs.Delivery.Promise
import Switchboard.Proofs.Handler.Group
set_option autoImplicit false

/-! # What a broadcast owes

A lane of a broadcast is a run of its own, and a result is what it comes to: the lane has returned,
and its slot was told this result, or it delivers first, and owes this response (`Sending.Plays`).
The results of all lanes are then those that the race decides over (`Run.Fulfils.completes`), so the
broadcast owes the choice over them (`Sending.honours_opening`). As it delivers first itself, that
makes it a lane of another broadcast again, and what is said of a group holds of the groups in it.

A sending that delivers its response does so by any choices, and a broadcast of such sendings is one
of them (`Sending.delivers_opening`). Its slots capture the responses of its lanes
(`Sending.captures_opening`). -/

namespace Switchboard

open Contest (tell? tellFirst toldAfter AllTold LosersCancel)
open Race (Completes Chooses Loses losers)

/-! ## Broadcasts -/

/-- The broadcast of these sendings when it begins. -/
def Sending.opening (accepts : ResponseHead → Bool) (race : Race) (starts : List Sending) :
    Sending :=
  .broadcast (.start (Policy.ofBool accepts) race starts.length none) starts

section

variable {accepts : ResponseHead → Bool} {race : Race} {starts : List Sending}

/-- What holds of each run of a broadcast. -/
theorem Sending.fulfils_opening (hrace : Race.ofSlots? starts.length = .ok race)
    (choices : List Choice) :
    ((Run.start (opening accepts race starts)).choices choices).Fulfils accepts starts
      ((opening accepts race starts).ownIn choices)
      (toldAfter starts.length ((opening accepts race starts).reportsIn choices)) := by
  have hchoices := (Run.fulfils_start accepts hrace []).choices choices
  simp only [List.nil_append] at hchoices
  exact hchoices

/-- What holds of it besides when the connection does not panic. -/
theorem Sending.contends_opening (hrace : Race.ofSlots? starts.length = .ok race)
    {choices : List Choice} (hcalm : ∀ choice ∈ choices, choice.Calm) :
    ((Run.start (opening accepts race starts)).choices choices).Contends accepts starts
      (toldAfter starts.length ((opening accepts race starts).reportsIn choices))
      ((Run.start (opening accepts race starts)).answerAfter none choices) :=
  (Handler.contends_start accepts hrace []).choices hcalm

/-- What holds of a lane that delivers first, besides, when the connection answers with results and
each response that was told and loses can be cancelled. -/
theorem Sending.heard_opening (hrace : Race.ofSlots? starts.length = .ok race)
    {choices : List Choice} (hplain : ∀ choice ∈ choices, choice.Plain)
    (hcancel : LosersCancel accepts
      (toldAfter starts.length ((opening accepts race starts).reportsIn choices)))
    {index : Nat} {start : Sending} (hstart : starts[index]? = some start)
    (hfirst : start.DeliversFirst) {c : Contest} {lanes : List Sending}
    (hsending : ((Run.start (opening accepts race starts)).choices choices).sending =
      .broadcast c lanes) :
    Heard start ((opening accepts race starts).ownIn choices index) (c.Waits index) := by
  refine (Run.fulfils_start accepts hrace []).heard hstart hfirst (fun _ _ _ => ?_) hplain hcancel
    c lanes hsending
  exact ⟨nofun, fun hdelivered => absurd rfl hdelivered⟩

end

/-! ## Lanes of their own -/

/-- A run that returned has not come to its end untold. -/
theorem Sending.not_endsUntold {s : Sending} {own : List Choice} {value : Delivery}
    (h : ((Run.start s).choices own).ending = some (.returned value)) : ¬ s.EndsUntold own := by
  rintro ⟨first, ⟨rest, rfl⟩, hreport, hending⟩
  obtain ⟨phase, haccounts⟩ := s.accounts_reportIn first
  have hboth := (((Run.start s).choices first).seen_choices rest).2
  rw [← Run.choices_append, h] at hboth
  cases hfirst : ((Run.start s).choices first).ending with
  | none => exact hending hfirst
  | some ending =>
    rw [hfirst] at hboth
    cases hboth
    exact (haccounts.quiet hreport).2 value hfirst

/-- **What a lane comes to**, as a run of its own: it has returned, and its slot was told this; or
it delivers first, and owes this response. -/
inductive Sending.Plays (lost : List Reply) (s : Sending) (own : List Choice) :
    Report → Prop where
  | returned {value : Delivery} {result : Report}
      (hending : ((Run.start s).choices own).ending = some (.returned value))
      (hreport : s.reportIn own = some result) : Plays lost s own result
  | owes {reply : Reply} (hfirst : s.DeliversFirst)
      (hhonours : ((Run.start s).choices own).Honours lost reply (∀ choice ∈ own, choice.Calm)
        (∀ choice ∈ own, choice.Plain) ((Run.start s).answerAfter none own)) :
      Plays lost s own (.ok reply)

section

variable {lost : List Reply} {s : Sending} {own : List Choice} {result : Report}

/-- More responses may lose. -/
theorem Sending.Plays.mono {more : List Reply} (h : s.Plays lost own result)
    (hsubset : lost ⊆ more) : s.Plays more own result := by
  cases h with
  | returned hending hreport => exact .returned hending hreport
  | owes hfirst hhonours => exact .owes hfirst (hhonours.mono hsubset)

theorem Sending.Plays.not_endsUntold (h : s.Plays lost own result) : ¬ s.EndsUntold own := by
  cases h with
  | returned hending hreport => exact Sending.not_endsUntold hending
  | owes hfirst hhonours => exact hfirst.not_endsUntold own

theorem Sending.Plays.reportIn_eq (h : s.Plays lost own result) :
    s.reportIn own = none ∨ s.reportIn own = some result := by
  cases h with
  | returned hending hreport => exact .inr hreport
  | owes hfirst hhonours =>
    rw [hfirst.reportIn_eq]
    rcases hhonours.once with hnil | hone
    · rw [hnil]
      exact .inl rfl
    · rw [hone]
      exact .inr rfl

/-- At rest, or at its end, the lane has told its slot. -/
theorem Sending.Plays.reportIn_ne_none (h : s.Plays lost own result)
    (hstate : (s.afterAll own).Rests ∨ ((Run.start s).choices own).ending ≠ none) :
    s.reportIn own ≠ none := by
  cases h with
  | returned hending hreport =>
    rw [hreport]
    exact Option.some_ne_none _
  | owes hfirst hhonours =>
    have hgiven : ((Run.start s).choices own).delivered ≠ [] := by
      rcases hstate with hrests | hended
      · refine hhonours.rests ?_
        rw [Run.sending_choices]
        exact hrests
      · exact hhonours.first hended
    rw [hfirst.reportIn_eq]
    intro hnone
    rw [Option.map_eq_none_iff, List.head?_eq_none_iff] at hnone
    exact hgiven hnone

end

/-- **What the lanes of a broadcast come to**, by these choices of their own. -/
structure Sending.AllPlay (lost : List Reply) (starts : List Sending) (own : Nat → List Choice)
    (results : List Report) : Prop where
  length_eq : starts.length = results.length
  plays : ∀ (index : Nat) (start : Sending) (result : Report), starts[index]? = some start →
    results[index]? = some result → start.Plays lost (own index) result

section

variable {accepts : ResponseHead → Bool} {lost : List Reply} {starts : List Sending}
  {results : List Report} {own : Nat → List Choice} {told : List (Option Report)} {r : Run}

/-- More responses may lose. -/
theorem Sending.AllPlay.mono {more : List Reply} (h : Sending.AllPlay lost starts own results)
    (hsubset : lost ⊆ more) : Sending.AllPlay more starts own results :=
  ⟨h.length_eq, fun index start result hstart hresult =>
    (h.plays index start result hstart hresult).mono hsubset⟩

/-- One more lane, before the others. -/
theorem Sending.AllPlay.cons {start : Sending} {result : Report}
    (hplays : start.Plays lost (own 0) result)
    (h : Sending.AllPlay lost starts (fun index => own (index + 1)) results) :
    Sending.AllPlay lost (start :: starts) own (result :: results) where
  length_eq := congrArg (· + 1) h.length_eq
  plays := by
    intro index other played hother hplayed
    cases index with
    | zero =>
      cases hother
      cases hplayed
      exact hplays
    | succ index => exact h.plays index other played hother hplayed

theorem Sending.AllPlay.exists_plays (h : Sending.AllPlay lost starts own results)
    {index : Nat} {start : Sending} (hstart : starts[index]? = some start) :
    ∃ result, start.Plays lost (own index) result := by
  have hlt : index < results.length := by
    rw [← h.length_eq]
    exact (List.getElem?_eq_some_iff.mp hstart).1
  exact ⟨_, h.plays index start _ hstart (List.getElem?_eq_getElem hlt)⟩

/-- The results agree with what the slots have told. -/
theorem Run.Fulfils.completes (h : r.Fulfils accepts starts own told)
    (hlanes : Sending.AllPlay lost starts own results) : Completes told results := by
  obtain ⟨c, lanes, -, -, hthreads, -, hlength⟩ := h
  refine ⟨hlanes.length_eq.symm.trans hlength.symm, fun index result hresult => ?_⟩
  have hlt : index < starts.length := hlength ▸ (List.getElem?_eq_some_iff.mp hresult).1
  have hstart := List.getElem?_eq_getElem hlt
  have hplayed := List.getElem?_eq_getElem (hlanes.length_eq ▸ hlt : index < results.length)
  have hplays := hlanes.plays index _ _ hstart hplayed
  rw [hplayed]
  rcases (hthreads.thread index _ hstart).told_eq with htold | huntold
  · rw [hresult, Option.some.injEq] at htold
    rcases hplays.reportIn_eq with hnone | hsome
    · rw [hnone] at htold
      cases htold
    · rw [hsome, Option.some.injEq] at htold
      rw [htold]
  · exact absurd huntold hplays.not_endsUntold

/-- A response that was told and loses is among the losers. -/
theorem Race.Completes.losersCancel (h : Completes told results)
    (hcancel : ∀ held ∈ losers accepts (results.map (·.toOption)),
      (HeldReply.cancel [] held).size.isSome = true) : LosersCancel accepts told := by
  intro index reply hloses
  refine hcancel reply (hloses.mem_losers fun other held hheld => ?_)
  rw [List.getElem?_map, h.result_eq other _ hheld]
  rfl

/-- **A broadcast of lanes that come to these results** owes the choice over them. Whoever is not
chosen loses, and so does whatever loses in a lane. -/
theorem Sending.honours_opening {race : Race} (hrace : Race.ofSlots? starts.length = .ok race)
    {choices : List Choice}
    (hlanes : AllPlay lost starts ((opening accepts race starts).ownIn choices) results)
    (hlost : losers accepts (results.map (·.toOption)) ⊆ lost)
    {winner : Option (Nat × HeldReply)} {reply : Reply}
    (hchooses : Chooses accepts results winner reply) :
    ((Run.start (opening accepts race starts)).choices choices).Honours lost reply
      (∀ choice ∈ choices, choice.Calm) (∀ choice ∈ choices, choice.Plain)
      ((Run.start (opening accepts race starts)).answerAfter none choices) := by
  have hfulfils : Run.Fulfils accepts _ _ _ _ := fulfils_opening hrace choices
  refine ⟨?_, hfulfils.delivered_of_ending, fun hrests => ?_, fun hcalm ending hending => ?_,
    fun hplain hcancel hrests value hanswer => ?_⟩
  · rcases hfulfils.delivered_eq with hnil | ⟨winner', hone, hchosen⟩
    · exact .inl hnil
    · obtain ⟨-, heq⟩ := hchooses.unique (hchosen _ (hfulfils.completes hlanes))
      rw [heq] at hone
      exact .inr hone
  -- Each lane has told its slot by then.
  · refine hfulfils.delivered_of_allTold (hfulfils.allTold_of_rests hrests ?_ ?_)
    · intro index start hstart hstate
      obtain ⟨result, hplays⟩ := hlanes.exists_plays hstart
      exact hplays.reportIn_ne_none hstate
    · intro index start hstart
      obtain ⟨result, hplays⟩ := hlanes.exists_plays hstart
      exact hplays.not_endsUntold
  · exact ((contends_opening hrace hcalm).settles.returned ending hending).2
  -- Each lane that owes a response has been answered by then, so all lanes have returned.
  · have hcontends : Run.Contends accepts _ _ _ _ :=
      contends_opening hrace fun choice hmem => (hplain choice hmem).calm
    have hall := (hfulfils.completes hlanes).losersCancel fun held hheld =>
      hcancel held (hlost hheld)
    rw [hanswer] at hcontends
    refine hfulfils.returned_of_rests hcontends hall hrests ?_
    intro index start hstart hlane hfree
    obtain ⟨result, hplays⟩ := hlanes.exists_plays hstart
    cases hplays with
    | returned hending hreport =>
      rw [hending]
      exact Option.some_ne_none _
    | owes hfirst hhonours =>
      obtain ⟨c, lanes, hsending, -⟩ := hfulfils
      obtain ⟨hown, hheard⟩ := heard_opening hrace hplain hall hstart hfirst hsending
      have hrests' : ((Run.start start).choices
          ((opening accepts race starts).ownIn choices index)).sending.Rests := by
        rw [Run.sending_choices]
        exact hlane
      rcases hheard (hhonours.rests hrests') with ⟨answer, hanswered⟩ | hwaits
      · rw [hhonours.returns hown hcancel hrests' answer hanswered]
        exact Option.some_ne_none _
      · exact absurd hwaits (hfree c lanes hsending)

/-- A broadcast delivers first, whatever its lanes do. -/
theorem Sending.deliversFirst_opening {race : Race}
    (hrace : Race.ofSlots? starts.length = .ok race) :
    (opening accepts race starts).DeliversFirst := by
  intro choices
  have hfulfils : Run.Fulfils accepts _ _ _ _ := fulfils_opening hrace choices
  refine ⟨?_, hfulfils.delivered_of_ending⟩
  rcases hfulfils.delivered_eq with hnil | ⟨winner, hone, -⟩
  · rw [hnil]
    exact Nat.zero_le 1
  · rw [hone]
    exact Nat.le_refl 1

end

/-! ## Broadcasts of sendings that deliver -/

section

variable {accepts : ResponseHead → Bool} {lost replies : List Reply} {starts : List Sending}

/-- Each of the sendings delivers its response. -/
def Sending.AllDeliver (lost : List Reply) (starts : List Sending) (replies : List Reply) : Prop :=
  starts.length = replies.length ∧ ∀ (index : Nat) (start : Sending) (reply : Reply),
    starts[index]? = some start → replies[index]? = some reply → start.Delivers lost reply

/-- More responses may lose. -/
theorem Sending.AllDeliver.mono {more : List Reply} (h : Sending.AllDeliver lost starts replies)
    (hsubset : lost ⊆ more) : Sending.AllDeliver more starts replies :=
  ⟨h.1, fun index start reply hstart hreply => (h.2 index start reply hstart hreply).mono hsubset⟩

theorem Sending.AllDeliver.allPlay (h : Sending.AllDeliver lost starts replies)
    (own : Nat → List Choice) : Sending.AllPlay lost starts own (replies.map .ok) where
  length_eq := by rw [List.length_map, h.1]
  plays := by
    intro index start result hstart hresult
    rw [List.getElem?_map, Option.map_eq_some_iff] at hresult
    obtain ⟨reply, hreply, rfl⟩ := hresult
    have hdelivers := h.2 index start reply hstart hreply
    exact .owes hdelivers.deliversFirst (hdelivers (own index))

/-- **A broadcast of sendings that deliver** delivers the choice over their responses. -/
theorem Sending.delivers_opening {race : Race} (hrace : Race.ofSlots? starts.length = .ok race)
    (hstarts : AllDeliver lost starts replies) (hlost : losers accepts (replies.map some) ⊆ lost)
    {winner : Option (Nat × HeldReply)} {reply : Reply}
    (hchooses : Chooses accepts (replies.map .ok) winner reply) :
    (opening accepts race starts).Delivers lost reply := by
  have hgiven : (replies.map (Except.ok : Reply → Report)).map (·.toOption) = replies.map some :=
    List.map_map
  rw [← hgiven] at hlost
  exact fun _ => honours_opening hrace (hstarts.allPlay _) hlost hchooses

end

/-! ## What the slots capture -/

/-- The slots of a broadcast capture these responses, in order, and no failure. -/
def Sending.Captures (captured : List Reply) (s : Sending) : Prop :=
  ∀ choices index report, (s.innerReportsIn choices).find? (·.1 == index) = some (index, report) →
    ∃ reply, captured[index]? = some reply ∧ report = .ok reply

/-- A slot tells the first thing that it reports. -/
theorem Contest.getElem?_foldl_tellFirst (told : List (Option Report))
    (reports : List (Nat × Report)) (index : Nat) :
    (reports.foldl tellFirst told)[index]? =
      (told[index]?).map (· <|> (reports.find? (·.1 == index)).map (·.2)) := by
  induction reports generalizing told with
  | nil =>
    rw [List.foldl_nil]
    cases told[index]? with
    | none => rfl
    | some result => cases result <;> rfl
  | cons report rest ih =>
    rw [List.foldl_cons, ih, List.find?_cons]
    by_cases hsame : report.1 = index
    · subst hsame
      rw [getElem?_tellFirst_self, beq_self_eq_true]
      cases told[report.1]? with
      | none => rfl
      | some result => cases result <;> rfl
    · rw [getElem?_tellFirst_ne told (Ne.symm hsame), beq_eq_false_iff_ne.mpr hsame]

/-- A sending that is neither a broadcast nor about to become one. -/
def Sending.Slotless : Sending → Prop
  | .ended => True
  | .stalled => True
  | .returns _ => True
  | .panics _ => True
  | .deliver _ => True
  | .delivered => True
  | _ => False

theorem Sending.Slotless.after {s : Sending} (h : s.Slotless) (choice : Choice) :
    (s.after choice).Slotless ∧ s.innerReport? choice = none := by
  cases s with
  | note note next => cases h
  | pause pause next => cases h
  | wrapped wrapper inner => cases h
  | detached name started inner => cases h
  | broadcast c lanes => cases h
  | delivered =>
    rcases choice with (_ | ⟨index, path⟩) | (result | message | _) <;> exact ⟨trivial, rfl⟩
  | _ => rcases choice with (_ | ⟨index, path⟩) | response <;> exact ⟨trivial, rfl⟩

theorem Sending.Slotless.captures {s : Sending} (h : s.Slotless) (captured : List Reply) :
    s.Captures captured := by
  have hnone : ∀ choices, s.innerReportsIn choices = [] := by
    intro choices
    induction choices generalizing s with
    | nil => rfl
    | cons choice rest ih =>
      obtain ⟨hnext, hreport⟩ := h.after choice
      rw [innerReportsIn, hreport, ih hnext]
      rfl
  intro choices index report hfound
  rw [hnone] at hfound
  cases hfound

section

variable {accepts : ResponseHead → Bool} {captured lost replies : List Reply}
  {starts : List Sending}

/-- Only the slots of the lanes report. -/
theorem Run.Fulfils.lt_of_report {own : Nat → List Choice} {told : List (Option Report)} {r : Run}
    (h : r.Fulfils accepts starts own told) (list : List Choice) :
    ∀ report ∈ r.sending.reportsIn list, report.1 < starts.length := by
  induction list generalizing r own told with
  | nil => exact fun _ hmem => absurd hmem List.not_mem_nil
  | cons choice rest ih =>
    intro report hmem
    rw [Sending.reportsIn, List.mem_append, ← Run.sending_choose] at hmem
    rcases hmem with hnow | hlater
    · obtain ⟨c, lanes, hsending, hunderway, hthreads, -⟩ := h
      rw [hsending, Option.mem_toList] at hnow
      obtain ⟨c', -, hmoves⟩ := Sending.moves_after c lanes choice
      rw [hnow] at hmoves
      have hlt := hmoves.lt_of_report
      have hlane := hthreads.lane_eq report.1
      rw [List.getElem?_eq_getElem hlt] at hlane
      cases hstart : starts[report.1]? with
      | none =>
        rw [hstart] at hlane
        cases hlane
      | some start => exact (List.getElem?_eq_some_iff.mp hstart).1
    · exact ih (h.choose choice) report hlater

/-- The slots of a broadcast of sendings that deliver capture their responses. -/
theorem Sending.captures_opening {race : Race} (hrace : Race.ofSlots? starts.length = .ok race)
    (hstarts : AllDeliver lost starts replies) :
    (opening accepts race starts).Captures replies := by
  intro choices index report hfound
  rw [opening, innerReportsIn_broadcast] at hfound
  have hlt : index < starts.length :=
    (Run.fulfils_start accepts hrace []).lt_of_report choices _ (List.mem_of_find?_eq_some hfound)
  have htold : (toldAfter starts.length
      ((opening accepts race starts).reportsIn choices))[index]? = some (some report) := by
    rw [toldAfter, Contest.getElem?_foldl_tellFirst, opening, hfound, List.getElem?_replicate,
      if_pos hlt]
    rfl
  have hresult := ((fulfils_opening hrace choices).completes
    (hstarts.allPlay _)).result_eq index report htold
  rw [List.getElem?_map, Option.map_eq_some_iff] at hresult
  obtain ⟨reply, hreply, heq⟩ := hresult
  exact ⟨reply, hreply, heq.symm⟩

theorem Sending.Leads.captures {s t : Sending} {notes : List Note} (h : s.Leads notes t)
    (ht : t.Captures captured) : s.Captures captured := by
  intro choices index report hfound
  rcases h.choices choices with hway | ⟨next, hcomes⟩
  · rw [hway.reports_eq] at hfound
    cases hfound
  · rw [hcomes.reports_eq] at hfound
    exact ht next index report hfound

theorem Sending.Captures.wrapped {s : Sending} (h : s.Captures captured) (w : Wrapper) :
    (Sending.wrapped w s).Captures captured := by
  intro choices
  rw [innerReportsIn_wrapped]
  exact h choices

end

end Switchboard
