import Switchboard.Proofs.Connection.Histories
set_option autoImplicit false

/-! # Patience with a client

A client that has been given a response comes to its end if it is polled often enough with the gates
of the body open, and the clock goes on in between (`Connection.patience`). Whatever else happens
meanwhile, short of a drop, does not bring it further from the end: what it has left to do never
gets longer, and each of these polls ends it or makes it shorter. The main statement is
`Connection.Nears.ends`. -/

namespace Switchboard

namespace Connection

/-- Polls with these gates open, and the clock in between. -/
def patience (opened : List String) : Nat → List ConnectionEvent
  | 0 => [.poll opened]
  | rounds + 1 => .poll opened :: .wake :: patience opened rounds

/-- The client has answered, or what it has left of a response is not longer than this. -/
inductive Nears (reply : Reply) (rounds : Nat) : Connection → Prop where
  | answered {c : Connection} (hresult : c.result?.isSome) : Nears reply rounds c
  | taking {client : Client} {script : Taking} (hrest : (ClientKind.readWhole reply).Rest script)
    (hlength : script.length ≤ rounds) : Nears reply rounds ⟨client, .taking script⟩

/-- The same once the clock has ended the pause that the client is in. -/
inductive Waits (reply : Reply) (rounds : Nat) : Connection → Prop where
  | nears {c : Connection} (h : Nears reply rounds c) : Waits reply rounds c
  | clock {client : Client} {pause : Pause} {next : Taking}
    (hrest : (ClientKind.readWhole reply).Rest (.pause pause next))
    (hclock : ∀ name, pause ≠ .gate name) (hlength : next.length ≤ rounds) :
    Waits reply rounds ⟨client, .taking (.pause pause next)⟩

section

variable {c : Connection} {history later : List ConnectionEvent} {event : ConnectionEvent}
  {reply : Reply} {rounds : Nat} {opened : List String}

theorem afterAll_of_answered (hresult : c.result?.isSome) (later : List ConnectionEvent) :
    (c.afterAll later).result?.isSome := by
  obtain ⟨delivery, hdelivery⟩ := Option.isSome_iff_exists.mp hresult
  have hover : c.isHeld = false := by
    rw [isHeld, result?_eq_some_iff.mp hdelivery]
  rw [(afterAll_of_over hover later).1]
  exact hresult

/-- No event but a drop brings the client further from the end. -/
theorem Nears.after (h : Nears reply rounds c) (hdrop : event ≠ .drop) :
    Nears reply rounds (c.after event) := by
  cases h with
  | answered hresult => exact .answered (afterAll_of_answered hresult [event])
  | @taking client script hrest hlength =>
    cases event with
    | give other => exact .taking hrest hlength
    | poll opened =>
      obtain ⟨notes, taken, hpoll, -⟩ | ⟨notes, rest, hpoll, hleft⟩ :=
        ((passable_readWhole reply).of_rest hrest).poll_cases opened
      · rw [after_poll_of_finished hpoll]
        exact .answered rfl
      · rw [after_poll_of_blocked hpoll]
        exact .taking (hrest.trans hleft) (Nat.le_trans hleft.length_le hlength)
    | wake =>
      obtain ⟨rest, hafter, hleft⟩ := after_wake_taking client script
      rw [hafter]
      exact .taking (hrest.trans hleft) (Nat.le_trans hleft.length_le hlength)
    | stopListening => exact .taking hrest hlength
    | drop => exact absurd rfl hdrop

theorem Waits.after (h : Waits reply rounds c) (hdrop : event ≠ .drop) :
    Waits reply rounds (c.after event) := by
  cases h with
  | nears h => exact .nears (h.after hdrop)
  | @clock client pause next hrest hclock hlength =>
    cases event with
    | give other => exact .clock hrest hclock hlength
    | poll opened =>
      rw [after_poll_of_clock hclock]
      exact .clock hrest hclock hlength
    | wake =>
      rw [after_wake_of_clock hclock]
      exact .nears (.taking (hrest.trans (.pause pause (.refl next))) hlength)
    | stopListening => exact .clock hrest hclock hlength
    | drop => exact absurd rfl hdrop

/-- The clock ends the pause. -/
theorem Waits.after_wake (h : Waits reply rounds c) : Nears reply rounds (c.after .wake) := by
  cases h with
  | nears h => exact h.after (by simp)
  | @clock client pause next hrest hclock hlength =>
    rw [after_wake_of_clock hclock]
    exact .taking (hrest.trans (.pause pause (.refl next))) hlength

/-- **A poll with all gates open** reaches the end, or a pause that is one step nearer to it. -/
theorem Nears.after_poll (h : Nears reply rounds c)
    (hgates : ∀ name ∈ reply.body.gates, name ∈ opened)
    (hends : reply.body.obstacle? ≠ some .stalls) :
    (c.after (.poll opened)).result?.isSome ∨
      ∃ fewer, rounds = fewer + 1 ∧ Waits reply fewer (c.after (.poll opened)) := by
  cases h with
  | answered hresult => exact .inl (afterAll_of_answered hresult [.poll opened])
  | @taking client script hrest hlength =>
    obtain ⟨taken, htaken⟩ := exists_value?_readWhole hends
    rw [← hrest.value?_eq] at htaken
    obtain ⟨notes, hpoll⟩ | ⟨notes, pause, next, hpoll, hclock, hleft⟩ :=
      (((passable_readWhole reply).mono hgates).of_rest hrest).poll_opened htaken
    · rw [after_poll_of_finished hpoll]
      exact .inl rfl
    · have hshorter : next.length + 1 ≤ rounds := Nat.le_trans hleft.length_le hlength
      refine .inr ⟨rounds - 1, by omega, ?_⟩
      rw [after_poll_of_blocked hpoll]
      exact .clock (hrest.trans hleft) hclock (by omega)

theorem Nears.afterAll (h : Nears reply rounds c) (hdrop : .drop ∉ later) :
    Nears reply rounds (c.afterAll later) :=
  afterAll_of_after Nears.after h hdrop

theorem Waits.afterAll (h : Waits reply rounds c) (hdrop : .drop ∉ later) :
    Waits reply rounds (c.afterAll later) :=
  afterAll_of_after Waits.after h hdrop

theorem sublist_split {first : ConnectionEvent} {rest : List ConnectionEvent}
    (h : (first :: rest).Sublist later) :
    ∃ before after, later = before ++ first :: after ∧ rest.Sublist after := by
  obtain ⟨init, last, rfl, hmem, hrest⟩ := List.cons_sublist_iff.mp h
  obtain ⟨before, after, rfl⟩ := List.append_of_mem hmem
  exact ⟨before, after ++ last, by simp, hrest.trans (List.sublist_append_right after last)⟩

/-- **With patience the client comes to its end**, whatever else happens meanwhile. -/
theorem Nears.ends (hgates : ∀ name ∈ reply.body.gates, name ∈ opened)
    (hends : reply.body.obstacle? ≠ some .stalls) (h : Nears reply rounds c)
    (hdrop : .drop ∉ later) (hpatience : (patience opened rounds).Sublist later) :
    (c.afterAll later).result?.isSome := by
  induction rounds generalizing c later with
  | zero =>
    obtain ⟨before, after, rfl, -⟩ := sublist_split hpatience
    simp only [List.mem_append, List.mem_cons, not_or] at hdrop
    rw [afterAll_append, afterAll_cons]
    obtain hresult | ⟨fewer, hfewer, -⟩ := (h.afterAll hdrop.1).after_poll hgates hends
    · exact afterAll_of_answered hresult after
    · omega
  | succ rounds ih =>
    rw [patience] at hpatience
    obtain ⟨before, after, rfl, hwake⟩ := sublist_split hpatience
    obtain ⟨between, after, rfl, hrest⟩ := sublist_split hwake
    simp only [List.mem_append, List.mem_cons, not_or] at hdrop
    rw [afterAll_append, afterAll_cons]
    obtain hresult | ⟨fewer, hfewer, hwaits⟩ := (h.afterAll hdrop.1).after_poll hgates hends
    · exact afterAll_of_answered hresult (between ++ .wake :: after)
    · obtain rfl : rounds = fewer := by omega
      rw [afterAll_append, afterAll_cons]
      exact ih (hwaits.afterAll hdrop.2.2.1).after_wake hdrop.2.2.2.2 hrest

theorem nears_collecting (hgiven : givenIn history = some reply) (hdrop : .drop ∉ history) :
    ∃ rounds, Nears reply rounds (collecting history) := by
  have hstage := stage_collecting history
  generalize hc : collecting history = c at hstage
  cases hstage with
  | unused htold => exact absurd (htold.given_eq.symm.trans hgiven) (by simp)
  | taking htold hrest =>
    obtain rfl := Option.some.inj (htold.given_eq.symm.trans hgiven)
    exact ⟨_, .taking hrest (Nat.le_refl _)⟩
  | ended hover hcollects =>
    refine ⟨0, .answered ?_⟩
    generalize c.result? = result, c.mailbox = mailbox at hcollects
    cases hcollects with
    | held hheld =>
      rw [hc, hover] at hheld
      cases hheld
    | dropped hheld => exact absurd (by simp) hdrop
    | failed hreads hbody => rfl
    | unheard hreads hbody hgone => rfl
    | handedOver hreads hbody hlistens => rfl

end

end Connection

end Switchboard
