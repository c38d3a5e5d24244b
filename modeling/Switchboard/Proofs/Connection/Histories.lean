import Mathlib.Data.List.Induction
import Switchboard.Connection.Basic
import Switchboard.Proofs.Body.Obstacles
set_option autoImplicit false

/-! # The histories of a collecting connection

`Connection.Collects` says, for every history of a collecting connection, what both sides have been
told: whoever gave the response, and whoever waits for it. Either of them may go away at any moment,
and the body may fail or wait at any item. An event leads from one stage to another
(`Connection.Stage.after`), and so every history comes to one of the cases
(`Connection.collects`). -/

namespace Switchboard

namespace Connection

/-! ## Histories -/

/-- A collecting connection after this history. -/
def collecting (history : List ConnectionEvent) : Connection :=
  (ofKind .collecting).afterAll history

/-- The first response that is given. -/
def givenIn (history : List ConnectionEvent) : Option Reply :=
  history.findSome? fun
    | .give reply => some reply
    | _ => none

/-- With this poll the client has come to an end with the response that it was given. -/
structure ReadsAt (before : List ConnectionEvent) (opened : List String) (reply : Reply) :
    Prop where
  given : givenIn before = some reply
  held : (collecting before).isHeld = true
  ended : (collecting (before ++ [.poll opened])).isHeld = false

/-- What is found in the mailbox of a connection that will bring nothing. -/
def nothingComes : Mailbox := .failed (.closed "connection dropped without response")

/-- **What both sides are told**: the result of the delivery, once there is one, and what is found
in the mailbox. -/
inductive Collects : List ConnectionEvent → Option Delivery → Mailbox → Prop where
  /-- The connection is unused, or the client is still reading. -/
  | held {history : List ConnectionEvent} (hheld : (collecting history).isHeld = true)
    (hdrop : .drop ∉ history) : Collects history none .pending
  /-- It was dropped when it was unused, or in the middle of the response. -/
  | dropped {before later : List ConnectionEvent} (hheld : (collecting before).isHeld = true) :
    Collects (before ++ .drop :: later) none nothingComes
  /-- The body failed. -/
  | failed {before later : List ConnectionEvent} {opened : List String} {reply : Reply}
    {e : BodyError} (hreads : ReadsAt before opened reply)
    (hbody : reply.body.obstacle? = some (.fails e)) :
    Collects (before ++ .poll opened :: later) (some (.error (.body e))) nothingComes
  /-- The response was read to its end when nobody listened any more. -/
  | unheard {before later : List ConnectionEvent} {opened : List String} {reply : Reply}
    (hreads : ReadsAt before opened reply) (hbody : reply.body.obstacle? = none)
    (hgone : .stopListening ∈ before) :
    Collects (before ++ .poll opened :: later)
      (some (.error (.closed "collected response receiver dropped"))) nothingComes
  /-- The response was read to its end and handed over, with all of its data. -/
  | handedOver {before later : List ConnectionEvent} {opened : List String} {reply : Reply}
    (hreads : ReadsAt before opened reply) (hbody : reply.body.obstacle? = none)
    (hlistens : .stopListening ∉ before) :
    Collects (before ++ .poll opened :: later) (some (.ok ()))
      (.response ⟨reply.head, reply.body.data⟩)

section

variable {c : Connection} {history : List ConnectionEvent} {event : ConnectionEvent}
  {result : Option Delivery} {mailbox : Mailbox} {reply : Reply}

theorem afterAll_append (c : Connection) (first later : List ConnectionEvent) :
    c.afterAll (first ++ later) = (c.afterAll first).afterAll later := by
  simp [afterAll]

theorem afterAll_cons (c : Connection) (event : ConnectionEvent) (later : List ConnectionEvent) :
    c.afterAll (event :: later) = (c.after event).afterAll later := rfl

/-- What no event but a drop takes away is kept by a history without drops. -/
theorem afterAll_of_after {motive : Connection → Prop}
    (hafter : ∀ {c : Connection} {event : ConnectionEvent}, motive c → event ≠ .drop →
      motive (c.after event))
    (h : motive c) (hdrop : .drop ∉ history) : motive (c.afterAll history) := by
  induction history generalizing c with
  | nil => exact h
  | cons event rest ih =>
    rw [List.mem_cons, not_or] at hdrop
    exact ih (hafter h (Ne.symm hdrop.1)) hdrop.2

theorem collecting_append (history later : List ConnectionEvent) :
    collecting (history ++ later) = (collecting history).afterAll later :=
  afterAll_append _ history later

theorem collecting_concat (history : List ConnectionEvent) (event : ConnectionEvent) :
    collecting (history ++ [event]) = (collecting history).after event :=
  collecting_append history [event]

theorem givenIn_append (history more : List ConnectionEvent) :
    givenIn (history ++ more) = (givenIn history).or (givenIn more) := by
  simp [givenIn, List.findSome?_append]

/-- What has been told is not taken back. -/
theorem Collects.later (h : Collects history result mailbox)
    (hover : (collecting history).isHeld = false) (more : List ConnectionEvent) :
    Collects (history ++ more) result mailbox := by
  cases h with
  | held hheld hdrop =>
    rw [hheld] at hover
    cases hover
  | dropped hheld =>
    rw [List.append_assoc, List.cons_append]
    exact .dropped hheld
  | failed hreads hbody =>
    rw [List.append_assoc, List.cons_append]
    exact .failed hreads hbody
  | unheard hreads hbody hgone =>
    rw [List.append_assoc, List.cons_append]
    exact .unheard hreads hbody hgone
  | handedOver hreads hbody hlistens =>
    rw [List.append_assoc, List.cons_append]
    exact .handedOver hreads hbody hlistens

/-- Nothing more happens on a connection that is not held any more. -/
theorem after_of_over (hover : c.isHeld = false) (event : ConnectionEvent) :
    (c.after event).isHeld = false ∧ (c.after event).result? = c.result? ∧
      (c.after event).mailbox = c.mailbox := by
  obtain ⟨client, state⟩ := c
  cases state with
  | unused => cases hover
  | taking script => cases hover
  | answered result => cases event <;> exact ⟨rfl, rfl, rfl⟩
  | panicked message => cases event <;> exact ⟨rfl, rfl, rfl⟩
  | dropped => cases event <;> exact ⟨rfl, rfl, rfl⟩

/-- Nothing more happens on a connection that is not held any more, however long it is kept. -/
theorem afterAll_of_over (hover : c.isHeld = false) (later : List ConnectionEvent) :
    (c.afterAll later).result? = c.result? ∧ (c.afterAll later).mailbox = c.mailbox := by
  induction later generalizing c with
  | nil => exact ⟨rfl, rfl⟩
  | cons event later ih =>
    obtain ⟨hover', hresult, hmailbox⟩ := after_of_over hover event
    rw [← hresult, ← hmailbox]
    exact ih hover'

theorem result?_eq_some_iff {delivery : Delivery} :
    c.result? = some delivery ↔ c.state = .answered delivery := by
  obtain ⟨client, state⟩ := c
  cases state <;> simp [result?]

/-! ## One event -/

section

variable {client : Client} {script next : Taking} {pause : Pause} {opened : List String}
  {notes : List Note}

theorem after_poll_of_finished {taken : Except SendError (Option WholeReply)}
    (hpoll : script.poll opened = (notes, .finished taken)) :
    Connection.after ⟨client, .taking script⟩ (.poll opened) =
      ⟨(client.handOver taken).1, .answered (client.handOver taken).2⟩ := by
  simp [Connection.after, poll, hpoll]

theorem after_poll_of_blocked (hpoll : script.poll opened = (notes, .blocked next)) :
    Connection.after ⟨client, .taking script⟩ (.poll opened) = ⟨client, .taking next⟩ := by
  simp [Connection.after, poll, hpoll]

/-- A poll does not end a pause that the clock ends. -/
theorem after_poll_of_clock (hclock : ∀ name, pause ≠ .gate name) :
    Connection.after ⟨client, .taking (.pause pause next)⟩ (.poll opened) =
      ⟨client, .taking (.pause pause next)⟩ := by
  cases pause with
  | sleep ms => rfl
  | shared key ms => rfl
  | gate name => exact absurd rfl (hclock name)

theorem after_wake_of_clock (hclock : ∀ name, pause ≠ .gate name) :
    Connection.after ⟨client, .taking (.pause pause next)⟩ .wake = ⟨client, .taking next⟩ := by
  cases pause with
  | sleep ms => rfl
  | shared key ms => rfl
  | gate name => exact absurd rfl (hclock name)

theorem after_wake_taking (client : Client) (script : Taking) :
    ∃ rest, Connection.after ⟨client, .taking script⟩ .wake = ⟨client, .taking rest⟩ ∧
      script.Rest rest := by
  cases script with
  | pause pause next =>
    by_cases hgate : ∃ name, pause = .gate name
    · obtain ⟨name, rfl⟩ := hgate
      exact ⟨_, rfl, .refl _⟩
    · exact ⟨next, after_wake_of_clock (not_exists.mp hgate), .pause pause (.refl next)⟩
  | done value => exact ⟨_, rfl, .refl _⟩
  | panics message => exact ⟨_, rfl, .refl _⟩
  | stalled => exact ⟨_, rfl, .refl _⟩
  | note note next => exact ⟨_, rfl, .refl _⟩

end

/-! ## What the client reads -/

/-- What the client comes to with a response: all of it, or the failure of its body. -/
theorem value?_readWhole (reply : Reply) :
    (ClientKind.readWhole reply).value? =
      (Obstacle.outcome? reply.body.obstacle? reply.body.data).map fun
        | .ok content => .ok (some ⟨reply.head, content⟩)
        | .error e => .error (.body e) :=
  (Work.value?_map _).trans (congrArg _ reply.body.value?_content)

/-- It comes to something unless the body stalls. -/
theorem exists_value?_readWhole (hends : reply.body.obstacle? ≠ some .stalls) :
    ∃ taken, (ClientKind.readWhole reply).value? = some taken := by
  rw [value?_readWhole]
  cases hbody : reply.body.obstacle? with
  | none => exact ⟨_, rfl⟩
  | some obstacle =>
    cases obstacle with
    | fails e => exact ⟨_, rfl⟩
    | stalls => exact absurd hbody hends

theorem passable_readWhole (reply : Reply) :
    (ClientKind.readWhole reply).Passable reply.body.gates :=
  reply.body.passable_content.map _

/-! ## The stages of a connection -/

/-- What has happened to a connection that is held: nobody has dropped it, and it has been given
this. -/
structure Told (history : List ConnectionEvent) (given : Option Reply) (listening : Bool) :
    Prop where
  given_eq : givenIn history = given
  not_dropped : .drop ∉ history
  listening_iff : listening = true ↔ .stopListening ∉ history

section

variable {given : Option Reply} {listening : Bool}

theorem Told.give (h : Told history given listening) (reply : Reply) :
    Told (history ++ [.give reply]) (given.or (some reply)) listening where
  given_eq := by rw [givenIn_append, h.given_eq]; rfl
  not_dropped := by simp [h.not_dropped]
  listening_iff := by simp [h.listening_iff]

theorem Told.poll (h : Told history given listening) (opened : List String) :
    Told (history ++ [.poll opened]) given listening where
  given_eq := by rw [givenIn_append, h.given_eq]; exact Option.or_none
  not_dropped := by simp [h.not_dropped]
  listening_iff := by simp [h.listening_iff]

theorem Told.wake (h : Told history given listening) :
    Told (history ++ [.wake]) given listening where
  given_eq := by rw [givenIn_append, h.given_eq]; exact Option.or_none
  not_dropped := by simp [h.not_dropped]
  listening_iff := by simp [h.listening_iff]

theorem Told.stopListening (h : Told history given listening) :
    Told (history ++ [.stopListening]) given false where
  given_eq := by rw [givenIn_append, h.given_eq]; exact Option.or_none
  not_dropped := by simp [h.not_dropped]
  listening_iff := by simp

end

/-- How far a collecting connection is after a history. -/
inductive Stage (history : List ConnectionEvent) : Connection → Prop where
  | unused {listening : Bool} (htold : Told history none listening) :
    Stage history ⟨⟨.collecting, listening, none⟩, .unused⟩
  | taking {listening : Bool} {reply : Reply} {script : Taking}
    (htold : Told history (some reply) listening)
    (hrest : (ClientKind.readWhole reply).Rest script) :
    Stage history ⟨⟨.collecting, listening, none⟩, .taking script⟩
  | ended {c : Connection} (hover : c.isHeld = false)
    (hcollects : Collects history c.result? c.mailbox) : Stage history c

/-- **What the end of the reading tells both sides.** -/
theorem Stage.read {listening : Bool} {opened : List String}
    {taken : Except SendError (Option WholeReply)} (hreads : ReadsAt history opened reply)
    (htold : Told history (some reply) listening)
    (htaken : (ClientKind.readWhole reply).value? = some taken) :
    Stage (history ++ [.poll opened])
      ⟨(Client.handOver ⟨.collecting, listening, none⟩ taken).1,
        .answered (Client.handOver ⟨.collecting, listening, none⟩ taken).2⟩ := by
  refine .ended rfl ?_
  rw [value?_readWhole] at htaken
  cases hbody : reply.body.obstacle? with
  | none =>
    rw [hbody] at htaken
    cases htaken
    cases listening with
    | true => exact .handedOver hreads hbody (htold.listening_iff.mp rfl)
    | false =>
      refine .unheard hreads hbody ?_
      by_contra hlistens
      cases htold.listening_iff.mpr hlistens
  | some obstacle =>
    rw [hbody] at htaken
    cases obstacle with
    | fails e =>
      cases htaken
      exact .failed hreads hbody
    | stalls => cases htaken

/-- **Every event leads from one stage to another.** -/
theorem Stage.after (h : Stage history (collecting history)) (event : ConnectionEvent) :
    Stage (history ++ [event]) (collecting (history ++ [event])) := by
  have hconcat := collecting_concat history event
  generalize hc : collecting history = c at h
  rw [hc] at hconcat
  cases h with
  | @unused listening htold =>
    cases event with
    | give reply =>
      rw [hconcat]
      exact .taking (htold.give reply) (.refl _)
    | poll opened =>
      rw [hconcat]
      exact .unused (htold.poll opened)
    | wake =>
      rw [hconcat]
      exact .unused htold.wake
    | stopListening =>
      rw [hconcat]
      exact .unused htold.stopListening
    | drop =>
      rw [hconcat]
      exact .ended rfl (.dropped (by rw [hc]; rfl))
  | @taking listening reply script htold hrest =>
    cases event with
    | give other =>
      rw [hconcat]
      exact .taking (htold.give other) hrest
    | poll opened =>
      obtain ⟨notes, taken, hpoll, hvalue⟩ | ⟨notes, rest, hpoll, hleft⟩ :=
        ((passable_readWhole reply).of_rest hrest).poll_cases opened
      · rw [after_poll_of_finished hpoll] at hconcat
        rw [hconcat]
        refine .read ⟨htold.given_eq, by rw [hc]; rfl, by rw [hconcat]; rfl⟩ htold ?_
        rw [← hrest.value?_eq, hvalue]
      · rw [hconcat, after_poll_of_blocked hpoll]
        exact .taking (htold.poll opened) (hrest.trans hleft)
    | wake =>
      obtain ⟨rest, hafter, hleft⟩ := after_wake_taking ⟨.collecting, listening, none⟩ script
      rw [hconcat, hafter]
      exact .taking htold.wake (hrest.trans hleft)
    | stopListening =>
      rw [hconcat]
      exact .taking htold.stopListening hrest
    | drop =>
      rw [hconcat]
      exact .ended rfl (.dropped (by rw [hc]; rfl))
  | ended hover hcollects =>
    obtain ⟨hover', hresult, hmailbox⟩ := after_of_over hover event
    rw [hconcat]
    refine .ended hover' ?_
    rw [hresult, hmailbox]
    exact hcollects.later (by rw [hc]; exact hover) [event]

theorem stage_collecting (history : List ConnectionEvent) :
    Stage history (collecting history) := by
  induction history using List.reverseRecOn with
  | nil => exact .unused ⟨rfl, by simp, iff_of_true rfl (by simp)⟩
  | append_singleton history event ih => exact ih.after event

theorem collects (history : List ConnectionEvent) :
    Collects history (collecting history).result? (collecting history).mailbox := by
  have hstage := stage_collecting history
  generalize hc : collecting history = c at hstage
  cases hstage with
  | unused htold => exact .held (by rw [hc]; rfl) htold.not_dropped
  | taking htold hrest => exact .held (by rw [hc]; rfl) htold.not_dropped
  | ended hover hcollects => exact hcollects

end

end Connection

end Switchboard
