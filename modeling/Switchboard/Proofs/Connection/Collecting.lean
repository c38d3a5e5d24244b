import Switchboard.Proofs.Connection.Patience
set_option autoImplicit false

/-! # Collecting connections

A collecting connection hands over a whole response or none, and tells both sides so. The main
statement is `Connection.collecting_allOrNothing`. -/

namespace Switchboard

namespace Connection

section

variable {c : Connection} {history : List ConnectionEvent} {result : Option Delivery}
  {mailbox : Mailbox} {reply : Reply}

/-! ## What is handed over is whole -/

theorem Collects.ok_iff (h : Collects history result mailbox) :
    result = some (.ok ()) ↔ ∃ whole, mailbox = .response whole := by
  cases h with
  | held hheld hdrop => simp
  | dropped hheld => simp [nothingComes]
  | failed hreads hbody => simp [nothingComes]
  | unheard hreads hbody hgone => simp [nothingComes]
  | handedOver hreads hbody hlistens => simp

theorem ReadsAt.given_later {before : List ConnectionEvent} {opened : List String}
    (h : ReadsAt before opened reply) (later : List ConnectionEvent) :
    givenIn (before ++ later) = some reply := by
  rw [givenIn_append, h.given, Option.some_or]

theorem ReadsAt.reply_eq {before later : List ConnectionEvent} {opened : List String}
    {other : Reply} (h : ReadsAt before opened other)
    (hgiven : givenIn (before ++ later) = some reply) : other = reply :=
  Option.some.inj ((h.given_later later).symm.trans hgiven)

/-- **A response is never truncated.** -/
theorem Collects.whole_eq {whole : WholeReply} (h : Collects history result (.response whole)) :
    ∃ reply, givenIn history = some reply ∧ reply.body.obstacle? = none ∧
      whole = ⟨reply.head, reply.body.data⟩ := by
  generalize hmailbox : Mailbox.response whole = mailbox at h
  cases h with
  | held hheld hdrop => cases hmailbox
  | dropped hheld => cases hmailbox
  | failed hreads hbody => cases hmailbox
  | unheard hreads hbody hgone => cases hmailbox
  | handedOver hreads hbody hlistens =>
    cases hmailbox
    exact ⟨_, hreads.given_later _, hbody, rfl⟩

/-- **A body that fails** leaves nothing behind but its error. -/
theorem Collects.of_fails {e : BodyError} {delivery : Delivery}
    (h : Collects history (some delivery) mailbox) (hgiven : givenIn history = some reply)
    (hbody : reply.body.obstacle? = some (.fails e)) :
    delivery = .error (.body e) ∧ mailbox = nothingComes := by
  generalize hresult : some delivery = result at h
  cases h with
  | held hheld hdrop => cases hresult
  | dropped hheld => cases hresult
  | failed hreads hfails =>
    obtain rfl := hreads.reply_eq hgiven
    rw [hfails] at hbody
    cases hbody
    cases hresult
    exact ⟨rfl, rfl⟩
  | unheard hreads hwhole hgone =>
    obtain rfl := hreads.reply_eq hgiven
    rw [hwhole] at hbody
    cases hbody
  | handedOver hreads hwhole hlistens =>
    obtain rfl := hreads.reply_eq hgiven
    rw [hwhole] at hbody
    cases hbody

/-- **A connection that is dropped** when it is unused or in the middle of the response. -/
theorem collecting_dropped {before : List ConnectionEvent}
    (hheld : (collecting before).isHeld = true) (later : List ConnectionEvent) :
    (collecting (before ++ .drop :: later)).result? = none ∧
      (collecting (before ++ .drop :: later)).mailbox = nothingComes := by
  have hover : ((collecting before).after .drop).isHeld = false ∧
      ((collecting before).after .drop).result? = none ∧
      ((collecting before).after .drop).mailbox = nothingComes := by
    have hstage := stage_collecting before
    generalize collecting before = c at hheld hstage
    cases hstage with
    | unused htold => exact ⟨rfl, rfl, rfl⟩
    | taking htold hrest => exact ⟨rfl, rfl, rfl⟩
    | ended hover hcollects =>
      rw [hover] at hheld
      cases hheld
  obtain ⟨hover, hresult, hmailbox⟩ := hover
  rw [collecting_append, afterAll_cons, ← hresult, ← hmailbox]
  exact afterAll_of_over hover later

/-! ## All or nothing -/

/-- **A collecting connection is all-or-nothing**, for every history. What both sides are told is
one of the cases of `Collects`. The delivery succeeds if and only if a response has been handed
over, and a response that has been handed over has the head and all of the data of the one that was
given. If the body fails, the only result is its error; if the connection is dropped while it is
held, there is no result; and nothing comes in either case. Unless the body stalls or the connection
is dropped, a result comes. -/
theorem collecting_allOrNothing (history : List ConnectionEvent) :
    Collects history (collecting history).result? (collecting history).mailbox ∧
    ((collecting history).result? = some (.ok ()) ↔
      ∃ whole, (collecting history).mailbox = .response whole) ∧
    (∀ whole, (collecting history).mailbox = .response whole →
      ∃ reply, givenIn history = some reply ∧ reply.body.obstacle? = none ∧
        whole = ⟨reply.head, reply.body.data⟩) ∧
    (∀ reply e delivery, givenIn history = some reply →
      reply.body.obstacle? = some (.fails e) → (collecting history).result? = some delivery →
        delivery = .error (.body e) ∧ (collecting history).mailbox = nothingComes) ∧
    (∀ before later, history = before ++ .drop :: later → (collecting before).isHeld = true →
      (collecting history).result? = none ∧ (collecting history).mailbox = nothingComes) ∧
    ∀ reply opened, givenIn history = some reply → .drop ∉ history →
      reply.body.obstacle? ≠ some .stalls → (∀ name ∈ reply.body.gates, name ∈ opened) →
      ∃ rounds, ∀ later, .drop ∉ later → (patience opened rounds).Sublist later →
        (collecting (history ++ later)).result?.isSome := by
  have hcollects := collects history
  refine ⟨hcollects, hcollects.ok_iff, ?_, ?_, ?_, ?_⟩
  · intro whole hwhole
    rw [hwhole] at hcollects
    exact hcollects.whole_eq
  · intro reply e delivery hgiven hbody hresult
    rw [hresult] at hcollects
    exact hcollects.of_fails hgiven hbody
  · rintro before later rfl hheld
    exact collecting_dropped hheld later
  · intro reply opened hgiven hdrop hends hgates
    obtain ⟨rounds, hnears⟩ := nears_collecting hgiven hdrop
    refine ⟨rounds, fun later hlater hpatience => ?_⟩
    rw [collecting_append]
    exact hnears.ends hgates hends hlater hpatience

end

/-- The data comes in parts, with a wait, a gate and trailers between them, and then the body fails.
Nobody listens any more. With patience the failure is told, whatever else happens meanwhile. -/
theorem collecting_allOrNothing_broken :
    let e : BodyError := .io "reset"
    let body : Body := .stream ⟨"body", false, [.frame (.data [97, 98]), .wait 5, .gate "open",
      .frame (.trailers .empty), .frame (.data [99]), .fail e], none⟩
    ∃ rounds, ∀ later, .drop ∉ later → (patience ["open"] rounds).Sublist later →
      (collecting ([.give ⟨⟨201, .empty⟩, body⟩, .stopListening] ++ later)).result? =
        some (.error (.body e)) := by
  intro e body
  have hbody : body.obstacle? = some (.fails e) := rfl
  obtain ⟨-, -, -, -, -, hends⟩ :=
    collecting_allOrNothing [.give ⟨⟨201, .empty⟩, body⟩, .stopListening]
  obtain ⟨rounds, hrounds⟩ := hends ⟨⟨201, .empty⟩, body⟩ ["open"] rfl (by simp)
    (by simp [hbody]) (by simp [body, Body.gates])
  refine ⟨rounds, fun later hdrop hpatience => ?_⟩
  obtain ⟨delivery, hresult⟩ := Option.isSome_iff_exists.mp (hrounds later hdrop hpatience)
  obtain ⟨-, -, -, hfails, -, -⟩ :=
    collecting_allOrNothing ([.give ⟨⟨201, .empty⟩, body⟩, .stopListening] ++ later)
  obtain ⟨rfl, -⟩ := hfails ⟨⟨201, .empty⟩, body⟩ e delivery rfl hbody hresult
  exact hresult

end Connection

end Switchboard
