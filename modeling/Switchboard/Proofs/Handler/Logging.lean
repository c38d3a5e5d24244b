import Switchboard.Proofs.Delivery.Sights
import Switchboard.Proofs.Routing.Plans
set_option autoImplicit false

/-! # Logging

Logging decorators are transparent. Whatever a handler does, and however many of them are stacked
around it, it is asked once and with the request as it is, each step of its sending has the same
effect, and so the connection is given the same response and the main task comes to the same end
under every schedule. What is added is a line for the request in front of everything else, outermost
first, and then one line of each layer, innermost first, in front of the response and of a failure
(`Sight.logged`). -/

namespace Switchboard

/-! ## Layers -/

/-- A handler within logging decorators at these levels, the first one innermost. -/
def Handler.loggedAt (handler : Handler) (levels : List Level) : Handler :=
  (Decorator.ofList (levels.map .logging)).apply handler

/-- A sending within the wrappers of these layers. -/
def Sending.loggedAt (s : Sending) (request : String) (levels : List Level) : Sending :=
  levels.foldl (fun inner level => .wrapped (.logged request level) inner) s

/-- What layers at these levels note when a handler is asked, the outermost one first. -/
def Note.requestsReceived (request : String) (levels : List Level) : List Note :=
  levels.reverse.map fun level => .log (.requestReceived level request)

/-- **What layers at these levels make of what is seen**: each of them has a line, the innermost one
first, in front of a response and in front of a failure. -/
def Sight.logged (request : String) (levels : List Level) (sight : Sight) : List Sight :=
  match sight with
  | .given reply =>
    levels.map (fun level => .noted (.log (.responseSent level request reply.head.status))) ++
      [sight]
  | .ended (.returned (.error error)) =>
    levels.map (fun _ => .noted (.log (.deliveryFailed request error.message))) ++ [sight]
  | sight => [sight]

/-- **Two sendings that differ in their notes only**: their tasks do the same, let the same be seen
of it and start and wake the same tasks, whatever happens. -/
structure Sending.Resembles (s t : Sending) : Prop where
  signal_eq : ∀ choices path,
    ((s.afterAll choices).step path).signal = ((t.afterAll choices).step path).signal
  spawned_eq : ∀ choices path,
    ((s.afterAll choices).step path).spawned = ((t.afterAll choices).step path).spawned
  woken_eq : ∀ choices path,
    ((s.afterAll choices).step path).woken = ((t.afterAll choices).step path).woken
  answered_eq : ∀ choices response,
    ((s.afterAll choices).resume response).woken = ((t.afterAll choices).resume response).woken

section

variable {s t u : Sending}

theorem Sending.resembles_refl (s : Sending) : s.Resembles s :=
  ⟨fun _ _ => rfl, fun _ _ => rfl, fun _ _ => rfl, fun _ _ => rfl⟩

theorem Sending.Resembles.trans (h : s.Resembles t) (h' : t.Resembles u) : s.Resembles u where
  signal_eq := fun choices path => (h.signal_eq choices path).trans (h'.signal_eq choices path)
  spawned_eq := fun choices path => (h.spawned_eq choices path).trans (h'.spawned_eq choices path)
  woken_eq := fun choices path => (h.woken_eq choices path).trans (h'.woken_eq choices path)
  answered_eq := fun choices response =>
    (h.answered_eq choices response).trans (h'.answered_eq choices response)

theorem Sending.Resembles.after (h : s.Resembles t) (choice : Choice) :
    (s.after choice).Resembles (t.after choice) where
  signal_eq := fun choices => h.signal_eq (choice :: choices)
  spawned_eq := fun choices => h.spawned_eq (choice :: choices)
  woken_eq := fun choices => h.woken_eq (choice :: choices)
  answered_eq := fun choices => h.answered_eq (choice :: choices)

theorem Sending.Resembles.seen_eq (h : s.Resembles t) (choice : Choice) :
    s.gives choice = t.gives choice ∧ s.ends? choice = t.ends? choice := by
  cases choice with
  | answer response => exact ⟨rfl, rfl⟩
  | task path =>
    have hsignal := h.signal_eq [] path
    rw [afterAll_nil, afterAll_nil] at hsignal
    rw [gives, gives, ends?, ends?, hsignal]
    exact ⟨rfl, rfl⟩

/-- **Sendings that resemble each other** give the same to the connection, and come to the same
end. -/
theorem Sending.Resembles.choices (h : s.Resembles t) (choices : List Choice) :
    ((Run.start s).choices choices).delivered = ((Run.start t).choices choices).delivered ∧
      ((Run.start s).choices choices).ending = ((Run.start t).choices choices).ending := by
  have hruns {r r' : Run} (h : r.sending.Resembles r'.sending)
      (hdelivered : r.delivered = r'.delivered) (hending : r.ending = r'.ending) :
      (r.choices choices).delivered = (r'.choices choices).delivered ∧
        (r.choices choices).ending = (r'.choices choices).ending := by
    induction choices generalizing r r' with
    | nil => exact ⟨hdelivered, hending⟩
    | cons choice rest ih =>
      obtain ⟨hgives, hends⟩ := h.seen_eq choice
      refine ih ?_ ?_ ?_
      · rw [Run.sending_choose, Run.sending_choose]
        exact h.after choice
      · rw [Run.delivered_choose, Run.delivered_choose, hdelivered, hgives]
      · rw [Run.ending_choose, Run.ending_choose, hending, hends]
  exact hruns h rfl rfl

end

section

variable (request : String) (levels : List Level)

/-- One layer of logging changes no step but by a note. -/
theorem Sending.resembles_logged (level : Level) (s : Sending) :
    (Sending.wrapped (.logged request level) s).Resembles s := by
  have hstep (choices : List Choice) (path : Path) :
      (((Sending.wrapped (.logged request level) s).afterAll choices).step path).signal =
          ((s.afterAll choices).step path).signal ∧
        (((Sending.wrapped (.logged request level) s).afterAll choices).step path).spawned =
          ((s.afterAll choices).step path).spawned ∧
        (((Sending.wrapped (.logged request level) s).afterAll choices).step path).woken =
          ((s.afterAll choices).step path).woken := by
    rw [afterAll_wrapped, step, wrappedTurn]
    cases hsignal : ((s.afterAll choices).step path).signal with
    | returned result => cases result <;> exact ⟨rfl, rfl, rfl⟩
    | _ => exact ⟨rfl, rfl, rfl⟩
  refine ⟨fun choices path => (hstep choices path).1, fun choices path => (hstep choices path).2.1,
    fun choices path => (hstep choices path).2.2, fun choices response => ?_⟩
  rw [afterAll_wrapped, resume]

theorem Sending.resembles_loggedAt (s : Sending) : (s.loggedAt request levels).Resembles s := by
  induction levels generalizing s with
  | nil => exact resembles_refl s
  | cons level rest ih => exact (ih _).trans (resembles_logged request level s)

theorem Sight.through_logged (level : Level) (sight : Sight) :
    sight.through (.logged request level) = sight.logged request [level] := by
  match sight with
  | .noted note => rfl
  | .given reply => rfl
  | .ended (.returned (.ok ())) => rfl
  | .ended (.returned (.error error)) => rfl
  | .ended (.panicked message) => rfl
  | .ended .hung => rfl

theorem Sight.logged_nil (sight : Sight) : sight.logged request [] = [sight] := by
  match sight with
  | .noted note => rfl
  | .given reply => rfl
  | .ended (.returned (.ok ())) => rfl
  | .ended (.returned (.error error)) => rfl
  | .ended (.panicked message) => rfl
  | .ended .hung => rfl

/-- Layers around layers. -/
theorem Sight.logged_append (inner outer : List Level) (sight : Sight) :
    sight.logged request (inner ++ outer) =
      (sight.logged request inner).flatMap (Sight.logged request outer) := by
  have hnoted {α : Type} (list : List α) (line : α → Note) :
      (list.map fun a => Sight.noted (line a)).flatMap (Sight.logged request outer) =
        list.map fun a => .noted (line a) := by
    rw [List.flatMap_map, List.map_eq_flatMap]
    rfl
  match sight with
  | .noted note => rfl
  | .given reply =>
    simp only [logged, List.flatMap_append, hnoted, List.flatMap_singleton, List.map_append,
      List.append_assoc]
  | .ended (.returned (.ok ())) => rfl
  | .ended (.returned (.error error)) =>
    simp only [logged, List.flatMap_append, hnoted, List.flatMap_singleton, List.map_append,
      List.append_assoc]
  | .ended (.panicked message) => rfl
  | .ended .hung => rfl

/-- **What is seen of a sending within layers of logging.** -/
theorem Sending.sightsIn_loggedAt (s : Sending) (choices : List Choice) :
    (s.loggedAt request levels).sightsIn choices =
      (s.sightsIn choices).flatMap (Sight.logged request levels) := by
  induction levels generalizing s with
  | nil =>
    rw [show Sight.logged request [] = fun sight => [sight] from funext (Sight.logged_nil request),
      List.flatMap_singleton']
    rfl
  | cons level rest ih =>
    have hcons : (s.loggedAt request (level :: rest)).sightsIn choices = _ := ih (.wrapped _ s)
    rw [hcons, sightsIn_wrapped, List.flatMap_assoc]
    refine congrArg (List.flatMap · _) (funext fun sight => ?_)
    rw [Sight.through_logged, ← Sight.logged_append]
    rfl

theorem Handler.loggedAt_append (handler : Handler) (inner outer : List Level) :
    handler.loggedAt (inner ++ outer) = (handler.loggedAt inner).loggedAt outer := by
  rw [loggedAt, loggedAt, loggedAt, Decorator.apply_ofList, Decorator.apply_ofList,
    Decorator.apply_ofList, List.map_append, Decorator.around_append]

/-- **The response of a handler within layers of logging.** -/
theorem Handler.respond_loggedAt (handler : Handler) (head : RequestHead) (body : Body) :
    (handler.loggedAt levels).respond head body =
      ((handler.respond head body).map (·.loggedAt head.line.text levels)).after
        (Note.requestsReceived head.line.text levels) := by
  induction levels generalizing handler with
  | nil => rcases hasked : handler.respond head body with ⟨notes, _ | s⟩ <;> exact hasked
  | cons level rest ih =>
    have hcons : handler.loggedAt (level :: rest) =
        (Handler.wrapped (.logging level) handler).loggedAt rest :=
      loggedAt_append handler [level] rest
    have hnotes (notes : List Note) : Note.requestsReceived head.line.text rest ++
        ([.log (.requestReceived level head.line.text)] ++ notes) =
        Note.requestsReceived head.line.text (level :: rest) ++ notes := by
      rw [Note.requestsReceived, Note.requestsReceived, List.reverse_cons, List.map_append,
        List.append_assoc]
      rfl
    rw [hcons, ih, respond]
    rcases handler.respond head body with ⟨notes, _ | s⟩
    · exact congrArg (Responding.mk · _) (hnotes notes)
    · exact congrArg (Responding.mk · _) (hnotes notes)

end

namespace Handler

/-- **Logging is transparent.** However many layers are stacked around a handler, it is asked once,
with the same request; a panic of it passes; and of what it gives every step has the same effect, so
under every schedule and with every connection the same is delivered, with the same end. Each layer
has one line for the request before the handler is asked, the outermost one first. Then each has a
line right before the response that is given, if one is, and right before the failure that is
returned, if one is, the innermost one first; both come at most once. The records of both runs are
what their sights show. Wherever the stack is cut, its outer part does so to what is seen of its
inner part. -/
theorem logging_transparent (handler : Handler) (levels : List Level) (head : RequestHead)
    (body : Body) :
    ((handler.loggedAt levels).respond head body).notes =
        Note.requestsReceived head.line.text levels ++ (handler.respond head body).notes ∧
      (∀ message, (handler.respond head body).sending = .error message →
        ((handler.loggedAt levels).respond head body).sending = .error message) ∧
      ∀ s, (handler.respond head body).sending = .ok s →
        ∃ t, ((handler.loggedAt levels).respond head body).sending = .ok t ∧ t.Resembles s ∧
          ∀ choices,
            ((Run.start t).choices choices).delivered = ((Run.start s).choices choices).delivered ∧
            ((Run.start t).choices choices).ending = ((Run.start s).choices choices).ending ∧
            t.sightsIn choices =
              (s.sightsIn choices).flatMap (Sight.logged head.line.text levels) ∧
            ((Run.start s).choices choices).ShownBy (s.sightsIn choices) ∧
            ((Run.start t).choices choices).ShownBy (t.sightsIn choices) ∧
            ((s.sightsIn choices).filterMap Sight.reply?).length ≤ 1 ∧
            ((s.sightsIn choices).filterMap Sight.ending?).length ≤ 1 ∧
            ∀ inner outer, levels = inner ++ outer → ∃ u,
              ((handler.loggedAt inner).respond head body).sending = .ok u ∧
                t.sightsIn choices =
                  (u.sightsIn choices).flatMap (Sight.logged head.line.text outer) := by
  have hlogged (levels : List Level) {s : Sending}
      (hs : (handler.respond head body).sending = .ok s) :
      ((handler.loggedAt levels).respond head body).sending =
        .ok (s.loggedAt head.line.text levels) := by
    rw [respond_loggedAt, Responding.after, Responding.map, hs]
    rfl
  refine ⟨?_, fun message hmessage => ?_, fun s hs => ?_⟩
  · rw [respond_loggedAt]
    rfl
  · rw [respond_loggedAt, Responding.after, Responding.map, hmessage]
    rfl
  · have hresembles := s.resembles_loggedAt head.line.text levels
    refine ⟨s.loggedAt head.line.text levels, hlogged levels hs, hresembles, fun choices => ?_⟩
    obtain ⟨hdelivered, hending⟩ := hresembles.choices choices
    have hsights (levels : List Level) := s.sightsIn_loggedAt head.line.text levels choices
    refine ⟨hdelivered, hending, hsights levels, s.showsRecord choices,
      Sending.showsRecord _ choices, ?_, ?_, ?_⟩
    · rw [← (s.showsRecord choices).delivered_eq]
      exact Run.delivered_once s choices
    · rw [Sending.filterMap_ending?_sightsIn]
      exact (handler.respond_steady head body s hs).endsIn_once choices
    · rintro inner outer rfl
      refine ⟨_, hlogged inner hs, ?_⟩
      rw [hsights, hsights, List.flatMap_assoc]
      exact congrArg (List.flatMap · _) (funext (Sight.logged_append _ inner outer))

/-- Two layers around a handler that delivers a response and fails all the same, and one around a
handler that panics. -/
theorem logging_transparent_failing :
    let error : SendError := .io "broken pipe"
    let handler : Handler := .failing (.fixed (Reply.octets [1])) error
    let head := RequestHead.ofLine ⟨.get, ⟨none, none, "/", none⟩, .http11⟩
    let line := head.line.text
    let choices : List Choice := [.task [], .answer (.result (.ok ())), .task []]
    ((handler.loggedAt [.debug, .info]).respond head .empty).notes =
        [.log (.requestReceived .info line), .log (.requestReceived .debug line)] ∧
      (∃ t, ((handler.loggedAt [.debug, .info]).respond head .empty).sending = .ok t ∧
        t.sightsIn choices =
          [.noted (.log (.responseSent .debug line 200)),
            .noted (.log (.responseSent .info line 200)), .given (Reply.octets [1]),
            .noted (.log (.deliveryFailed line error.message)),
            .noted (.log (.deliveryFailed line error.message)),
            .ended (.returned (.error error))] ∧
        ∃ u, ((handler.loggedAt [.debug]).respond head .empty).sending = .ok u ∧
          t.sightsIn choices = (u.sightsIn choices).flatMap (Sight.logged line [.info])) ∧
      (((Handler.panicsWhenAsked "asked").loggedAt [.info]).respond head .empty).sending =
        .error "asked" := by
  intro error handler head line choices
  obtain ⟨hnotes, -, hsending⟩ := logging_transparent handler [.debug, .info] head .empty
  obtain ⟨t, ht, -, hruns⟩ := hsending _ rfl
  obtain ⟨-, -, hsights, -, -, -, -, hcut⟩ := hruns choices
  obtain ⟨u, hu, houter⟩ := hcut [.debug] [.info] rfl
  obtain ⟨-, hpanics, -⟩ := logging_transparent (.panicsWhenAsked "asked") [.info] head .empty
  exact ⟨hnotes, ⟨t, ht, hsights, u, hu, houter⟩, hpanics "asked" rfl⟩

end Handler

end Switchboard
