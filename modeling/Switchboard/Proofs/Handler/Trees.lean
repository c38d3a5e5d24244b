import Switchboard.Handler.Router
import Switchboard.Proofs.Handler.Compound
set_option autoImplicit false

/-! # Trees of handlers

A tree that is put together from ready responses, computations, handlers that come later, routes,
wrappers and groups answers each request once. `Handler.upshot?` says with what: it follows the
request through the tree, takes a 500 in the place of each computation that fails, and chooses
between the backends of a group that broadcasts. `Handler.Composed.answers` says, by induction on
the tree, that the sending of the response comes to just that, under every schedule and with every
connection (`Sending.Meets`), and `Handler.sends_once` puts that together.

The one response that never comes is that to a request whose body fails, where it has to be read for
a broadcast (`Handler.Refusal`). -/

namespace Switchboard

open Contest (toldAfter)
open Race (losers pick)

/-! ## What a request comes to -/

/-- **What sending a response comes to**: the response that the connection is given, or the failure
that is returned instead. If the response is that of a broadcast, its slots capture responses, in
order; and all responses that lose on the way, in whatever broadcast, are cancelled. -/
structure Upshot where
  result : Report
  captured : List Reply
  lost : List Reply

namespace Upshot

/-- A response that is just given to the connection. -/
def plain (reply : Reply) : Upshot := ⟨.ok reply, [], []⟩

/-- A computation that fails gives a response all the same. -/
def ofResult : Except String Reply → Upshot
  | .ok reply => plain reply
  | .error cause => plain (Reply.internalError cause)

/-- The upshot as it passes through a wrapper. -/
def through (w : Wrapper) (upshot : Upshot) : Upshot :=
  { upshot with result := upshot.result.map fun reply => (w.outward reply).2 }

/-- The upshot of a broadcast to backends with these ones. -/
def ofRace (accepts : ResponseHead → Bool) (upshots : List Upshot) : Upshot :=
  ⟨.ok (pick accepts (upshots.map (·.result))), upshots.filterMap (·.result.toOption),
    losers accepts (upshots.map (·.result.toOption)) ++ upshots.flatMap (·.lost)⟩

end Upshot

/-- Whether a policy accepts a head; one that panics does not. -/
def Policy.accepts (policy : Policy) (head : ResponseHead) : Bool :=
  (policy head).toOption.getD false

namespace Handler

mutual

/-- **What sending the response to a request comes to**, if everything that it waits for comes to
its end. -/
def upshot? : Handler → RequestHead → Body → Option Upshot
  | .fixed reply, _, _ => some (.plain reply)
  | .function run, head, body => (run head body).value?.map .ofResult
  | .awaited _ _ handler, head, body => handler.upshot? head body
  | .awaitedFailure _ _ cause, _, _ => some (.ofResult (.error cause))
  | .deferred _ handler, head, body => handler.upshot? head body
  | .deferredFailure _ cause, _, _ => some (.ofResult (.error cause))
  | .route filter handler otherwise, head, body =>
    if filter.accepts head then handler.upshot? head body else otherwise.upshot? head body
  | .unrouted, _, _ => some (.plain Reply.notFound)
  | .wrapped wrapping handler, head, body =>
    (handler.upshot? head body).map (.through (wrapping.wrapper head))
  | .group backends primary policy, head, body =>
    if backends.isEmpty then some (.plain Reply.notFound)
    else if head.method.goesToAll then
      match body.content.value? with
      | none => none
      | some (.error cause) => some ⟨.error (.body cause), [], []⟩
      | some (.ok content) =>
        (upshots? backends head.copy (Body.ofBytes content)).map (.ofRace policy.accepts)
    else upshotNth? backends primary head body
  | .labelled _ handler, head, body => handler.upshot? head body
  | .silent _ _, _, _ => none
  | .failing _ _, _, _ => none
  | .detached _ _ _, _, _ => none
  | .panicsWhenAsked _, _, _ => none
  | .panicsWhenSent _ _, _, _ => none

/-- The same for all backends, each with its own copy of the request. -/
def upshots? : List Handler → RequestHead → Body → Option (List Upshot)
  | [], _, _ => some []
  | backend :: rest, head, body =>
    match backend.upshot? head body, upshots? rest head body with
    | some upshot, some upshots => some (upshot :: upshots)
    | _, _ => none

/-- The same for one backend. -/
def upshotNth? : List Handler → Nat → RequestHead → Body → Option Upshot
  | [], _, _, _ => none
  | backend :: _, 0, head, body => backend.upshot? head body
  | _ :: rest, index + 1, head, body => upshotNth? rest index head body

end

end Handler

/-- **A sending that comes to this.** -/
def Sending.Meets (s : Sending) (upshot : Upshot) : Prop :=
  match upshot.result with
  | .ok reply => s.Delivers upshot.lost reply ∧ s.Captures upshot.captured
  | .error error => s.Refuses error

/-- A handler gives a sending that comes to this. -/
def Responding.Meets (r : Responding) (upshot : Upshot) : Prop :=
  ∃ s, r.sending = .ok s ∧ s.Meets upshot

section

variable {upshot : Upshot} {r : Responding}

theorem Sending.meets_deliver (reply : Reply) : (Sending.deliver reply).Meets (.plain reply) := by
  have hslotless : (Sending.deliver reply).Slotless := trivial
  exact ⟨delivers_deliver reply, hslotless.captures []⟩

theorem Sending.Leads.meets {s t : Sending} {notes : List Note} (h : s.Leads notes t)
    (ht : t.Meets upshot) : s.Meets upshot := by
  obtain ⟨result, captured, lost⟩ := upshot
  cases result with
  | error error => exact h.refuses ht
  | ok reply => exact ⟨h.delivers ht.1, h.captures ht.2⟩

/-- A failure is answered with its wording. -/
theorem Sending.meets_failed (cause : String) :
    (Sending.failed cause).Meets (.ofResult (.error cause)) :=
  (Leads.note _ (.refl _)).meets (meets_deliver (Reply.internalError cause))

/-- What a task does that asks for a response and then sends it. -/
theorem Responding.Meets.inline (h : r.Meets upshot) : r.inline.Meets upshot := by
  obtain ⟨s, hsending, hmeets⟩ := h
  rw [Responding.inline, hsending]
  exact (Sending.leads_afterNotes r.notes s).meets hmeets

theorem Sending.Meets.afterSleep {s : Sending} (h : s.Meets upshot) (ms : Nat) :
    (s.afterSleep ms).Meets upshot := by
  unfold Sending.afterSleep
  split
  · exact h
  · exact (Leads.pause _ (.refl s)).meets h

theorem Sending.Meets.afterShared {s : Sending} (h : s.Meets upshot) (key ms : Nat) :
    (s.afterShared key ms).Meets upshot := (Leads.pause _ (.refl s)).meets h

theorem Wrapping.keepsResult (wrapping : Wrapping) (head : RequestHead) :
    (wrapping.wrapper head).KeepsResult := by
  intro result
  cases wrapping with
  | tagging tag => rfl
  | logging level => cases result <;> rfl

theorem Sending.Meets.wrapped {s : Sending} (h : s.Meets upshot) {w : Wrapper}
    (hw : w.KeepsResult) : (Sending.wrapped w s).Meets (upshot.through w) := by
  obtain ⟨result, captured, lost⟩ := upshot
  cases result with
  | error error => exact Refuses.wrapped hw h
  | ok reply => exact ⟨h.1.wrapped hw, h.2.wrapped w⟩

end

/-! ## Trees -/

/-- What a function handler does with a request. -/
abbrev Computation := RequestHead → Body → Work (Except String Reply)

/-- A computation that comes to its end on each request whose body ends or fails. -/
def Computation.Ends (run : Computation) : Prop :=
  ∀ head body, body.content.value? ≠ none → (run head body).value? ≠ none

/-- **The trees that answer what they are asked**: ready responses, computations of some kind,
handlers that come later, routes, wrappers, and groups whose policy is a function of the head,
inside each other in any way. -/
inductive Handler.Composed (kind : Computation → Prop) : Handler → Prop where
  | fixed (reply : Reply) : Composed kind (.fixed reply)
  | function {run : Computation} (h : kind run) : Composed kind (.function run)
  | awaited (key ms : Nat) {handler : Handler} (h : Composed kind handler) :
      Composed kind (.awaited key ms handler)
  | awaitedFailure (key ms : Nat) (cause : String) : Composed kind (.awaitedFailure key ms cause)
  | deferred (ms : Nat) {handler : Handler} (h : Composed kind handler) :
      Composed kind (.deferred ms handler)
  | deferredFailure (ms : Nat) (cause : String) : Composed kind (.deferredFailure ms cause)
  | route (filter : Filter) {handler otherwise : Handler} (h : Composed kind handler)
      (hotherwise : Composed kind otherwise) : Composed kind (.route filter handler otherwise)
  | unrouted : Composed kind .unrouted
  | wrapped (wrapping : Wrapping) {handler : Handler} (h : Composed kind handler) :
      Composed kind (.wrapped wrapping handler)
  | labelled (label : String) {handler : Handler} (h : Composed kind handler) :
      Composed kind (.labelled label handler)
  | group (accepts : ResponseHead → Bool) {primary : Nat} {backends : List Handler}
      (hprimary : backends = [] ∨ primary < backends.length)
      (h : ∀ backend ∈ backends, Composed kind backend) :
      Composed kind (.group backends primary (Policy.ofBool accepts))

/-- A router of such trees is such a tree, with or without a fallback. -/
theorem Router.composed {kind : Computation → Prop} {router : Router}
    (hroutes : ∀ route ∈ router.routes, route.handler.Composed kind)
    (hfallback : ∀ fallback, router.fallback = some fallback → fallback.Composed kind) :
    router.toHandler.Composed kind := by
  obtain ⟨routes, fallback⟩ := router
  unfold toHandler
  induction routes with
  | nil =>
    cases fallback with
    | none => exact .unrouted
    | some fallback => exact hfallback fallback rfl
  | cons route rest ih =>
    refine .route route.filter (hroutes route List.mem_cons_self) (ih (fun other hother => ?_) ?_)
    · exact hroutes other (List.mem_cons_of_mem _ hother)
    · exact hfallback

/-- The same tree with other backends in its groups. -/
def Handler.withBackends (others : Handler → Handler) : Handler → Handler
  | .awaited key ms handler => .awaited key ms (handler.withBackends others)
  | .deferred ms handler => .deferred ms (handler.withBackends others)
  | .route filter handler otherwise =>
    .route filter (handler.withBackends others) (otherwise.withBackends others)
  | .wrapped wrapping handler => .wrapped wrapping (handler.withBackends others)
  | .labelled label handler => .labelled label (handler.withBackends others)
  | .group backends primary policy => .group (backends.map others) primary policy
  | handler => handler

/-- **A request that a tree refuses**: it goes to a group that broadcasts, and its body fails with
this. The backends of that group are not asked, so they might as well be others. -/
structure Handler.Refusal (tree : Handler) (head : RequestHead) (body : Body) (error : SendError) :
    Prop where
  broadcast : head.method.goesToAll = true
  failed : ∃ cause, error = .body cause ∧ body.content.value? = some (.error cause)
  unasked : ∀ others, (tree.withBackends others).respond head body = tree.respond head body

/-- **A tree answers a request with this.** -/
structure Handler.Answers (tree : Handler) (head : RequestHead) (body : Body) (upshot : Upshot) :
    Prop where
  meets : (tree.respond head body).Meets upshot
  refusal : ∀ error, upshot.result = .error error → tree.Refusal head body error

namespace Handler

section

variable {kind : Computation → Prop} {tree tree' : Handler} {head : RequestHead} {body : Body}
  {backends : List Handler} {upshot : Upshot}

theorem answers_plain {reply : Reply} (h : (tree.respond head body).Meets (.plain reply)) :
    tree.Answers head body (.plain reply) := ⟨h, nofun⟩

theorem answers_ofResult {result : Except String Reply}
    (h : (tree.respond head body).Meets (.ofResult result)) :
    tree.Answers head body (.ofResult result) := by
  refine ⟨h, fun error herror => ?_⟩
  cases result <;> cases herror

/-- A tree that asks another one for all requests like this one. -/
theorem Answers.around {upshot' : Upshot} (h : tree.Answers head body upshot)
    (hmeets : (tree'.respond head body).Meets upshot')
    (hrefused : ∀ error, upshot'.result = .error error → upshot.result = .error error)
    (hunasked : ∀ others, (tree.withBackends others).respond head body = tree.respond head body →
      (tree'.withBackends others).respond head body = tree'.respond head body) :
    tree'.Answers head body upshot' where
  meets := hmeets
  refusal := by
    intro error herror
    obtain ⟨hbroadcast, hfailed, hothers⟩ := h.refusal error (hrefused error herror)
    exact ⟨hbroadcast, hfailed, fun others => hunasked others (hothers others)⟩

/-- What all backends come to, one by one. -/
theorem upshots?_eq_some {upshots : List Upshot} (h : upshots? backends head body = some upshots) :
    backends.map (·.upshot? head body) = upshots.map some := by
  induction backends generalizing upshots with
  | nil =>
    rw [upshots?] at h
    cases h
    rfl
  | cons backend rest ih =>
    rw [upshots?] at h
    split at h
    · next upshot others hupshot hothers =>
      cases h
      rw [List.map_cons, List.map_cons, hupshot, ih hothers]
    · cases h

/-- What one backend comes to. -/
theorem upshotNth?_eq_some {index : Nat} (h : upshotNth? backends index head body = some upshot) :
    ∃ backend ∈ backends, backend.upshot? head body = some upshot ∧
      respondNth backends index head body = backend.respond head body := by
  induction backends generalizing index with
  | nil =>
    rw [upshotNth?] at h
    cases h
  | cons backend rest ih =>
    cases index with
    | zero =>
      rw [upshotNth?] at h
      exact ⟨backend, List.mem_cons_self, h, by rw [respondNth]⟩
    | succ index =>
      rw [upshotNth?] at h
      obtain ⟨other, hother, hupshot, hrespond⟩ := ih h
      exact ⟨other, List.mem_cons_of_mem _ hother, hupshot, by rw [respondNth, hrespond]⟩

/-- What work comes to does not depend on what would be done with other values. -/
theorem afterWork_congr {α : Type} {work : Work α} {value : α} (h : work.value? = some value)
    {f g : α → Sending} (hsame : f value = g value) :
    Sending.afterWork work f = Sending.afterWork work g := by
  induction work with
  | done other =>
    cases h
    exact hsame
  | panics message => cases h
  | stalled => cases h
  | note note next ih => exact congrArg (Sending.note note) (ih h)
  | pause pause next ih => exact congrArg (Sending.pause pause) (ih h)

/-- A group that broadcasts refuses a request whose body fails. -/
theorem group_refuses (hbackends : backends ≠ []) (primary : Nat) (policy : Policy)
    (hmethod : head.method.goesToAll = true) {cause : BodyError}
    (hbody : body.content.value? = some (.error cause)) :
    (Handler.group backends primary policy).Answers head body ⟨.error (.body cause), [], []⟩ := by
  have hrespond : ∀ backends : List Handler, backends ≠ [] →
      ((Handler.group backends primary policy).respond head body) =
        .quiet (.afterWork body.content fun _ => .returns (.error (.body cause))) := by
    intro backends hne
    have hempty : ¬ backends.isEmpty := fun hnil => hne (List.isEmpty_iff.mp hnil)
    rw [respond, if_neg hempty, if_pos hmethod]
    exact congrArg Responding.quiet (afterWork_congr hbody rfl)
  obtain ⟨notes, hyields⟩ := Work.yields_of_value? hbody
  refine ⟨?_, fun error herror => ?_⟩
  · rw [hrespond backends hbackends]
    exact ⟨_, rfl, (Sending.leads_afterWork hyields _).refuses (Sending.refuses_returns _)⟩
  · cases herror
    refine ⟨hmethod, ⟨cause, rfl, hbody⟩, fun others => ?_⟩
    have hothers : backends.map others ≠ [] := fun hnil => hbackends (List.map_eq_nil_iff.mp hnil)
    rw [withBackends, hrespond _ hothers, hrespond _ hbackends]

/-- The same index belongs to a backend and to what it comes to. -/
theorem getElem?_of_upshots {upshots : List Upshot}
    (h : upshots? backends head body = some upshots) {index : Nat}
    (hindex : upshots[index]? = some upshot) :
    ∃ backend, backends[index]? = some backend ∧ backend.upshot? head body = some upshot := by
  have hsame := congrArg (·[index]?) (upshots?_eq_some h)
  simp only [List.getElem?_map, hindex, Option.map_some, Option.map_eq_some_iff] at hsame
  exact hsame

theorem length_of_upshots {upshots : List Upshot} (h : upshots? backends head body = some upshots) :
    backends.length = upshots.length := by
  have hsame := congrArg List.length (upshots?_eq_some h)
  rwa [List.length_map, List.length_map] at hsame

theorem exists_upshot_of_mem {upshots : List Upshot}
    (h : upshots? backends head body = some upshots) {backend : Handler}
    (hmem : backend ∈ backends) :
    ∃ upshot, backend.upshot? head body = some upshot := by
  have hsome : backend.upshot? head body ∈ backends.map (·.upshot? head body) :=
    List.mem_map_of_mem hmem
  rw [upshots?_eq_some h, List.mem_map] at hsome
  obtain ⟨upshot, -, hupshot⟩ := hsome
  exact ⟨upshot, hupshot.symm⟩

/-- The upshots of backends that all deliver, and their responses. -/
theorem map_result_eq {upshots : List Upshot}
    (h : ∀ upshot ∈ upshots, ∀ error, upshot.result ≠ .error error) :
    upshots.map (·.result) = (upshots.filterMap (·.result.toOption)).map .ok := by
  induction upshots with
  | nil => rfl
  | cons upshot rest ih =>
    obtain ⟨result, captured, lost⟩ := upshot
    cases result with
    | error error => exact absurd rfl (h _ List.mem_cons_self error)
    | ok reply =>
      rw [List.map_cons, ih fun other hother => h other (List.mem_cons_of_mem _ hother)]
      rfl

/-- Backends that are given a response, and answer as they should, deliver. -/
theorem allDeliver_of_upshots {upshots : List Upshot} {starts : List Sending} {replies : List Reply}
    (hupshots : upshots? backends head body = some upshots)
    (hanswers : ∀ backend ∈ backends, ∀ upshot, backend.upshot? head body = some upshot →
      backend.Answers head body upshot)
    (hstarts : starts.map .ok = backends.map fun backend => (backend.respond head body).sending)
    (hresults : upshots.map (·.result) = replies.map .ok) :
    Sending.AllDeliver (upshots.flatMap (·.lost)) starts replies := by
  have hlength := congrArg List.length hstarts
  have hlength' := congrArg List.length hresults
  rw [List.length_map, List.length_map] at hlength hlength'
  refine ⟨by rw [hlength, length_of_upshots hupshots, hlength'],
    fun index start reply hstart hreply => ?_⟩
  have hresult := congrArg (·[index]?) hresults
  simp only [List.getElem?_map, hreply, Option.map_some, Option.map_eq_some_iff] at hresult
  obtain ⟨upshot, hindex, hresult⟩ := hresult
  obtain ⟨backend, hbackend, hupshot⟩ := getElem?_of_upshots hupshots hindex
  obtain ⟨s, hsending, hmeets⟩ :=
    (hanswers backend (List.mem_of_getElem? hbackend) upshot hupshot).meets
  have hsame := congrArg (·[index]?) hstarts
  simp only [List.getElem?_map, hstart, hbackend, Option.map_some, hsending, Option.some.injEq,
    Except.ok.injEq] at hsame
  rw [Sending.Meets, hresult, ← hsame] at hmeets
  exact hmeets.1.mono fun held hheld =>
    List.mem_flatMap.mpr ⟨upshot, List.mem_of_getElem? hindex, hheld⟩

/-- **A group that broadcasts** answers with the choice over what its backends answer. -/
theorem group_answers (accepts : ResponseHead → Bool) (hbackends : backends ≠ []) (primary : Nat)
    (hmethod : head.method.goesToAll = true) {content : Bytes}
    (hbody : body.content.value? = some (.ok content)) {upshots : List Upshot}
    (hupshots : upshots? backends head.copy (Body.ofBytes content) = some upshots)
    (hanswers : ∀ backend ∈ backends, ∀ upshot,
      backend.upshot? head.copy (Body.ofBytes content) = some upshot →
        backend.Answers head.copy (Body.ofBytes content) upshot) :
    (Handler.group backends primary (Policy.ofBool accepts)).Answers head body
      (.ofRace accepts upshots) := by
  have hok : ∀ upshot ∈ upshots, ∀ error, upshot.result ≠ .error error := by
    intro upshot hmem error herror
    obtain ⟨index, hindex⟩ := List.mem_iff_getElem?.mp hmem
    obtain ⟨backend, hbackend, hupshot⟩ := getElem?_of_upshots hupshots hindex
    have hanswer := hanswers backend (List.mem_of_getElem? hbackend) upshot hupshot
    obtain ⟨cause, -, hcause⟩ := (hanswer.refusal error herror).failed
    rw [Body.value?_ofBytes] at hcause
    cases hcause
  have hasked : ∀ backend ∈ backends,
      ∃ s, (backend.respond head.copy (Body.ofBytes content)).sending = .ok s := by
    intro backend hmem
    obtain ⟨upshot, hupshot⟩ := exists_upshot_of_mem hupshots hmem
    obtain ⟨s, hsending, -⟩ := (hanswers backend hmem upshot hupshot).meets
    exact ⟨s, hsending⟩
  obtain ⟨notes, hyields⟩ := Work.yields_of_value? hbody
  obtain ⟨s, race, starts, hrespond, hrace, hstarts, hleads⟩ :=
    leads_group hbackends primary (Policy.ofBool accepts) hmethod hyields hasked
  have hresults := map_result_eq hok
  have hgiven : upshots.map (·.result.toOption) =
      (upshots.filterMap (·.result.toOption)).map some := by
    have hsame := congrArg (List.map Except.toOption) hresults
    rwa [List.map_map, List.map_map] at hsame
  have hdeliver := allDeliver_of_upshots hupshots hanswers hstarts hresults
  obtain ⟨winner, hchooses⟩ := Race.chooses_pick accepts (upshots.map (·.result))
  rw [hresults] at hchooses
  refine ⟨⟨s, by rw [hrespond]; rfl, ?_, ?_⟩, nofun⟩
  · rw [Upshot.ofRace, hresults, hgiven]
    exact hleads.delivers (Sending.delivers_opening hrace
      (hdeliver.mono (List.subset_append_right _ _)) (List.subset_append_left _ _) hchooses)
  · exact hleads.captures (Sending.captures_opening hrace hdeliver)

/-- **A composed tree answers each request** with what it comes to. -/
theorem Composed.answers (h : tree.Composed kind) (hupshot : tree.upshot? head body = some upshot) :
    tree.Answers head body upshot := by
  induction h generalizing head body upshot with
  | fixed reply =>
    rw [upshot?] at hupshot
    cases hupshot
    exact answers_plain ⟨_, rfl, Sending.meets_deliver reply⟩
  | @function run h =>
    rw [upshot?, Option.map_eq_some_iff] at hupshot
    obtain ⟨result, hvalue, rfl⟩ := hupshot
    obtain ⟨notes, hyields⟩ := Work.yields_of_value? hvalue
    refine answers_ofResult ⟨_, rfl, (Sending.leads_afterWork hyields _).meets ?_⟩
    cases result with
    | ok reply => exact Sending.meets_deliver reply
    | error cause => exact Sending.meets_failed cause
  | awaited key ms h ih =>
    rw [upshot?] at hupshot
    have hinner := ih hupshot
    refine hinner.around ⟨_, rfl, hinner.meets.inline.afterShared key ms⟩ (fun _ => id) ?_
    intro others hsame
    rw [withBackends, respond, respond, hsame]
  | awaitedFailure key ms cause =>
    rw [upshot?] at hupshot
    cases hupshot
    exact answers_ofResult ⟨_, rfl, (Sending.meets_failed cause).afterShared key ms⟩
  | deferred ms h ih =>
    rw [upshot?] at hupshot
    have hinner := ih hupshot
    refine hinner.around ⟨_, rfl, hinner.meets.inline.afterSleep ms⟩ (fun _ => id) ?_
    intro others hsame
    rw [withBackends, respond, respond, hsame]
  | deferredFailure ms cause =>
    rw [upshot?] at hupshot
    cases hupshot
    exact answers_ofResult ⟨_, rfl, (Sending.meets_failed cause).afterSleep ms⟩
  | route filter h hotherwise ih ihotherwise =>
    rw [upshot?] at hupshot
    split at hupshot
    · next haccepts =>
      have hinner := ih hupshot
      refine hinner.around (by rw [respond, if_pos haccepts]; exact hinner.meets) (fun _ => id) ?_
      intro others hsame
      rw [withBackends, respond, respond, if_pos haccepts, if_pos haccepts, hsame]
    · next hrejects =>
      have hinner := ihotherwise hupshot
      refine hinner.around (by rw [respond, if_neg hrejects]; exact hinner.meets) (fun _ => id) ?_
      intro others hsame
      rw [withBackends, respond, respond, if_neg hrejects, if_neg hrejects, hsame]
  | unrouted =>
    rw [upshot?] at hupshot
    cases hupshot
    exact answers_plain ⟨_, rfl, Sending.meets_deliver _⟩
  | wrapped wrapping h ih =>
    rw [upshot?, Option.map_eq_some_iff] at hupshot
    obtain ⟨inner, hinnershot, rfl⟩ := hupshot
    have hinner := ih hinnershot
    obtain ⟨s, hsending, hmeets⟩ := hinner.meets
    refine hinner.around ⟨.wrapped (wrapping.wrapper head) s, ?_, ?_⟩ (fun error herror => ?_) ?_
    · rw [respond, Responding.after, Responding.map, hsending]
      rfl
    · exact hmeets.wrapped (wrapping.keepsResult head)
    · obtain ⟨result, captured, lost⟩ := inner
      cases result with
      | error cause => exact herror
      | ok reply => cases herror
    · intro others hsame
      rw [withBackends, respond, respond, hsame]
  | labelled label h ih =>
    rw [upshot?] at hupshot
    have hinner := ih hupshot
    refine hinner.around (by rw [respond]; exact hinner.meets) (fun _ => id) ?_
    intro others hsame
    rw [withBackends, respond, respond, hsame]
  | @group accepts primary backends hprimary h ih =>
    rw [upshot?] at hupshot
    split at hupshot
    · next hempty =>
      cases hupshot
      refine answers_plain ⟨_, ?_, Sending.meets_deliver _⟩
      rw [respond, if_pos hempty]
    · next hsome =>
      have hbackends : backends ≠ [] := fun hnil => hsome (List.isEmpty_iff.mpr hnil)
      split at hupshot
      · next hmethod =>
        split at hupshot
        · cases hupshot
        · next cause hbody =>
          cases hupshot
          exact group_refuses hbackends primary _ hmethod hbody
        · next content hbody =>
          rw [Option.map_eq_some_iff] at hupshot
          obtain ⟨upshots, hupshots, rfl⟩ := hupshot
          exact group_answers accepts hbackends primary hmethod hbody hupshots
            fun backend hmem upshot => ih backend hmem
      -- The primary backend answers alone, and a request like this is never refused.
      · next hmethod =>
        obtain ⟨backend, hmem, hbackend, hrespond⟩ := upshotNth?_eq_some hupshot
        have hinner := ih backend hmem hbackend
        refine ⟨?_, fun error herror => ?_⟩
        · rw [respond, if_neg hsome, if_neg hmethod, hrespond]
          exact hinner.meets
        · exact absurd (hinner.refusal error herror).broadcast hmethod

/-! ## The upshot of a request -/

theorem exists_upshots
    (h : ∀ backend ∈ backends, ∃ upshot, backend.upshot? head body = some upshot) :
    ∃ upshots, upshots? backends head body = some upshots := by
  induction backends with
  | nil => exact ⟨[], by rw [upshots?]⟩
  | cons backend rest ih =>
    obtain ⟨upshot, hupshot⟩ := h backend List.mem_cons_self
    obtain ⟨upshots, hupshots⟩ := ih fun other hother => h other (List.mem_cons_of_mem _ hother)
    exact ⟨upshot :: upshots, by rw [upshots?, hupshot, hupshots]⟩

theorem exists_upshotNth {index : Nat} (hlt : index < backends.length)
    (h : ∀ backend ∈ backends, ∃ upshot, backend.upshot? head body = some upshot) :
    ∃ upshot, upshotNth? backends index head body = some upshot := by
  induction backends generalizing index with
  | nil => exact absurd hlt (Nat.not_lt_zero index)
  | cons backend rest ih =>
    cases index with
    | zero =>
      obtain ⟨upshot, hupshot⟩ := h backend List.mem_cons_self
      exact ⟨upshot, by rw [upshotNth?, hupshot]⟩
    | succ index =>
      obtain ⟨upshot, hupshot⟩ := ih (Nat.lt_of_succ_lt_succ hlt) fun other hother =>
        h other (List.mem_cons_of_mem _ hother)
      exact ⟨upshot, by rw [upshotNth?, hupshot]⟩

/-- **Each request comes to something** whose body ends or fails, if the computations end on all
requests like that. -/
theorem Composed.exists_upshot (h : tree.Composed kind) (hkind : ∀ run, kind run → run.Ends)
    (hbody : body.content.value? ≠ none) : ∃ upshot, tree.upshot? head body = some upshot := by
  induction h generalizing head body with
  | fixed reply => exact ⟨_, by rw [upshot?]⟩
  | @function run h =>
    obtain ⟨result, hresult⟩ := Option.ne_none_iff_exists'.mp (hkind run h head body hbody)
    exact ⟨_, by rw [upshot?, hresult, Option.map_some]⟩
  | awaited key ms h ih => simpa only [upshot?] using ih hbody
  | awaitedFailure key ms cause => exact ⟨_, by rw [upshot?]⟩
  | deferred ms h ih => simpa only [upshot?] using ih hbody
  | deferredFailure ms cause => exact ⟨_, by rw [upshot?]⟩
  | route filter h hotherwise ih ihotherwise =>
    rw [upshot?]
    split
    · exact ih hbody
    · exact ihotherwise hbody
  | unrouted => exact ⟨_, by rw [upshot?]⟩
  | wrapped wrapping h ih =>
    obtain ⟨upshot, hupshot⟩ : ∃ upshot, Handler.upshot? _ head body = some upshot := ih hbody
    exact ⟨_, by rw [upshot?, hupshot, Option.map_some]⟩
  | labelled label h ih => simpa only [upshot?] using ih hbody
  | @group accepts primary backends hprimary h ih =>
    rw [upshot?]
    split
    · exact ⟨_, rfl⟩
    · next hsome =>
      have hbackends : backends ≠ [] := fun hnil => hsome (List.isEmpty_iff.mpr hnil)
      split
      · split
        · next hnone => exact absurd hnone hbody
        · exact ⟨_, rfl⟩
        · next content hcontent =>
          have hcopy : (Body.ofBytes content).content.value? ≠ none := by
            rw [Body.value?_ofBytes]
            simp
          have hall : ∀ backend ∈ backends, ∃ upshot,
              backend.upshot? head.copy (Body.ofBytes content) = some upshot :=
            fun backend hmem => ih backend hmem hcopy
          obtain ⟨upshots, hupshots⟩ := exists_upshots hall
          exact ⟨_, by rw [hupshots, Option.map_some]⟩
      · exact exists_upshotNth (hprimary.resolve_left hbackends) fun backend hmem =>
          ih backend hmem hbody

end

end Handler

end Switchboard
