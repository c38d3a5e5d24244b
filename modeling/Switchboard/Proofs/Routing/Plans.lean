import Switchboard.Proofs.Routing.Dispatch
set_option autoImplicit false

/-! # Routers from plans

A router is planned in steps: routes, fallbacks and decorators are given in any order, and building
applies the decorators to everything, whenever it was given. What is built depends on the steps
through three readings of them only: the routes in their order, the last fallback, and the
decorators in their order (`PlanStep.routesIn`, `fallbackIn?`, `decoratorsIn`). That is
`RouterPlan.build_afterAll`, by one lemma of what the steps leave in the plan
(`RouterPlan.afterAll_eq`). -/

namespace Switchboard

namespace Decorator

/-- A handler within all of these decorators, the first one innermost. -/
def around (decorators : List Decorator) (handler : Handler) : Handler :=
  decorators.foldl (fun inner decorator => decorator.apply inner) handler

section

variable (decorators rest : List Decorator) (handler : Handler)

theorem around_append :
    around (decorators ++ rest) handler = around rest (around decorators handler) :=
  List.foldl_append

theorem apply_foldl (decorator : Decorator) :
    (decorators.foldl .inOrder decorator).apply handler =
      around decorators (decorator.apply handler) := by
  induction decorators generalizing decorator with
  | nil => rfl
  | cons next rest ih => exact ih (.inOrder decorator next)

/-- Decorators in a chain are applied one after the other. -/
theorem apply_ofList : (ofList decorators).apply handler = around decorators handler :=
  apply_foldl decorators handler .plain

end

end Decorator

/-! ## Steps -/

/-- One thing that is given to a plan. -/
inductive PlanStep where
  | route (route : RoutePlan)
  | fallback (handler : Handler)
  | decorator (decorator : Decorator)

namespace PlanStep

/-- The route of a step that gives one. -/
def route? : PlanStep → Option RoutePlan
  | .route plan => some plan
  | _ => none

/-- The fallback of a step that gives one. -/
def fallback? : PlanStep → Option Handler
  | .fallback handler => some handler
  | _ => none

/-- The decorator of a step that gives one. -/
def decorator? : PlanStep → Option Decorator
  | .decorator given => some given
  | _ => none

/-- The routes that are given, in order. -/
def routesIn (steps : List PlanStep) : List RoutePlan := steps.filterMap route?

/-- The fallback that is given last. -/
def fallbackIn? (steps : List PlanStep) : Option Handler := (steps.filterMap fallback?).getLast?

/-- The decorators that are given, in order. -/
def decoratorsIn (steps : List PlanStep) : List Decorator := steps.filterMap decorator?

section

variable (steps rest : List PlanStep)

theorem routesIn_append : routesIn (steps ++ rest) = routesIn steps ++ routesIn rest :=
  List.filterMap_append

theorem fallbackIn?_append :
    fallbackIn? (steps ++ rest) = (fallbackIn? rest).or (fallbackIn? steps) := by
  rw [fallbackIn?, List.filterMap_append, List.getLast?_append, fallbackIn?, fallbackIn?]

theorem decoratorsIn_append :
    decoratorsIn (steps ++ rest) = decoratorsIn steps ++ decoratorsIn rest :=
  List.filterMap_append

end

end PlanStep

open PlanStep (routesIn fallbackIn? decoratorsIn)

namespace RouterPlan

/-- Takes a step. -/
def after (plan : RouterPlan) : PlanStep → RouterPlan
  | .route route => plan.route route
  | .fallback handler => plan.withFallback handler
  | .decorator decorator => plan.decorate decorator

/-- Takes one step after the other. -/
def afterAll (plan : RouterPlan) (steps : List PlanStep) : RouterPlan := steps.foldl after plan

/-- The route that a plan makes within decorators: its filters stay as they are. -/
def routeWithin (decorators : List Decorator) (route : RoutePlan) : Route :=
  ⟨.all route.filters, Decorator.around decorators route.handler⟩

section

variable (plan : RouterPlan) (steps : List PlanStep)

/-- What one step leaves in a plan. -/
theorem after_eq (step : PlanStep) :
    plan.after step =
      ⟨plan.routes ++ routesIn [step], (fallbackIn? [step]).or plan.fallback,
        (decoratorsIn [step]).foldl .inOrder plan.decorator⟩ := by
  cases step with
  | route route => rfl
  | fallback handler => exact congrArg (RouterPlan.mk · _ _) (List.append_nil _).symm
  | decorator decorator => exact congrArg (RouterPlan.mk · _ _) (List.append_nil _).symm

/-- **What steps leave in a plan.** -/
theorem afterAll_eq :
    plan.afterAll steps =
      ⟨plan.routes ++ routesIn steps, (fallbackIn? steps).or plan.fallback,
        (decoratorsIn steps).foldl .inOrder plan.decorator⟩ := by
  induction steps generalizing plan with
  | nil => exact congrArg (RouterPlan.mk · _ _) (List.append_nil _).symm
  | cons step rest ih =>
    have hroutes : routesIn (step :: rest) = _ := PlanStep.routesIn_append [step] rest
    have hfallback : fallbackIn? (step :: rest) = _ := PlanStep.fallbackIn?_append [step] rest
    have hdecorators : decoratorsIn (step :: rest) = _ := PlanStep.decoratorsIn_append [step] rest
    rw [hroutes, hfallback, hdecorators, ← List.append_assoc, Option.or_assoc, List.foldl_append]
    exact (ih (plan.after step)).trans (by rw [after_eq])

/-- **Building decorates every route and the fallback.** -/
theorem build_eq (routes : List RoutePlan) (fallback : Option Handler)
    (decorators : List Decorator) :
    (RouterPlan.mk routes fallback (decorators.foldl .inOrder .plain)).build =
      ⟨routes.map (routeWithin decorators), fallback.map (Decorator.around decorators)⟩ := by
  have happly : (decorators.foldl Decorator.inOrder .plain).apply =
      Decorator.around decorators := by
    funext handler
    exact Decorator.apply_ofList decorators handler
  rw [build, happly]
  rfl

/-- What is built after steps depends on three readings of them. -/
theorem build_afterAll :
    (empty.afterAll steps).build =
      ⟨(routesIn steps).map (routeWithin (decoratorsIn steps)),
        (fallbackIn? steps).map (Decorator.around (decoratorsIn steps))⟩ := by
  rw [afterAll_eq, empty, List.nil_append, Option.or_none, build_eq]

end

section

variable {before middle after : List PlanStep}

/-- Routes and fallbacks may be given before or after a decorator. -/
theorem build_moved (hmiddle : ∀ step ∈ middle, step.decorator? = none) (decorator : Decorator) :
    (empty.afterAll (before ++ middle ++ .decorator decorator :: after)).build =
      (empty.afterAll (before ++ .decorator decorator :: middle ++ after)).build := by
  have hnone : decoratorsIn middle = [] := List.filterMap_eq_nil_iff.mpr hmiddle
  have hroutes : ∀ steps, routesIn (.decorator decorator :: steps) = routesIn steps :=
    fun _ => rfl
  have hfallback : ∀ steps, fallbackIn? (.decorator decorator :: steps) = fallbackIn? steps :=
    fun _ => rfl
  have hdecorators : ∀ steps,
      decoratorsIn (.decorator decorator :: steps) = decorator :: decoratorsIn steps :=
    fun _ => rfl
  simp only [build_afterAll, List.cons_append, List.append_assoc, PlanStep.routesIn_append,
    PlanStep.fallbackIn?_append, PlanStep.decoratorsIn_append, hroutes, hfallback, hdecorators,
    hnone, List.nil_append]

/-- A plan without a fallback answers what no route accepts with the canonical 404, and no decorator
has anything to do with that. -/
theorem respond_unrouted {steps : List PlanStep} (hfallback : fallbackIn? steps = none)
    {head : RequestHead}
    (hroutes : ∀ route ∈ routesIn steps, (Filter.all route.filters).accepts head = false)
    (body : Body) :
    (empty.afterAll steps).build.toHandler.respond head body =
      Handler.unrouted.respond head body := by
  have hrefused : ∀ route ∈ (routesIn steps).map (routeWithin (decoratorsIn steps)),
      route.filter.accepts head = false := by
    intro route hmem
    obtain ⟨planned, hplanned, rfl⟩ := List.mem_map.mp hmem
    exact hroutes planned hplanned
  rw [build_afterAll, hfallback, Router.respond_toHandler, Router.answerer_eq_choose,
    Router.choose_of_refused _ _ _ hrefused]
  rfl

/-- Of two decorators the one that is given first is the inner one. -/
theorem around_decoratorsIn (before middle after : List PlanStep) (first next : Decorator)
    (handler : Handler) :
    Decorator.around
        (decoratorsIn (before ++ .decorator first :: middle ++ .decorator next :: after)) handler =
      Decorator.around (decoratorsIn after)
        (next.apply (Decorator.around (decoratorsIn middle)
          (first.apply (Decorator.around (decoratorsIn before) handler)))) := by
  rw [PlanStep.decoratorsIn_append, PlanStep.decoratorsIn_append, Decorator.around_append,
    Decorator.around_append]
  rfl

/-- **Whatever the order of the steps**, the router that is built has the routes in the order in
which they were given, with their filters, and the fallback that was given last; and every route and
the fallback are within all decorators, each of them applied once and the first one innermost. So it
makes no difference on which side of routes and fallbacks a decorator was given, while decorators
keep their order among each other. The canonical 404 of a router without a fallback is not
decorated. -/
theorem build_decorates (steps : List PlanStep) :
    (empty.afterAll steps).build =
        ⟨(routesIn steps).map (routeWithin (decoratorsIn steps)),
          (fallbackIn? steps).map (Decorator.around (decoratorsIn steps))⟩ ∧
      (∀ (before middle after : List PlanStep) (decorator : Decorator),
        steps = before ++ middle ++ .decorator decorator :: after →
        (∀ step ∈ middle, step.decorator? = none) →
          (empty.afterAll (before ++ .decorator decorator :: middle ++ after)).build =
            (empty.afterAll steps).build) ∧
      (∀ (before middle after : List PlanStep) (first next : Decorator),
        steps = before ++ .decorator first :: middle ++ .decorator next :: after →
          ∀ handler, Decorator.around (decoratorsIn steps) handler =
            Decorator.around (decoratorsIn after)
              (next.apply (Decorator.around (decoratorsIn middle)
                (first.apply (Decorator.around (decoratorsIn before) handler))))) ∧
      (fallbackIn? steps = none → ∀ (head : RequestHead) (body : Body),
        (∀ route ∈ routesIn steps, (Filter.all route.filters).accepts head = false) →
          (empty.afterAll steps).build.toHandler.respond head body =
            Handler.unrouted.respond head body) := by
  refine ⟨build_afterAll steps, ?_, ?_, fun hfallback head body hroutes =>
    respond_unrouted hfallback hroutes body⟩
  · rintro before middle after decorator rfl hmiddle
    exact (build_moved hmiddle decorator).symm
  · rintro before middle after first next rfl handler
    exact around_decoratorsIn before middle after first next handler

/-- A decorator comes first, then two routes, with a fallback and another decorator between them;
the router is that of the plan in which both decorators come last. Without the fallback a request
that no route accepts is answered with the plain 404. -/
theorem build_decorates_both :
    let inner : Decorator := .tag ⟨"inner"⟩
    let outer : Decorator := .custom fun handler => .labelled "outer" handler
    let users := RoutePlan.forMethod .get (.fixed (Reply.octets [1]))
    let orders := RoutePlan.forMethod .post (.fixed (Reply.octets [2]))
    let first := [PlanStep.decorator inner, .route users, .fallback (.fixed (Reply.octets [3]))]
    let head := RequestHead.ofLine ⟨.delete, ⟨none, none, "/", none⟩, .http11⟩
    (empty.afterAll (first ++ [.decorator outer] ++ [.route orders])).build =
        ⟨[⟨.all [.method .get],
              .labelled "outer" (.wrapped (.tagging ⟨"inner"⟩) (.fixed (Reply.octets [1])))⟩,
            ⟨.all [.method .post],
              .labelled "outer" (.wrapped (.tagging ⟨"inner"⟩) (.fixed (Reply.octets [2])))⟩],
          some (.labelled "outer" (.wrapped (.tagging ⟨"inner"⟩) (.fixed (Reply.octets [3]))))⟩ ∧
      (empty.afterAll ([] ++ .decorator inner ::
          [.route users, .fallback (.fixed (Reply.octets [3]))] ++
            [.decorator outer, .route orders])).build =
        (empty.afterAll ([] ++ [.route users, .fallback (.fixed (Reply.octets [3]))] ++
          .decorator inner :: [.decorator outer, .route orders])).build ∧
      Decorator.around
          (decoratorsIn ([] ++ .decorator inner :: [.route users] ++ .decorator outer :: []))
          users.handler = outer.apply (inner.apply users.handler) ∧
      (empty.afterAll [.route users, .decorator outer]).build.toHandler.respond head .empty =
        Handler.unrouted.respond head .empty := by
  intro inner outer users orders first head
  obtain ⟨hbuild, -, -, -⟩ := build_decorates (first ++ [.decorator outer] ++ [.route orders])
  obtain ⟨-, hmoved, -, -⟩ := build_decorates
    ([] ++ [.route users, .fallback (.fixed (Reply.octets [3]))] ++
      .decorator inner :: [.decorator outer, .route orders])
  obtain ⟨-, -, hkept, -⟩ := build_decorates
    ([] ++ .decorator inner :: [.route users] ++ .decorator outer :: [])
  obtain ⟨-, -, -, hunrouted⟩ := build_decorates [.route users, .decorator outer]
  refine ⟨hbuild, hmoved _ _ _ inner rfl ?_, hkept [] [.route users] [] inner outer rfl _,
    hunrouted rfl head .empty ?_⟩
  · simp [PlanStep.decorator?]
  · intro route hmem
    obtain rfl : route = users := List.mem_singleton.mp hmem
    decide

end

end RouterPlan

end Switchboard
