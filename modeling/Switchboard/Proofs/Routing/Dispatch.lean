import Switchboard.Handler.Router
set_option autoImplicit false

/-! # Who answers a request

A router takes the first route that accepts a request (`Router.answerer`). A route may lead to a
router again, and then that one chooses in turn; so a tree of routers asks one of its leaves, in
the end. `Router.under` is how the routes of a router look from outside the route that leads to it:
each of them accepts what both filters accept, and after them comes a route that takes whatever the
outer filter accepts, to the fallback. Put in the place of that route, they make the same choice
(`Router.choose_under`), so a tree of any depth can be replaced by one flat router
(`RouteTree.flat`) that asks the same leaf: `RouteTree.flat_asks_leaf`. -/

namespace Switchboard

/-! ## Filters -/

namespace Filter

mutual

/-- The decision of an evaluation is that of the filter. -/
theorem fst_run (filter : Filter) (head : RequestHead) :
    (filter.run head).1 = filter.accepts head := by
  cases filter with
  | all parts =>
    rw [run, accepts]
    exact fst_runAll parts head
  | any parts =>
    cases parts with
    | nil =>
      rw [run, accepts]
      rfl
    | cons part rest =>
      rw [run, accepts]
      exact fst_runAny (part :: rest) head
  | _ => simp only [run, accepts]

theorem fst_runAll (parts : List Filter) (head : RequestHead) :
    (runAll parts head).1 = allAccept parts head := by
  cases parts with
  | nil => rfl
  | cons part rest =>
    rw [runAll, allAccept, ← fst_run part head, ← fst_runAll rest head]
    obtain ⟨decision, asked⟩ := part.run head
    cases decision <;> rfl

theorem fst_runAny (parts : List Filter) (head : RequestHead) :
    (runAny parts head).1 = someAccept parts head := by
  cases parts with
  | nil => rfl
  | cons part rest =>
    rw [runAny, someAccept, ← fst_run part head, ← fst_runAny rest head]
    obtain ⟨decision, asked⟩ := part.run head
    cases decision <;> rfl

end

/-- What both of two filters accept. -/
theorem accepts_both (filter other : Filter) (head : RequestHead) :
    (Filter.all [filter, other]).accepts head =
      (filter.accepts head && other.accepts head) := by
  rw [accepts, allAccept, allAccept, allAccept, Bool.and_true]

end Filter

/-! ## Routers -/

namespace Router

/-- The handler of the first route that accepts a request, or else this one. -/
def choose (routes : List Route) (otherwise : Handler) (head : RequestHead) : Handler :=
  match routes.find? (·.filter.accepts head) with
  | some route => route.handler
  | none => otherwise

/-- **Who answers a request**: the route that the router finds, or its fallback. Where there is no
fallback nobody is asked. -/
def answerer (router : Router) (head : RequestHead) : Handler :=
  match router.find? head with
  | some route => route.handler
  | none => router.fallback.getD .unrouted

/-- How the routes of a router look from outside a route that leads to it. -/
def under (filter : Filter) (router : Router) : List Route :=
  (router.routes.map fun route => ⟨.all [filter, route.filter], route.handler⟩) ++
    [⟨filter, router.fallback.getD .unrouted⟩]

section

variable (router : Router) (routes rest : List Route) (otherwise : Handler) (head : RequestHead)

theorem fst_search : (search routes head).1 = routes.find? (·.filter.accepts head) := by
  induction routes with
  | nil => rfl
  | cons route rest ih =>
    rw [search, List.find?_cons, ← Filter.fst_run]
    obtain ⟨decision, asked⟩ := route.filter.run head
    cases decision with
    | true => rfl
    | false => exact ih

theorem answerer_eq_choose :
    router.answerer head = choose router.routes (router.fallback.getD .unrouted) head := by
  rw [answerer, find?, fst_search, choose]

theorem choose_cons (route : Route) :
    choose (route :: rest) otherwise head =
      if route.filter.accepts head then route.handler else choose rest otherwise head := by
  rw [choose, List.find?_cons]
  cases route.filter.accepts head <;> rfl

theorem choose_append :
    choose (routes ++ rest) otherwise head = choose routes (choose rest otherwise head) head := by
  induction routes with
  | nil => rfl
  | cons route routes ih => rw [List.cons_append, choose_cons, choose_cons, ih]

/-- Where no route accepts the request nothing is chosen. -/
theorem choose_of_refused (h : ∀ route ∈ routes, route.filter.accepts head = false) :
    choose routes otherwise head = otherwise := by
  have hnone : routes.find? (·.filter.accepts head) = none := by
    rw [List.find?_eq_none]
    intro route hmem
    rw [h route hmem]
    exact Bool.false_ne_true
  rw [choose, hnone]

/-- **The routes of a router from outside** choose as the router does, if the outer filter accepts
the request, and else nothing. -/
theorem choose_under (filter : Filter) :
    choose (router.under filter) otherwise head =
      if filter.accepts head then router.answerer head else otherwise := by
  rw [answerer_eq_choose, under]
  generalize router.fallback.getD .unrouted = fallback
  induction router.routes with
  | nil => exact choose_cons [] otherwise head ⟨filter, fallback⟩
  | cons route routes ih =>
    rw [List.map_cons, List.cons_append, choose_cons, choose_cons, ih, Filter.accepts_both]
    cases filter.accepts head <;> rfl

/-- **A router answers a request as the handler that it chooses** does, and asks nobody else. -/
theorem respond_toHandler (body : Body) :
    router.toHandler.respond head body = (router.answerer head).respond head body := by
  rw [answerer_eq_choose, toHandler]
  induction router.routes with
  | nil => rfl
  | cons route routes ih =>
    rw [List.foldr_cons, Handler.respond, choose_cons]
    split
    · rfl
    · exact ih

end

end Router

/-! ## Trees of routers -/

/-- A router whose routes may lead to routers again. -/
inductive RouteTree where
  | leaf (handler : Handler)
  | router (routes : List (Filter × RouteTree)) (fallback : Option Handler)

namespace RouteTree

mutual

/-- A tree of routers as a handler. -/
def toHandler : RouteTree → Handler
  | .leaf handler => handler
  | .router routes fallback => (Router.mk (routesOf routes) fallback).toHandler

/-- The routes of one router of the tree. -/
def routesOf : List (Filter × RouteTree) → List Route
  | [] => []
  | (filter, tree) :: rest => ⟨filter, tree.toHandler⟩ :: routesOf rest

end

mutual

/-- **The leaf that a request comes to**: at each router the first route that accepts the request
leads on, and the fallback is a leaf. -/
def leafFor : RouteTree → RequestHead → Handler
  | .leaf handler, _ => handler
  | .router routes fallback, head => leafAmong routes (fallback.getD .unrouted) head

/-- The leaf behind the first route that accepts the request. -/
def leafAmong : List (Filter × RouteTree) → Handler → RequestHead → Handler
  | [], otherwise, _ => otherwise
  | (filter, tree) :: rest, otherwise, head =>
    if filter.accepts head then tree.leafFor head else leafAmong rest otherwise head

end

mutual

/-- **One router in the place of a tree of them.** -/
def flat : RouteTree → Router
  | .leaf handler => ⟨[], some handler⟩
  | .router routes fallback => ⟨flatRoutes routes, fallback⟩

/-- Each route to a router is replaced by the routes of that one. -/
def flatRoutes : List (Filter × RouteTree) → List Route
  | [] => []
  | (filter, tree) :: rest => tree.flat.under filter ++ flatRoutes rest

end

section

variable (head : RequestHead)

mutual

theorem answerer_flat (tree : RouteTree) : tree.flat.answerer head = tree.leafFor head := by
  rw [Router.answerer_eq_choose]
  cases tree with
  | leaf handler =>
    rw [flat, leafFor]
    rfl
  | router routes fallback =>
    rw [flat, leafFor]
    exact choose_flatRoutes routes (fallback.getD .unrouted)

theorem choose_flatRoutes (routes : List (Filter × RouteTree)) (otherwise : Handler) :
    Router.choose (flatRoutes routes) otherwise head = leafAmong routes otherwise head := by
  cases routes with
  | nil =>
    rw [flatRoutes, leafAmong]
    rfl
  | cons route rest =>
    obtain ⟨filter, tree⟩ := route
    rw [flatRoutes, leafAmong, Router.choose_append, Router.choose_under, answerer_flat tree,
      choose_flatRoutes rest otherwise]

end

mutual

/-- A tree of routers answers a request as the leaf does that the request comes to. -/
theorem respond_toHandler (tree : RouteTree) (body : Body) :
    tree.toHandler.respond head body = (tree.leafFor head).respond head body := by
  cases tree with
  | leaf handler => rw [toHandler, leafFor]
  | router routes fallback =>
    rw [toHandler, leafFor, Router.respond_toHandler, Router.answerer_eq_choose]
    exact respond_choose routes (fallback.getD .unrouted) body

theorem respond_choose (routes : List (Filter × RouteTree)) (otherwise : Handler) (body : Body) :
    (Router.choose (routesOf routes) otherwise head).respond head body =
      (leafAmong routes otherwise head).respond head body := by
  cases routes with
  | nil =>
    rw [routesOf, leafAmong]
    rfl
  | cons route rest =>
    obtain ⟨filter, tree⟩ := route
    rw [routesOf, leafAmong, Router.choose_cons]
    split
    · exact respond_toHandler tree body
    · exact respond_choose rest otherwise body

end

end

theorem flatRoutes_append (routes rest : List (Filter × RouteTree)) :
    flatRoutes (routes ++ rest) = flatRoutes routes ++ flatRoutes rest := by
  induction routes with
  | nil => rw [List.nil_append, flatRoutes, List.nil_append]
  | cons route routes ih =>
    obtain ⟨filter, tree⟩ := route
    rw [List.cons_append, flatRoutes, flatRoutes, ih, List.append_assoc]

theorem leafAmong_append (routes rest : List (Filter × RouteTree)) (otherwise : Handler)
    (head : RequestHead) :
    leafAmong (routes ++ rest) otherwise head =
      leafAmong routes (leafAmong rest otherwise head) head := by
  rw [← choose_flatRoutes, flatRoutes_append, Router.choose_append, choose_flatRoutes,
    choose_flatRoutes]

theorem leafAmong_of_refused {routes : List (Filter × RouteTree)} {head : RequestHead}
    (h : ∀ route ∈ routes, route.1.accepts head = false) (otherwise : Handler) :
    leafAmong routes otherwise head = otherwise := by
  induction routes with
  | nil => rw [leafAmong]
  | cons route routes ih =>
    obtain ⟨filter, tree⟩ := route
    have hrefused : filter.accepts head = false := h (filter, tree) List.mem_cons_self
    rw [leafAmong, hrefused, if_neg Bool.false_ne_true]
    exact ih fun other hother => h other (List.mem_cons_of_mem _ hother)

/-- The route that takes a request leads to the leaf. -/
theorem leafFor_of_taken {before after : List (Filter × RouteTree)} {filter : Filter}
    {inner : RouteTree} {head : RequestHead} (hbefore : ∀ route ∈ before,
      route.1.accepts head = false) (htakes : filter.accepts head = true)
    (fallback : Option Handler) :
    (RouteTree.router (before ++ (filter, inner) :: after) fallback).leafFor head =
      inner.leafFor head := by
  rw [leafFor, leafAmong_append, leafAmong_of_refused hbefore, leafAmong, if_pos htakes]

/-- **Nested routers flatten.** A route to a router, at any depth, may be replaced by the routes of
that router, each for what both filters accept, and a last one to its fallback or to the canonical
404. The flat router chooses the leaf that the request comes to in the tree, for every request, and
both ask that leaf once, with the request as it is, and no other. Whatever the route to a router
takes stays there: neither the routes after it nor the fallback matter any more. -/
theorem flat_asks_leaf (before after : List (Filter × RouteTree)) (filter : Filter)
    (inner : RouteTree) (fallback : Option Handler) (head : RequestHead) (body : Body) :
    let tree := RouteTree.router (before ++ (filter, inner) :: after) fallback
    tree.flat = ⟨flatRoutes before ++ inner.flat.under filter ++ flatRoutes after, fallback⟩ ∧
      tree.flat.answerer head = tree.leafFor head ∧
      tree.flat.toHandler.respond head body = (tree.leafFor head).respond head body ∧
      tree.toHandler.respond head body = (tree.leafFor head).respond head body ∧
      ((∀ route ∈ before, route.1.accepts head = false) → filter.accepts head = true →
        tree.leafFor head = inner.leafFor head ∧
          ∀ (after' : List (Filter × RouteTree)) (fallback' : Option Handler),
            (RouteTree.router (before ++ (filter, inner) :: after') fallback').toHandler.respond
                head body =
              inner.toHandler.respond head body) := by
  intro tree
  refine ⟨?_, answerer_flat head tree, ?_, respond_toHandler head tree body,
    fun hbefore htakes => ⟨leafFor_of_taken hbefore htakes fallback, fun after' fallback' => ?_⟩⟩
  · rw [flat, flatRoutes_append, flatRoutes, List.append_assoc]
  · rw [Router.respond_toHandler, answerer_flat]
  · rw [respond_toHandler, leafFor_of_taken hbefore htakes, respond_toHandler]

/-- A request for something below `/api` that none of the routes there accepts: the canonical 404
answers it, although the last route of the outer router would have taken it. -/
theorem flat_asks_leaf_unrouted :
    let head := RequestHead.ofLine ⟨.get, ⟨none, none, "/api/users", none⟩, .http11⟩
    let deeper := RouteTree.router [(.method .put, .leaf (.fixed (Reply.octets [1])))] none
    let inner := RouteTree.router
      [(.method .post, .leaf (.fixed (Reply.octets [2]))), (.under "/api/users/", deeper)]
      (some (.fixed (Reply.octets [3])))
    let tree := RouteTree.router
      ([(.under "/apix", .leaf (.fixed (Reply.octets [4])))] ++
        (.under "/api", inner) :: [(.always, .leaf (.fixed (Reply.octets [5])))])
      (some (.fixed (Reply.octets [6])))
    tree.flat.answerer head = .unrouted ∧
      tree.toHandler.respond head .empty = Handler.unrouted.respond head .empty := by
  intro head deeper inner tree
  obtain ⟨-, hflat, -, hrespond, htaken⟩ := flat_asks_leaf
    [(.under "/apix", .leaf (.fixed (Reply.octets [4])))]
    [(.always, .leaf (.fixed (Reply.octets [5])))] (.under "/api") inner
    (some (.fixed (Reply.octets [6]))) head .empty
  have hbefore : ∀ route ∈ [(Filter.under "/apix", RouteTree.leaf (.fixed (Reply.octets [4])))],
      route.1.accepts head = false := by
    simp only [List.forall_mem_cons]
    exact ⟨by decide +kernel, nofun⟩
  obtain ⟨hleaf, -⟩ := htaken hbefore (by decide +kernel)
  have hinner : inner.leafFor head = .unrouted := by
    have htakes : (Filter.under "/api/users/").accepts head = true := by decide +kernel
    have hother : (Filter.method .post).accepts head = false := by decide
    have hput : (Filter.method .put).accepts head = false := by decide
    simp only [inner, deeper, leafFor, leafAmong, htakes, hother, hput, if_true,
      Bool.false_eq_true, if_false, Option.getD_none]
  rw [hleaf, hinner] at hflat hrespond
  exact ⟨hflat, hrespond⟩

end RouteTree

end Switchboard
