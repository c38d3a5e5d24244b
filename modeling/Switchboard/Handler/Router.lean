import Switchboard.Handler.Decorator
set_option autoImplicit false

/-! # Routers

A router asks its routes in order and takes the first one whose filters accept the request; if none
does, it takes the fallback, or answers with the canonical 404. Decorators given to a router
decorate the handler of every route and the fallback, whenever they were given. -/

namespace Switchboard

/-- A route: what it asks of a request, and who answers. -/
structure Route where
  filter : Filter
  handler : Handler

/-- A router. -/
structure Router where
  routes : List Route
  fallback : Option Handler

namespace Router

/-- Asks routes one after the other until one accepts; gives that route, and the basic filters that
were asked. -/
def search : List Route → RequestHead → Option Route × List Filter
  | [], _ => (none, [])
  | route :: rest, head =>
    match route.filter.run head with
    | (true, asked) => (some route, asked)
    | (false, asked) =>
      let (found, more) := search rest head
      (found, asked ++ more)

/-- The route of a request: the first one that accepts it. -/
def find? (router : Router) (head : RequestHead) : Option Route := (search router.routes head).1

/-- A router as a handler. -/
def toHandler (router : Router) : Handler :=
  router.routes.foldr (fun route rest => .route route.filter route.handler rest)
    (router.fallback.getD .unrouted)

/-- The diagnostic text of a router. -/
def debug (router : Router) : String :=
  "Router \x7b routes: " ++ toString router.routes.length ++ ", fallback: " ++
    toString router.fallback.isSome ++ " \x7d"

end Router

/-! ## Plans -/

/-- A route in the making: all of its filters have to accept. -/
structure RoutePlan where
  filters : List Filter
  handler : Handler

namespace RoutePlan

/-- A route for any request. -/
def any (handler : Handler) : RoutePlan := ⟨[], handler⟩

/-- A route for requests of one method. -/
def forMethod (method : Method) (handler : Handler) : RoutePlan :=
  ⟨[.method method], handler⟩

/-- Asks for one thing more. -/
def requiring (plan : RoutePlan) (filter : Filter) : RoutePlan :=
  { plan with filters := plan.filters ++ [filter] }

/-- The finished route. -/
def build (plan : RoutePlan) : Route := ⟨.all plan.filters, plan.handler⟩

/-- The diagnostic text of a route in the making. -/
def debug (plan : RoutePlan) : String :=
  "RouterItemBuilder \x7b filters: " ++ (Filter.all plan.filters).debug ++ ", .. \x7d"

/-- The diagnostic text of a finished route. -/
def builtDebug : String := "RouterItem \x7b .. \x7d"

end RoutePlan

/-- A router in the making. -/
structure RouterPlan where
  routes : List RoutePlan
  fallback : Option Handler
  decorator : Decorator

namespace RouterPlan

/-- Nothing is planned yet. -/
def empty : RouterPlan := ⟨[], none, .plain⟩

/-- Adds a route after the others. -/
def route (plan : RouterPlan) (route : RoutePlan) : RouterPlan :=
  { plan with routes := plan.routes ++ [route] }

/-- Sets the fallback. -/
def withFallback (plan : RouterPlan) (handler : Handler) : RouterPlan :=
  { plan with fallback := some handler }

/-- Adds a decorator for everything, around those given before. -/
def decorate (plan : RouterPlan) (decorator : Decorator) : RouterPlan :=
  { plan with decorator := .inOrder plan.decorator decorator }

/-- The finished router. -/
def build (plan : RouterPlan) : Router :=
  ⟨plan.routes.map fun route =>
      let built := route.build
      { built with handler := plan.decorator.apply built.handler },
    plan.fallback.map plan.decorator.apply⟩

/-- The diagnostic text of a router in the making. -/
def debug (plan : RouterPlan) : String :=
  "RouterBuilder \x7b routes: " ++ toString plan.routes.length ++ ", fallback: " ++
    toString plan.fallback.isSome ++ ", .. \x7d"

end RouterPlan

end Switchboard
