import Switchboard.Handler.Basic
set_option autoImplicit false

/-! # Decorators

A decorator turns a handler into another one. Decorators are chained: the first one is applied
first and so ends up innermost. -/

namespace Switchboard

/-- What turns a handler into another one. -/
inductive Decorator where
  /-- Leaves the handler as it is. -/
  | plain
  /-- Logs at this level. -/
  | logging (level : Level)
  /-- Tags every response. -/
  | tag (value : HeaderValue)
  /-- Gives this status instead of asking the handler. -/
  | replacing (status : Nat)
  /-- Any other change of a handler. -/
  | custom (change : Handler → Handler)
  /-- One decorator after the other. -/
  | inOrder (first next : Decorator)

namespace Decorator

/-- Decorates a handler. -/
def apply : Decorator → Handler → Handler
  | .plain, handler => handler
  | .logging level, handler => .wrapped (.logging level) handler
  | .tag value, handler => .wrapped (.tagging value) handler
  | .replacing status, _ => .fixed (Reply.ofStatus status)
  | .custom change, handler => change handler
  | .inOrder first next, handler => next.apply (first.apply handler)

/-- All of these decorators, the first one innermost. -/
def ofList (decorators : List Decorator) : Decorator := decorators.foldl .inOrder .plain

end Decorator

end Switchboard
