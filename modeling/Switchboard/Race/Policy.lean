import Switchboard.Http.Response
set_option autoImplicit false

/-! # Success policies

A policy says of a response head whether it may win a race. A policy is code of its own, so it may
also panic instead of giving an answer.

A policy is a `SuccessPolicy`: `Policy.successOrRedirect` is the `StatusFamilyPolicy`, and any other
one an `FnPolicy`. -/

namespace Switchboard

/-- Whether a head may win, or the message of a panic. -/
abbrev Policy := ResponseHead → Except String Bool

namespace Policy

/-- A policy that always gives an answer. -/
def ofBool (accepts : ResponseHead → Bool) : Policy := fun head => .ok (accepts head)

/-- Whether a status means success or redirection. -/
def isSuccessOrRedirect (status : Nat) : Bool := status / 100 == 2 || status / 100 == 3

/-- The default policy: success or redirection. -/
def successOrRedirect : Policy := ofBool fun head => isSuccessOrRedirect head.status

/-- Accepts only these statuses. -/
def only (statuses : List Nat) : Policy := ofBool fun head => statuses.contains head.status

/-- Accepts all but these statuses. -/
def except (statuses : List Nat) : Policy := ofBool fun head => !statuses.contains head.status

/-- Accepts heads whose first value under a name is this one. -/
def header (name : HeaderName) (value : HeaderValue) : Policy :=
  ofBool fun head => head.headers.first? name == some value

end Policy

end Switchboard
