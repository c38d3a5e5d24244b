import Switchboard.Http.Token
set_option autoImplicit false

/-! # Request methods

A method is a token whose letter case counts. Reading methods (`GET`, `HEAD`, `OPTIONS`,
`CONNECT`, `TRACE`) may be sent to several backends at once; `Method.goesToAll` says which. -/

namespace Switchboard

/-- A request method. -/
structure Method where
  token : String
  isToken : isToken token = true
  deriving Repr, DecidableEq

namespace Method

/-- The method that a text spells, if it is a token. -/
def ofString? (text : String) : Option Method :=
  if h : Switchboard.isToken text = true then some ⟨text, h⟩ else none

theorem ofString?_token (m : Method) : ofString? m.token = some m := by
  simp [ofString?, m.isToken]

/-- Reads a resource or describes it. -/
def get : Method := ⟨"GET", by decide +kernel⟩
/-- Submits content. -/
def post : Method := ⟨"POST", by decide +kernel⟩
/-- Replaces a resource. -/
def put : Method := ⟨"PUT", by decide +kernel⟩
/-- Removes a resource. -/
def delete : Method := ⟨"DELETE", by decide +kernel⟩
/-- Reads a resource without its content. -/
def head : Method := ⟨"HEAD", by decide +kernel⟩
/-- Asks what can be done. -/
def options : Method := ⟨"OPTIONS", by decide +kernel⟩
/-- Opens a tunnel. -/
def connect : Method := ⟨"CONNECT", by decide +kernel⟩
/-- Changes a part of a resource. -/
def patch : Method := ⟨"PATCH", by decide +kernel⟩
/-- Asks for an echo of the request. -/
def trace : Method := ⟨"TRACE", by decide +kernel⟩

/-- The methods that a group sends to all of its backends. -/
def broadcast : List Method := [get, head, options, connect, trace]

/-- Whether a group sends requests of this method to all of its backends. -/
def goesToAll (m : Method) : Bool := broadcast.contains m

end Method

end Switchboard
