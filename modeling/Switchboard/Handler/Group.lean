import Switchboard.Handler.Basic
set_option autoImplicit false

/-! # Groups

A group holds several backends for the same requests. Requests that only read are sent to all of
them, any other request goes to the primary backend alone.

A group is a `GroupSlice` or its `GroupSliceBuilder`. -/

namespace Switchboard

/-- A group of backends. -/
structure Group where
  backends : List Handler
  primary : Nat
  policy : Policy

namespace Group

/-- A group without backends, as building starts. -/
def empty : Group := ⟨[], 0, Policy.successOrRedirect⟩

/-- Adds a backend after the others. -/
def backend (group : Group) (handler : Handler) : Group :=
  { group with backends := group.backends ++ [handler] }

/-- Checks that the primary backend exists, if there are backends at all. -/
def build (group : Group) : Except String Group :=
  if group.backends.isEmpty || group.primary < group.backends.length then .ok group
  else
    .error ("primary backend " ++ toString group.primary ++ " is out of range for a group of " ++
      toString group.backends.length ++ " backends")

/-- A group as a handler. -/
def toHandler (group : Group) : Handler := .group group.backends group.primary group.policy

/-- The fields of the diagnostic texts. -/
def debugFields (group : Group) : String :=
  " \x7b backends: " ++ toString group.backends.length ++ ", primary: " ++
    toString group.primary ++ ", .. \x7d"

/-- The diagnostic text of a group in the making. -/
def planDebug (group : Group) : String := "GroupSliceBuilder" ++ group.debugFields

/-- The diagnostic text of a group. -/
def debug (group : Group) : String := "GroupSlice" ++ group.debugFields

end Group

end Switchboard
