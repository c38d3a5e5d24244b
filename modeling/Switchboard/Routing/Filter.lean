import Switchboard.Http.Request
import Switchboard.Routing.PathPattern
import Switchboard.Text.Quoted
set_option autoImplicit false

/-! # Filters

A filter decides whether a route takes a request. Filters combine: `all` asks its parts from left
to right until one refuses, `any` until one accepts. `Filter.accepts` is the decision alone, and
`Filter.run` adds the basic filters that were asked, in order. -/

namespace Switchboard

/-- Why a filter cannot be built. -/
inductive FilterError where
  | header (reason : String)
  | path (reason : PatternError)
  deriving Repr, DecidableEq

/-- The wording of a filter error. -/
def FilterError.message : FilterError → String
  | .header reason => "invalid header filter: " ++ reason
  | .path reason => "invalid path pattern: " ++ reason.message

/-- A condition on the head of a request. -/
inductive Filter where
  | always
  | never
  | method (method : Method)
  | header (name : HeaderName) (value : HeaderValue)
  | path (pattern : PathPattern)
  /-- The path is this one or continues it with further segments. -/
  | underPath (base : String)
  /-- Any other condition, under a name. -/
  | custom (name : String) (accepts : RequestHead → Bool)
  | all (parts : List Filter)
  | any (parts : List Filter)

namespace Filter

/-! ## Basic filters -/

/-- The filter for a header with this value. -/
def ofHeader (name value : String) : Except FilterError Filter :=
  match HeaderName.ofString? name with
  | .error reason => .error (.header reason)
  | .ok name =>
    match HeaderValue.ofString? value with
    | .error reason => .error (.header reason)
    | .ok value => .ok (.header name value)

/-- The filter for paths that match a pattern. -/
def ofPath (pattern : String) : Except FilterError Filter :=
  match PathPattern.compile pattern with
  | .error e => .error (.path e)
  | .ok pattern => .ok (.path pattern)

/-- A text without the slashes at its end; its first character always stays. -/
def trimSlashes : List Char → List Char
  | [] => []
  | c :: rest => c :: (rest.reverse.dropWhile (· == '/')).reverse

/-- The filter for a path and everything below it. -/
def under (base : String) : Filter := .underPath (String.ofList (trimSlashes base.toList))

/-- What follows a text in a longer one. -/
def stripStart? : List Char → List Char → Option (List Char)
  | [], text => some text
  | _ :: _, [] => none
  | c :: start, d :: text => if c = d then stripStart? start text else none

/-- Whether a path is the base or continues it with a slash. -/
def isUnder (base path : List Char) : Bool :=
  if base = ['/'] then path.head? == some '/'
  else
    match stripStart? base path with
    | some [] => true
    | some (c :: _) => c == '/'
    | none => false

/-- The filter for requests with a query, even an empty one. -/
def hasQuery : Filter := .custom "has_query" fun head => head.line.uri.query.isSome

/-! ## Combinations -/

/-- A combination with a part added after its others; a basic filter has no parts to add to. -/
def adding (filter part : Filter) : Filter :=
  match filter with
  | .all parts => .all (parts ++ [part])
  | .any parts => .any (parts ++ [part])
  | basic => basic

/-! ## Deciding -/

/-- The decision of a basic filter; a combination decides nothing by itself. -/
def decideBasic : Filter → RequestHead → Bool
  | .always, _ => true
  | .never, _ => false
  | .method m, head => head.method == m
  | .header name value, head => head.headers.first? name == some value
  | .path pattern, head => pattern.accepts head.path
  | .underPath base, head => isUnder base.toList head.path.toList
  | .custom _ decide, head => decide head
  | .all _, _ => false
  | .any _, _ => false

mutual

/-- Whether a filter accepts a head. An empty `any` accepts, like an empty `all`. -/
def accepts : Filter → RequestHead → Bool
  | .all parts, head => allAccept parts head
  | .any parts, head => parts.isEmpty || someAccept parts head
  | filter, head => filter.decideBasic head

/-- Whether every part accepts. -/
def allAccept : List Filter → RequestHead → Bool
  | [], _ => true
  | part :: rest, head => part.accepts head && allAccept rest head

/-- Whether some part accepts. -/
def someAccept : List Filter → RequestHead → Bool
  | [], _ => false
  | part :: rest, head => part.accepts head || someAccept rest head

end

mutual

/-- Evaluates a filter: its decision, and the basic filters that were asked on the way. -/
def run : Filter → RequestHead → Bool × List Filter
  | .all parts, head => runAll parts head
  | .any [], _ => (true, [])
  | .any (part :: rest), head => runAny (part :: rest) head
  | filter, head => (filter.decideBasic head, [filter])

/-- Asks the parts until one refuses. -/
def runAll : List Filter → RequestHead → Bool × List Filter
  | [], _ => (true, [])
  | part :: rest, head =>
    match part.run head with
    | (false, asked) => (false, asked)
    | (true, asked) =>
      let (decision, more) := runAll rest head
      (decision, asked ++ more)

/-- Asks the parts until one accepts. -/
def runAny : List Filter → RequestHead → Bool × List Filter
  | [], _ => (false, [])
  | part :: rest, head =>
    match part.run head with
    | (true, asked) => (true, asked)
    | (false, asked) =>
      let (decision, more) := runAny rest head
      (decision, asked ++ more)

end

/-! ## Diagnostics -/

/-- A header value between quotes: bytes outside the printable ASCII range are written in
hexadecimal. -/
def quotedValue (value : HeaderValue) : String :=
  "\"" ++ String.join ((utf8 value.text).map fun byte =>
    if byte = 0x22 then "\\\""
    else if byte = 0x09 || (0x20 ≤ byte && byte ≤ 0x7e) then (Char.ofNat byte.toNat).toString
    else "\\x" ++ hexDigits byte.toNat) ++ "\""

/-- The diagnostic text of a filter. -/
def debug : Filter → String
  | .always => "TrueFilter"
  | .never => "FalseFilter"
  | .method m => "MethodFilter(" ++ m.token ++ ")"
  | .header name value => "HeaderFilter(" ++ quoted name.text ++ ", " ++ quotedValue value ++ ")"
  | .path pattern => "PathFilter(" ++ quoted pattern.source ++ ")"
  | .underPath base => "PathPrefixFilter(" ++ quoted base ++ ")"
  | .custom name _ => name
  | .all parts => "AllFilter \x7b filters: " ++ toString parts.length ++ " \x7d"
  | .any parts => "AnyFilter \x7b filters: " ++ toString parts.length ++ " \x7d"

end Filter

end Switchboard
