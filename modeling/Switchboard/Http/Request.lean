import Switchboard.Fault
import Switchboard.Http.Headers
import Switchboard.Http.Method
import Switchboard.Http.Uri
set_option autoImplicit false

/-! # Request lines and heads

A request line is a method, a target and a version, separated by single spaces. A request head is
a line with headers. Parsing reports the first part that is not in order, from left to right. -/

namespace Switchboard

/-- A version of the protocol. -/
inductive Version where
  | http09
  | http10
  | http11
  | http2
  | http3
  deriving Repr, DecidableEq

/-- A version as it is written. -/
def Version.text : Version → String
  | .http09 => "HTTP/0.9"
  | .http10 => "HTTP/1.0"
  | .http11 => "HTTP/1.1"
  | .http2 => "HTTP/2.0"
  | .http3 => "HTTP/3.0"

/-- The version that the last part of a request line spells. -/
def Version.ofString? (text : String) : Option Version :=
  if text = "HTTP/0.9" then some .http09
  else if text = "HTTP/1.0" then some .http10
  else if text = "HTTP/1.1" then some .http11
  else if text = "HTTP/2.0" ∨ text = "HTTP/2" then some .http2
  else none

/-- The first line of a request. -/
structure RequestLine where
  method : Method
  uri : Uri
  version : Version
  deriving Repr, DecidableEq

namespace RequestLine

/-- Whether a character ends a line. -/
def isLineEnd (c : Char) : Bool := c == '\r' || c == '\n'

/-- A line without the line ends at its end. -/
def trimLineEnds (line : List Char) : List Char := (line.reverse.dropWhile isLineEnd).reverse

/-- Puts a character in front of the parts of the rest of its line. -/
def consPart (c : Char) (parts : List (List Char)) : List (List Char) :=
  match parts with
  | part :: parts => if c = ' ' then [] :: part :: parts else (c :: part) :: parts
  | [] => [[c]]

/-- The parts of a line between its spaces. -/
def spaceSeparated (line : List Char) : List (List Char) := line.foldr consPart [[]]

/-- Reads a request line. -/
def parse (line : String) : Except ParseError RequestLine :=
  let trimmed := trimLineEnds line.toList
  match spaceSeparated trimmed with
  | [method, target, version] =>
    match Method.ofString? (String.ofList method) with
    | none => .error .method
    | some method =>
      match Uri.parse? (String.ofList target) with
      | none => .error .uri
      | some uri =>
        match Version.ofString? (String.ofList version) with
        | none => .error (.version (String.ofList version))
        | some version => .ok ⟨method, uri, version⟩
  | _ => .error (.requestLine (String.ofList trimmed))

/-- Writes a request line. -/
def text (l : RequestLine) : String :=
  l.method.token ++ " " ++ l.uri.text ++ " " ++ l.version.text

/-- Whether two lines are the same request. -/
def same (a b : RequestLine) : Bool :=
  a.method == b.method && a.uri.same b.uri && a.version == b.version

end RequestLine

/-- The head of a request: its line, its headers, and the names of the extensions that handlers
on the way have attached to it. -/
structure RequestHead where
  line : RequestLine
  headers : Headers
  extensions : List String
  deriving Repr, DecidableEq

namespace RequestHead

/-- The head that is only a line. -/
def ofLine (line : RequestLine) : RequestHead := ⟨line, Headers.empty, []⟩

/-- Adds the header that two texts spell; the name is checked before the value. -/
def appendHeader (headers : Headers) (name value : String) : Except ParseError Headers :=
  match HeaderName.ofString? name with
  | .error reason => .error (.header reason)
  | .ok name =>
    match HeaderValue.ofString? value with
    | .error reason => .error (.header reason)
    | .ok value => .ok (headers.append name value)

/-- Reads a head from its line and the texts of its headers. -/
def parse (line : String) (headers : List (String × String)) : Except ParseError RequestHead :=
  match RequestLine.parse line with
  | .error e => .error e
  | .ok line =>
    match headers.foldlM (fun h (name, value) => appendHeader h name value) Headers.empty with
    | .error e => .error e
    | .ok headers => .ok ⟨line, headers, []⟩

/-- A copy for another handler: the line and the headers, without extensions. -/
def copy (h : RequestHead) : RequestHead := ⟨h.line, h.headers, []⟩

/-- Attaches an extension. -/
def extend (h : RequestHead) (name : String) : RequestHead :=
  { h with extensions := h.extensions ++ [name] }

/-- The first value and all values under a name; a text that is no header name finds nothing. -/
def lookup (h : RequestHead) (name : String) : List HeaderValue :=
  match HeaderName.ofString? name with
  | .ok name => h.headers.values name
  | .error _ => []

/-- The method of the request. -/
def method (h : RequestHead) : Method := h.line.method

/-- The path of the request. -/
def path (h : RequestHead) : String := h.line.uri.path

end RequestHead

/-- A request: a head with whatever travels along with it. -/
structure Request (α : Type) where
  head : RequestHead
  body : α

/-- A head with a body attached to it. -/
def RequestHead.attach {α : Type} (h : RequestHead) (body : α) : Request α := ⟨h, body⟩

/-- A request with its body taken off. -/
def Request.detach {α : Type} (r : Request α) : RequestHead := r.head

end Switchboard
