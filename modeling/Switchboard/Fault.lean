import Switchboard.Bytes
set_option autoImplicit false

/-! # Faults

Everything that can go wrong while a request is parsed, a body is read, content is split or a
response is delivered. A fault is a value that names its cause; `message` is its wording, and
`causes` lists the wordings of the faults it was built from, outermost first. -/

namespace Switchboard

/-- Why the head of a request is not accepted. -/
inductive ParseError where
  /-- The line does not have three parts. -/
  | requestLine (line : String)
  | method
  | uri
  | version (text : String)
  | header (reason : String)
  deriving Repr, DecidableEq

/-- The wording of a parse error. -/
def ParseError.message : ParseError → String
  | .requestLine line => "invalid request line: " ++ line
  | .method => "invalid http method"
  | .uri => "invalid http uri"
  | .version text => "invalid http version: " ++ text
  | .header reason => "invalid header: " ++ reason

mutual

/-- Why a body stopped giving content. -/
inductive BodyError where
  /-- The transport failed. -/
  | io (reason : String)
  /-- The stream behind the body failed. -/
  | stream (cause : Fault)
  /-- The content could not be split. -/
  | split (cause : SplitError)

/-- Why content could not be split into segments. -/
inductive SplitError where
  | emptyDelimiter
  /-- The source of the content failed. -/
  | source (cause : Fault)

/-- Why a response was not delivered. -/
inductive SendError where
  | invalidBody (reason : String)
  | body (cause : BodyError)
  | closed (reason : String)
  | io (reason : String)

/-- Any fault, as it is carried inside another one. -/
inductive Fault where
  | text (message : String)
  | parse (error : ParseError)
  | body (error : BodyError)
  | split (error : SplitError)
  | send (error : SendError)

end

mutual

/-- The wording of a body error. -/
def BodyError.message : BodyError → String
  | .io reason => "io error: " ++ reason
  | .stream cause => "body stream error: " ++ cause.message
  | .split cause => "split error: " ++ cause.message

/-- The wording of a split error. -/
def SplitError.message : SplitError → String
  | .emptyDelimiter => "delimiter must not be empty"
  | .source cause => "upstream error: " ++ cause.message

/-- The wording of a delivery error. -/
def SendError.message : SendError → String
  | .invalidBody reason => "invalid body: " ++ reason
  | .body cause => "body error: " ++ cause.message
  | .closed reason => "connection closed: " ++ reason
  | .io reason => "io error: " ++ reason

/-- The wording of a fault. -/
def Fault.message : Fault → String
  | .text message => message
  | .parse error => error.message
  | .body error => error.message
  | .split error => error.message
  | .send error => error.message

end

mutual

/-- The wordings of the faults behind a body error. -/
def BodyError.causes : BodyError → List String
  | .io reason => [reason]
  | .stream cause => cause.message :: cause.causes
  | .split cause => cause.message :: cause.causes

/-- The wordings of the faults behind a split error. -/
def SplitError.causes : SplitError → List String
  | .emptyDelimiter => []
  | .source cause => cause.message :: cause.causes

/-- The wordings of the faults behind a delivery error. -/
def SendError.causes : SendError → List String
  | .invalidBody _ => []
  | .body cause => cause.message :: cause.causes
  | .closed _ => []
  | .io reason => [reason]

/-- The wordings of the faults behind a fault, outermost first. -/
def Fault.causes : Fault → List String
  | .text _ => []
  | .parse _ => []
  | .body error => error.causes
  | .split error => error.causes
  | .send error => error.causes

end

/-- How a delivery ends: with nothing to report, or with the reason why it failed. -/
abbrev Delivery := Except SendError Unit

end Switchboard
