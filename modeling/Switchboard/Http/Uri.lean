import Switchboard.Http.Token
set_option autoImplicit false

/-! # Request targets

A target is a path with an optional query (`/a?b`), the asterisk, an authority alone (`host:443`)
or an absolute form (`http://host/a?b`). `Uri.parse?` reads one and `Uri.text` writes it. Writing
is not the inverse of reading: a fragment is dropped, a standard scheme is written in lower case,
and an absolute target without a path gets the path `/`. -/

namespace Switchboard

/-- A request target. -/
structure Uri where
  scheme : Option String
  authority : Option String
  /-- Empty exactly for an authority alone. -/
  path : String
  query : Option String
  deriving Repr, DecidableEq

namespace Uri

/-- The longest target that is read, in bytes. -/
def maxBytes : Nat := 65534

/-- The longest scheme that is read. -/
def maxScheme : Nat := 64

/-- How many colons an authority may hold in a row of host or credentials. -/
def maxColons : Nat := 8

/-! ## Character classes -/

/-- The characters of a path. -/
def isPathChar (c : Char) : Bool :=
  let n := c.toNat
  n == 0x21 || n == 0x22 || (0x24 ≤ n && n ≤ 0x3b) || n == 0x3d || (0x40 ≤ n && n ≤ 0x5f) ||
    (0x61 ≤ n && n ≤ 0x7e) || 0x80 ≤ n

/-- The characters of a query. -/
def isQueryChar (c : Char) : Bool :=
  let n := c.toNat
  n == 0x21 || (0x24 ≤ n && n ≤ 0x3b) || n == 0x3d || (0x3f ≤ n && n ≤ 0x7e) || 0x80 ≤ n

/-- The characters of a scheme. -/
def isSchemeChar (c : Char) : Bool :=
  isAlphanumeric c || ['+', '-', '.', '~'].contains c

/-- The characters that end an authority. -/
def endsAuthority (c : Char) : Bool := c == '/' || c == '?' || c == '#'

/-- The characters of an authority that have no meaning of their own there. -/
def isPlainAuthorityChar (c : Char) : Bool :=
  isAlphanumeric c ||
    ['!', '$', '&', '\'', '(', ')', '*', '+', ',', '-', '.', ';', '=', '_', '~'].contains c

/-! ## Path and query -/

/-- Reads a path and an optional query; a fragment is dropped unchecked. -/
def parsePathQuery? (text : List Char) : Option (String × Option String) :=
  let path := text.takeWhile fun c => c != '?' && c != '#'
  match text.dropWhile fun c => c != '?' && c != '#' with
  | '?' :: rest =>
    let query := rest.takeWhile (· != '#')
    if path.all isPathChar && query.all isQueryChar then
      some (String.ofList path, some (String.ofList query))
    else none
  | _ => if path.all isPathChar then some (String.ofList path, none) else none

/-! ## Authority -/

/-- What has been seen of an authority so far. -/
structure AuthorityScan where
  /-- Colons since the start, the last `@` or the last `]`. -/
  colons : Nat
  opened : Bool
  closed : Bool
  /-- A percent sign that no `@` or `]` has followed yet. -/
  percent : Bool
  /-- The last character was an `@`. -/
  atEnd : Bool
  deriving Repr, DecidableEq

/-- Nothing has been seen. -/
def AuthorityScan.start : AuthorityScan := ⟨0, false, false, false, false⟩

/-- Takes one character of an authority into account, if it may stand there. -/
def AuthorityScan.next? (s : AuthorityScan) (c : Char) : Option AuthorityScan :=
  if c = ':' then
    if maxColons ≤ s.colons then none
    else some { s with colons := s.colons + 1, atEnd := false }
  else if c = '[' then
    if s.percent || s.opened then none else some { s with opened := true, atEnd := false }
  else if c = ']' then
    if !s.opened || s.closed then none
    else some { s with closed := true, colons := 0, percent := false, atEnd := false }
  else if c = '@' then some { s with colons := 0, percent := false, atEnd := true }
  else if c = '%' then some { s with percent := true, atEnd := false }
  else if isPlainAuthorityChar c then some { s with atEnd := false }
  else none

/-- Whether an authority may end here. -/
def AuthorityScan.accepts (s : AuthorityScan) : Bool :=
  s.opened == s.closed && s.colons ≤ 1 && !s.atEnd && !s.percent

/-- Whether these characters, up to the end of the authority, form one. -/
def isAuthority (text : List Char) : Bool :=
  match text.foldlM AuthorityScan.next? AuthorityScan.start with
  | some s => s.accepts
  | none => false

/-! ## Scheme -/

/-- The scheme of a target. -/
inductive SchemeScan where
  /-- The target has none. -/
  | absent
  /-- The scheme as it is written out, and what follows `://`. -/
  | found (scheme : String) (rest : List Char)
  | tooLong
  deriving Repr, DecidableEq

/-- Reads the scheme of a target. -/
def scanScheme (text : List Char) : SchemeScan :=
  if lowerCase (String.ofList (text.take 7)) = "http://" then .found "http" (text.drop 7)
  else if lowerCase (String.ofList (text.take 8)) = "https://" then .found "https" (text.drop 8)
  else if text.length ≤ 3 then .absent
  else
    let name := text.takeWhile isSchemeChar
    match text.dropWhile isSchemeChar with
    | ':' :: '/' :: '/' :: rest =>
      if maxScheme < name.length then .tooLong else .found (String.ofList name) rest
    | _ => .absent

/-! ## Targets -/

/-- An authority alone. -/
def parseAuthority? (text : List Char) : Option Uri :=
  if isAuthority text then some ⟨none, some (String.ofList text), "", none⟩ else none

/-- The part of a target that follows its scheme. -/
def parseAbsolute? (scheme : String) (text : List Char) : Option Uri :=
  let authority := text.takeWhile (!endsAuthority ·)
  if authority.isEmpty || !isAuthority authority then none
  else
    match parsePathQuery? (text.dropWhile (!endsAuthority ·)) with
    | some (path, query) =>
      some ⟨some scheme, some (String.ofList authority), if path = "" then "/" else path, query⟩
    | none => none

/-- Reads a target. -/
def parse? (text : String) : Option Uri :=
  if maxBytes < text.utf8ByteSize then none
  else
    match text.toList with
    | [] => none
    | ['*'] => some ⟨none, none, "*", none⟩
    | '/' :: rest =>
      match parsePathQuery? ('/' :: rest) with
      | some (path, query) => some ⟨none, none, path, query⟩
      | none => none
    | chars =>
      if text.utf8ByteSize = 1 then parseAuthority? chars
      else
        match scanScheme chars with
        | .absent => parseAuthority? chars
        | .found scheme rest => parseAbsolute? scheme rest
        | .tooLong => none

/-- Writes a target. -/
def text (u : Uri) : String :=
  (match u.scheme with | some s => s ++ "://" | none => "") ++
  u.authority.getD "" ++
  u.path ++
  (match u.query with | some q => "?" ++ q | none => "")

/-- Whether two targets are the same: scheme and authority without regard to letter case, path and
query exactly. -/
def same (u v : Uri) : Bool :=
  u.scheme.map lowerCase == v.scheme.map lowerCase &&
  u.authority.map lowerCase == v.authority.map lowerCase &&
  u.path == v.path && u.query == v.query

/-! ## Parts of an authority -/

/-- What follows the last occurrence of a character, or everything if it does not occur. -/
def afterLast (mark : Char) (text : List Char) : List Char :=
  (text.reverse.takeWhile (· != mark)).reverse

/-- The host of an authority: after the credentials, a bracketed address or what precedes the next
colon. -/
def hostOf (authority : String) : String :=
  match afterLast '@' authority.toList with
  | '[' :: rest => String.ofList ('[' :: rest.takeWhile (· != ']') ++ [']'])
  | hostAndNumber => String.ofList (hostAndNumber.takeWhile (· != ':'))

/-- A decimal number below 65536, with an optional plus sign. -/
def portNumber? (digits : List Char) : Option Nat :=
  let digits := match digits with | '+' :: rest => rest | all => all
  if digits.isEmpty || !digits.all Char.isDigit then none
  else
    let n := digits.foldl (fun n c => n * 10 + (c.toNat - 48)) 0
    if n < 65536 then some n else none

/-- The number after the last colon of an authority. -/
def portNumberOf (authority : String) : Option Nat :=
  if authority.toList.contains ':' then portNumber? (afterLast ':' authority.toList) else none

/-- The host of a target. -/
def host (u : Uri) : Option String := u.authority.map hostOf

/-- The number that the authority of a target ends with. -/
def portNumber (u : Uri) : Option Nat := u.authority.bind portNumberOf

end Uri

end Switchboard
