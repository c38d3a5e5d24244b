set_option autoImplicit false

/-! # Path patterns

A pattern is a path in which `{name}` stands for a non-empty part of one segment and `{*name}` for
the whole non-empty rest. A doubled brace is a brace with a mark, which stands for itself. A pattern
is compiled once, which finds its faults, and then matched against whole paths.

Names of parameters are kept in one byte, and that moves marks: the mark of the character right
after a parameter is found as many bytes further on as the name has lost. Other marks stay where
they are. So `/{a}{{x` is a pattern, and `/{id}{{x` is refused, since its last brace has lost its
mark to the character after it. -/

namespace Switchboard

/-- Why a pattern is refused. -/
inductive PatternError where
  /-- A brace without its partner, or a name that is no name. -/
  | badName
  | tooManyParameters
  /-- A rest parameter that something follows. -/
  | restNotLast
  /-- Two parameters in one segment. -/
  | crowdedSegment
  deriving Repr, DecidableEq

/-- The wording of a pattern error. -/
def PatternError.message : PatternError → String
  | .badName => "Parameters must be registered with a valid name"
  | .tooManyParameters => "Too many route parameters."
  | .restNotLast => "Catch-all parameters are only allowed at the end of a route"
  | .crowdedSegment => "Only one parameter is allowed per path segment"

/-- A part of a pattern. -/
inductive PatternPart where
  | char (c : Char)
  /-- Any non-empty text up to what follows in the segment. -/
  | parameter
  /-- Everything that is left, if that is not nothing. -/
  | rest
  deriving Repr, DecidableEq

/-- A compiled pattern and the text it was compiled from. -/
structure PathPattern where
  source : String
  parts : List PatternPart
  deriving Repr, DecidableEq

namespace PathPattern

/-- How many parameters a pattern may have. -/
def maxParameters : Nat := 25

/-! ## Compiling -/

/-- A character of a pattern, and whether it is marked; a marked brace stands for itself. -/
abbrev Glyph := Char × Bool

/-- Replaces doubled braces by marked ones. -/
def glyphs : List Char → List Glyph
  | '{' :: '{' :: rest => ('{', true) :: glyphs rest
  | '}' :: '}' :: rest => ('}', true) :: glyphs rest
  | c :: rest => (c, false) :: glyphs rest
  | [] => []

/-- Marks the character that begins so many bytes further on, if one does. -/
def markAt : Nat → List Glyph → List Glyph
  | _, [] => []
  | 0, (c, _) :: rest => (c, true) :: rest
  | distance + 1, (c, marked) :: rest =>
    (c, marked) ::
      if c.utf8Size ≤ distance + 1 then markAt (distance + 1 - c.utf8Size) rest else rest

theorem length_markAt (distance : Nat) (text : List Glyph) :
    (markAt distance text).length = text.length := by
  induction text generalizing distance with
  | nil => simp [markAt]
  | cons glyph rest ih =>
    cases distance with
    | zero => simp [markAt]
    | succ distance =>
      simp only [markAt, List.length_cons]
      split <;> simp [ih]

/-- Moves the mark of the first character, if it has one, by so many bytes. -/
def moveMark (distance : Nat) : List Glyph → List Glyph
  | (c, true) :: rest => markAt distance ((c, false) :: rest)
  | text => text

theorem length_moveMark (distance : Nat) (text : List Glyph) :
    (moveMark distance text).length = text.length := by
  unfold moveMark
  split <;> simp [length_markAt]

/-- Reads a parameter name from its second character on, up to the closing brace; gives how many
bytes it has from there on, and what follows the brace. -/
def closeName? : List Glyph → Option (Nat × List Glyph)
  | [] => none
  | ('}', false) :: rest => some (0, rest)
  | (c, _) :: rest =>
    if c = '*' ∨ c = '/' then none
    else (closeName? rest).map fun (bytes, rest) => (c.utf8Size + bytes, rest)

theorem length_of_closeName? {text rest : List Glyph} {bytes : Nat}
    (h : closeName? text = some (bytes, rest)) : rest.length < text.length := by
  fun_induction closeName? text generalizing bytes with
  | case1 => simp at h
  | case2 rest' => simp_all
  | case3 => simp at h
  | case4 c e rest' _ _ ih =>
    obtain ⟨⟨more, left⟩, found, same⟩ := Option.map_eq_some_iff.1 h
    simp only [Prod.mk.injEq] at same
    obtain ⟨_, rfl⟩ := same
    have := ih found
    simp only [List.length_cons]
    omega

/-- Divides a pattern into parts. The first fault from the left counts. -/
def parse (text : List Glyph) (parameters : Nat) : Except PatternError (List PatternPart) :=
  match text with
  | [] => .ok []
  | ('}', false) :: _ => .error .badName
  | ('{', false) :: ('*', _) :: ('}', false) :: _ => .error .badName
  | ('{', false) :: first :: name =>
    if first.1 = '}' then .error .badName
    else
      match _h : closeName? name with
      | none => .error .badName
      | some (bytes, rest) =>
        if first.1 = '*' then (parse rest parameters).map (.rest :: ·)
        else if maxParameters ≤ parameters then .error .tooManyParameters
        else
          (parse (moveMark (first.1.utf8Size + bytes - 1) rest) (parameters + 1)).map
            (.parameter :: ·)
  | [('{', false)] => .error .badName
  | (c, _) :: rest => (parse rest parameters).map (.char c :: ·)
termination_by text.length
decreasing_by
  · have := length_of_closeName? ‹_›
    simp only [List.length_cons]
    omega
  · have := length_of_closeName? ‹_›
    simp only [length_moveMark, List.length_cons]
    omega
  · simp

/-- Whether a parameter occurs before the segment ends. -/
def crowded : List PatternPart → Bool
  | [] => false
  | .char c :: rest => c != '/' && crowded rest
  | .parameter :: _ => true
  | .rest :: _ => true

/-- The first fault in how the parts follow each other. -/
def arrangementError? : List PatternPart → Option PatternError
  | [] => none
  | .char _ :: rest => arrangementError? rest
  | .rest :: rest => if rest.isEmpty then none else some .restNotLast
  | .parameter :: rest => if crowded rest then some .crowdedSegment else arrangementError? rest

/-- Compiles a pattern. -/
def compile (source : String) : Except PatternError PathPattern :=
  match parse (glyphs source.toList) 0 with
  | .error e => .error e
  | .ok parts =>
    match arrangementError? parts with
    | some e => .error e
    | none => .ok ⟨source, parts⟩

/-! ## Matching -/

/-- The characters that a pattern asks for before its next slash, parameter or end. -/
def segmentTail : List PatternPart → List Char
  | .char c :: rest => if c = '/' then [] else c :: segmentTail rest
  | _ => []

/-- What is left of a pattern after those characters. -/
def afterSegmentTail : List PatternPart → List PatternPart
  | .char c :: rest => if c = '/' then .char c :: rest else afterSegmentTail rest
  | parts => parts

theorem length_afterSegmentTail (parts : List PatternPart) :
    (afterSegmentTail parts).length ≤ parts.length := by
  fun_induction afterSegmentTail parts with
  | case1 => simp
  | case2 c rest _ ih => simp only [List.length_cons]; omega
  | case3 => simp

/-- Whether the parts match the whole of a path. -/
def matchesParts : List PatternPart → List Char → Bool
  | [], path => path.isEmpty
  | .char c :: rest, path =>
    match path with
    | d :: path => c == d && matchesParts rest path
    | [] => false
  | .rest :: _, path => !path.isEmpty
  | .parameter :: rest, path =>
    let segment := path.takeWhile (· != '/')
    (segmentTail rest).length < segment.length && (segmentTail rest).isSuffixOf segment &&
      matchesParts (afterSegmentTail rest) (path.dropWhile (· != '/'))
termination_by parts => parts.length
decreasing_by
  · simp
  · have := length_afterSegmentTail rest
    simp only [List.length_cons]
    omega

/-- Whether a pattern matches the whole of a path. -/
def accepts (pattern : PathPattern) (path : String) : Bool :=
  matchesParts pattern.parts path.toList

end PathPattern

end Switchboard
