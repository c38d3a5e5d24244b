import Switchboard.Http.Request
import Switchboard.Proofs.Http.Target
set_option autoImplicit false

/-! # Request lines that are written out

A request line that was read is read back from its text, unless writing its target made it longer
than a target may be, and line ends behind it make no difference. -/

namespace Switchboard

/-- A method holds no space. -/
theorem Method.space_not_mem_token (m : Method) : ' ' ∉ m.token.toList := by
  have htoken := m.isToken
  rw [Switchboard.isToken, Bool.and_eq_true] at htoken
  exact fun hmem => absurd (List.all_eq_true.mp htoken.2 _ hmem) (by decide)

/-- A version that is read is read back from the way it is written. -/
theorem Version.ofString?_text {text : String} {version : Version}
    (h : Version.ofString? text = some version) :
    Version.ofString? version.text = some version := by
  unfold Version.ofString? at h
  split at h
  · cases h; decide
  split at h
  · cases h; decide
  split at h
  · cases h; decide
  split at h
  · cases h; decide
  · cases h

namespace RequestLine

section

variable {c : Char} {chars word rest ends : List Char} {line : String} {l : RequestLine}

/-! ## Parts and line ends -/

theorem spaceSeparated_ne_nil : spaceSeparated chars ≠ [] := by
  cases chars with
  | nil => exact List.cons_ne_nil _ _
  | cons c rest =>
    rw [spaceSeparated, List.foldr_cons]
    unfold consPart
    split
    · split
      · exact List.cons_ne_nil _ _
      · exact List.cons_ne_nil _ _
    · exact List.cons_ne_nil _ _

/-- A space begins another part. -/
theorem spaceSeparated_space : spaceSeparated (' ' :: rest) = [] :: spaceSeparated rest := by
  have hne : spaceSeparated rest ≠ [] := spaceSeparated_ne_nil
  rw [spaceSeparated, List.foldr_cons, ← spaceSeparated]
  cases hrest : spaceSeparated rest with
  | nil => exact absurd hrest hne
  | cons part parts => rfl

/-- Any other character belongs to the part that follows it. -/
theorem spaceSeparated_cons (hc : c ≠ ' ') {part : List Char} {parts : List (List Char)}
    (h : spaceSeparated rest = part :: parts) :
    spaceSeparated (c :: rest) = (c :: part) :: parts := by
  rw [spaceSeparated, List.foldr_cons, ← spaceSeparated, h]
  exact if_neg hc

theorem spaceSeparated_word (h : ' ' ∉ word) : spaceSeparated word = [word] := by
  induction word with
  | nil => rfl
  | cons c rest ih =>
    rw [List.mem_cons, not_or] at h
    exact spaceSeparated_cons (Ne.symm h.1) (ih h.2)

theorem spaceSeparated_word_space (h : ' ' ∉ word) :
    spaceSeparated (word ++ ' ' :: rest) = word :: spaceSeparated rest := by
  induction word with
  | nil => exact spaceSeparated_space
  | cons c word ih =>
    rw [List.mem_cons, not_or] at h
    exact spaceSeparated_cons (Ne.symm h.1) (ih h.2)

/-- Line ends behind a line make no difference. -/
theorem trimLineEnds_append (h : ends.all isLineEnd) :
    trimLineEnds (chars ++ ends) = trimLineEnds chars := by
  have hends : ∀ c ∈ ends.reverse, isLineEnd c = true := fun c hc =>
    List.all_eq_true.mp h c (List.mem_reverse.mp hc)
  rw [trimLineEnds, List.reverse_append, List.dropWhile_append_of_pos hends]
  rfl

/-- A line that ends otherwise is left as it is. -/
theorem trimLineEnds_concat (h : isLineEnd c = false) :
    trimLineEnds (chars ++ [c]) = chars ++ [c] := by
  rw [trimLineEnds, List.reverse_append, List.reverse_singleton, List.singleton_append,
    List.dropWhile_cons_of_neg (by rw [h]; exact Bool.false_ne_true), List.reverse_cons,
    List.reverse_reverse]

/-- What ends in a version has no line ends behind it. -/
theorem trimLineEnds_version (version : Version) :
    trimLineEnds (chars ++ version.text.toList) = chars ++ version.text.toList := by
  obtain ⟨before, c, hversion, hc⟩ : ∃ before c,
      version.text.toList = before ++ [c] ∧ isLineEnd c = false := by
    cases version with
    | http09 => exact ⟨"HTTP/0.".toList, '9', by decide, by decide⟩
    | http10 => exact ⟨"HTTP/1.".toList, '0', by decide, by decide⟩
    | http11 => exact ⟨"HTTP/1.".toList, '1', by decide, by decide⟩
    | http2 => exact ⟨"HTTP/2.".toList, '0', by decide, by decide⟩
    | http3 => exact ⟨"HTTP/3.".toList, '0', by decide, by decide⟩
  rw [hversion, ← List.append_assoc, trimLineEnds_concat hc]

/-! ## Reading -/

/-- A line is read as what its three parts are read as. -/
theorem parse_eq_ok_iff : parse line = .ok l ↔
    ∃ method target version, spaceSeparated (trimLineEnds line.toList) = [method, target, version] ∧
      Method.ofString? (String.ofList method) = some l.method ∧
      Uri.parse? (String.ofList target) = some l.uri ∧
      Version.ofString? (String.ofList version) = some l.version := by
  constructor
  · intro h
    unfold parse at h
    dsimp only at h
    split at h
    · next method target version hparts =>
      split at h
      · cases h
      next m hmethod =>
      split at h
      · cases h
      next u huri =>
      split at h
      · cases h
      next v hversion =>
      cases h
      exact ⟨method, target, version, hparts, hmethod, huri, hversion⟩
    · cases h
  · rintro ⟨method, target, version, hparts, hmethod, huri, hversion⟩
    unfold parse
    simp only [hparts, hmethod, huri, hversion]

/-- A target that cannot be read is reported where the method is in order. -/
theorem parse_eq_uri {method target version : List Char} {m : Method}
    (hparts : spaceSeparated (trimLineEnds line.toList) = [method, target, version])
    (hmethod : Method.ofString? (String.ofList method) = some m)
    (huri : Uri.parse? (String.ofList target) = none) : parse line = .error .uri := by
  unfold parse
  simp only [hparts, hmethod, huri]

/-- **Line ends behind a line** make no difference to how it is read. -/
theorem parse_append_ends (h : ends.all isLineEnd) :
    parse (line ++ String.ofList ends) = parse line := by
  unfold parse
  rw [String.toList_append, String.toList_ofList, trimLineEnds_append h]

/-! ## Reading what is written -/

theorem toList_text : l.text.toList =
    l.method.token.toList ++ ' ' :: (l.uri.text.toList ++ ' ' :: l.version.text.toList) := by
  have hspace : " ".toList = [' '] := rfl
  simp only [text, String.toList_append, hspace, List.append_assoc, List.cons_append,
    List.nil_append]

/-- A line that is put together falls into the parts it was made of. -/
theorem spaceSeparated_line {method : Method} {target : List Char} {version : Version}
    (hline : line.toList =
      method.token.toList ++ ' ' :: (target ++ ' ' :: version.text.toList))
    (htarget : ' ' ∉ target) :
    spaceSeparated (trimLineEnds line.toList) =
      [method.token.toList, target, version.text.toList] := by
  have hversion : ' ' ∉ version.text.toList := by
    cases version with
    | http09 => decide
    | http10 => decide
    | http11 => decide
    | http2 => decide
    | http3 => decide
  have hends : line.toList =
      (method.token.toList ++ ' ' :: (target ++ [' '])) ++ version.text.toList := by
    simp only [hline, List.append_assoc, List.cons_append, List.nil_append]
  have htrim : trimLineEnds line.toList = line.toList := by
    rw [hends, trimLineEnds_version]
  rw [htrim, hline, spaceSeparated_word_space method.space_not_mem_token,
    spaceSeparated_word_space htarget, spaceSeparated_word hversion]

/-- A line whose target is too long as it is written is refused for its target. -/
theorem parse_text_of_long (h : l.uri.Written)
    (hlong : Uri.maxBytes < l.uri.text.utf8ByteSize) : parse l.text = .error .uri := by
  have hmethod : Method.ofString? (String.ofList l.method.token.toList) = some l.method := by
    rw [String.ofList_toList]
    exact Method.ofString?_token l.method
  refine parse_eq_uri (spaceSeparated_line toList_text h.space_not_mem) hmethod ?_
  rw [String.ofList_toList, Uri.parse?, if_pos hlong]

/-- Every other line is read back. -/
theorem parse_text_of_short (h : l.uri.Written)
    (hversion : Version.ofString? l.version.text = some l.version)
    (hshort : l.uri.text.utf8ByteSize ≤ Uri.maxBytes) : parse l.text = .ok l := by
  refine parse_eq_ok_iff.mpr
    ⟨_, _, _, spaceSeparated_line toList_text h.space_not_mem, ?_, ?_, ?_⟩
  all_goals rw [String.ofList_toList]
  · exact Method.ofString?_token l.method
  · exact h.parse?_text hshort
  · exact hversion

/-- **A line that was read is read back from its text**, unless its target became longer than a
target may be. That is by one byte, for the path of an absolute target that was read without one,
and that took the whole limit by itself. Line ends behind what was read make no difference. -/
theorem parse_text (h : parse line = .ok l) :
    parse l.text =
        (if l.uri.text.utf8ByteSize ≤ Uri.maxBytes then .ok l else .error .uri) ∧
      (Uri.maxBytes < l.uri.text.utf8ByteSize →
        (l.uri.text.utf8ByteSize = Uri.maxBytes + 1 ∧ l.uri.scheme.isSome ∧ l.uri.path = "/") ∧
          ∃ method target version,
            spaceSeparated (trimLineEnds line.toList) = [method, target, version] ∧
              byteCount target = Uri.maxBytes ∧ Uri.Pathless l.uri target) ∧
      ∀ ends : List Char, ends.all isLineEnd → parse (line ++ String.ofList ends) = .ok l := by
  obtain ⟨method, target, version, hparts, _, huri, hversion⟩ := parse_eq_ok_iff.mp h
  obtain ⟨hwritten, hbytes⟩ := Uri.Written.of_parse? huri
  have htarget := Uri.size_le_of_parse? huri
  refine ⟨?_, ?_, ?_⟩
  · split
    · next hshort => exact parse_text_of_short hwritten (Version.ofString?_text hversion) hshort
    · next hlong => exact parse_text_of_long hwritten (Nat.lt_of_not_le hlong)
  · intro hlong
    rcases hbytes with hshort | ⟨hpathless, hlonger⟩
    · omega
    · rw [String.toList_ofList] at hpathless
      have hwhole : byteCount target = Uri.maxBytes := by
        rw [byteCount]
        omega
      exact ⟨⟨by omega, hpathless.absolute⟩, method, target, version, hparts, hwhole, hpathless⟩
  · intro ends hends
    rw [parse_append_ends hends, h]

end

/-- A target whose text is not what was read: the scheme is in lower case, there is a path, and the
fragment is gone. -/
theorem parse_text_absolute :
    parse "GET HTTPS://Host?q#f HTTP/2\n" =
        .ok ⟨.get, ⟨some "https", some "Host", "/", some "q"⟩, .http2⟩ ∧
      parse (text ⟨.get, ⟨some "https", some "Host", "/", some "q"⟩, .http2⟩) =
        .ok ⟨.get, ⟨some "https", some "Host", "/", some "q"⟩, .http2⟩ ∧
      parse ("GET HTTPS://Host?q#f HTTP/2\n" ++ String.ofList ['\r', '\n']) =
        .ok ⟨.get, ⟨some "https", some "Host", "/", some "q"⟩, .http2⟩ := by
  have hread : parse "GET HTTPS://Host?q#f HTTP/2\n" =
      .ok ⟨.get, ⟨some "https", some "Host", "/", some "q"⟩, .http2⟩ := by rfl
  obtain ⟨htext, _, hends⟩ := parse_text hread
  exact ⟨hread, htext, hends ['\r', '\n'] (by decide)⟩

section

/-- A target without a path, and as many characters of a query as it takes. -/
def bareTarget (count : Nat) : List Char :=
  Uri.schemeChars "http" ++ ("a".toList ++ '?' :: List.replicate count 'q')

/-- What that target is read as. -/
def bareUri (count : Nat) : Uri :=
  ⟨some "http", some "a", "/", some (String.ofList (List.replicate count 'q'))⟩

variable {count : Nat}

theorem byteCount_bareTarget : byteCount (bareTarget count) = count + 9 := by
  have hscheme : byteCount (Uri.schemeChars "http") = 7 := by decide
  have hhost : byteCount "a".toList = 1 := by decide
  have hmark : '?'.utf8Size = 1 := rfl
  have hletter : 'q'.utf8Size = 1 := rfl
  rw [bareTarget, byteCount_append, byteCount_append, byteCount_cons, byteCount_replicate, hscheme,
    hhost, hmark, hletter]
  omega

theorem toList_bareQuery :
    (String.ofList (List.replicate count 'q')).toList = List.replicate count 'q' :=
  String.toList_ofList

theorem all_isQueryChar_bareQuery :
    (String.ofList (List.replicate count 'q')).toList.all Uri.isQueryChar := by
  rw [toList_bareQuery, List.all_eq_true]
  intro c hc
  rw [List.eq_of_mem_replicate hc]
  decide

/-- The path is written, and takes a byte. -/
theorem written_bareUri : (bareUri count).Written ∧
    (bareUri count).text.utf8ByteSize = count + 10 := by
  constructor
  · refine .absolute .http (by decide) (by decide) ⟨by decide, ?_⟩ rfl
    rintro text ⟨⟩
    exact all_isQueryChar_bareQuery
  · have hscheme : byteCount (Uri.schemeChars "http") = 7 := by decide
    have hhost : byteCount "a".toList = 1 := by decide
    have hpath : byteCount "/".toList = 1 := by decide
    have hmark : '?'.utf8Size = 1 := rfl
    have hletter : 'q'.utf8Size = 1 := rfl
    rw [← byteCount_toList, bareUri, Uri.toList_text_absolute, Uri.pathQueryChars,
      toList_bareQuery, byteCount_append, byteCount_append, byteCount_append, byteCount_cons,
      byteCount_replicate, hscheme, hhost, hpath, hmark, hletter]
    omega

theorem parse?_bareTarget (hmax : count + 9 ≤ Uri.maxBytes) :
    Uri.parse? (String.ofList (bareTarget count)) = some (bareUri count) := by
  have hbytes : byteCount (bareTarget count) ≤ Uri.maxBytes := by
    rw [byteCount_bareTarget]
    exact hmax
  have habsolute : Uri.parseAbsolute? "http" ("a".toList ++ '?' :: List.replicate count 'q') =
      some (bareUri count) := by
    rw [← toList_bareQuery]
    exact Uri.parseAbsolute?_without_path (by decide) (by decide) all_isQueryChar_bareQuery
  refine (Uri.parse?_of_found hbytes ?_ ?_ ?_).trans habsolute
  all_goals rw [String.toList_ofList, bareTarget]
  · rw [List.length_append]
    have hlength : (Uri.schemeChars "http").length = 7 := by decide
    omega
  · exact Uri.IsScheme.http.ne_slash
  · exact Uri.IsScheme.http.scanScheme (List.cons_ne_nil _ _)

/-- A request for that target. -/
theorem parse_bareTarget (hmax : count + 9 ≤ Uri.maxBytes) :
    parse ("GET http://a?" ++ String.ofList (List.replicate count 'q') ++ " HTTP/1.1") =
      .ok ⟨.get, bareUri count, .http11⟩ := by
  have hspace : ' ' ∉ bareTarget count := by
    rw [bareTarget, List.mem_append, List.mem_append, List.mem_cons]
    rintro (hmem | hmem | hmem | hmem)
    · exact Uri.IsScheme.http.space_not_mem hmem
    · exact absurd hmem (by decide)
    · exact absurd hmem (by decide)
    · exact absurd (List.eq_of_mem_replicate hmem) (by decide)
  have hline : ("GET http://a?" ++ String.ofList (List.replicate count 'q') ++
      " HTTP/1.1").toList = Method.get.token.toList ++
        ' ' :: (bareTarget count ++ ' ' :: Version.http11.text.toList) := by
    have hbefore : "GET http://a?".toList =
        Method.get.token.toList ++ ' ' :: (Uri.schemeChars "http" ++ ("a".toList ++ ['?'])) := by
      decide
    have hafter : " HTTP/1.1".toList = ' ' :: Version.http11.text.toList := by decide
    rw [String.toList_append, String.toList_append, hbefore, hafter, toList_bareQuery]
    simp only [bareTarget, List.append_assoc, List.cons_append, List.nil_append]
  refine parse_eq_ok_iff.mpr ⟨_, _, _, spaceSeparated_line hline hspace, ?_, ?_, ?_⟩
  · rw [String.ofList_toList]
    exact Method.ofString?_token .get
  · exact parse?_bareTarget hmax
  · rfl

end

/-- **A request line that was read, and whose text is refused**: its target is as long as a target
may be and has no path, so that it is written with a slash too many. -/
theorem parse_text_refused :
    ∃ l, parse ("GET http://a?" ++ String.ofList (List.replicate 65525 'q') ++ " HTTP/1.1") =
        .ok l ∧
      parse l.text = .error .uri := by
  obtain ⟨hwritten, hbytes⟩ := written_bareUri
  refine ⟨_, parse_bareTarget (by decide), parse_text_of_long hwritten ?_⟩
  rw [hbytes]
  decide

end RequestLine

end Switchboard
