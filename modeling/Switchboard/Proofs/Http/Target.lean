import Switchboard.Http.Uri
set_option autoImplicit false

/-! # Targets that are written out

`Uri.Written` says which targets come from reading. Each of them is read back from its text
(`Uri.Written.parse?_text`), unless the text is longer than a target may be: writing an absolute
target that was read without a path adds one byte (`Uri.Written.of_parse?`). -/

namespace Switchboard

/-! ## Characters and bytes -/

/-- The number of bytes that characters take. -/
def byteCount (chars : List Char) : Nat := (String.ofList chars).utf8ByteSize

section

variable {c : Char} {chars more : List Char}

theorem byteCount_toList {text : String} : byteCount text.toList = text.utf8ByteSize := by
  rw [byteCount, String.ofList_toList]

theorem byteCount_append : byteCount (chars ++ more) = byteCount chars + byteCount more := by
  rw [byteCount, String.ofList_append, String.utf8ByteSize_append]
  rfl

theorem byteCount_cons : byteCount (c :: chars) = c.utf8Size + byteCount chars := by
  have hone : byteCount [c] = c.utf8Size := String.utf8ByteSize_singleton
  rw [← hone, ← byteCount_append, List.singleton_append]

/-- A character takes at least one byte. -/
theorem length_le_byteCount : chars.length ≤ byteCount chars := by
  induction chars with
  | nil => exact Nat.zero_le _
  | cons c rest ih =>
    have hc := c.utf8Size_pos
    rw [byteCount_cons, List.length_cons]
    omega

theorem utf8Size_of_toNat_le (h : c.toNat ≤ 0x7f) : c.utf8Size = 1 := by
  have hval : c.val ≤ 0x7f := UInt32.le_iff_toNat_le.mpr h
  unfold Char.utf8Size
  exact if_pos hval

theorem toNat_lowerChar (h : ('A' ≤ c && c ≤ 'Z') = true) : (lowerChar c).toNat = c.toNat + 32 := by
  have hhigh : c.toNat ≤ 90 := by
    rw [Bool.and_eq_true, decide_eq_true_eq, decide_eq_true_eq] at h
    exact UInt32.le_iff_toNat_le.mp h.2
  have hvalid : (c.toNat + 32).isValidChar := .inl (by omega)
  rw [lowerChar, if_pos h]
  unfold Char.ofNat
  rw [dif_pos hvalid]
  rfl

/-- A character that is not kept as it is was an ASCII letter and is one in lower case. -/
theorem lowerChar_eq_or : lowerChar c = c ∨
    c.toNat ≤ 90 ∧ 97 ≤ (lowerChar c).toNat ∧ (lowerChar c).toNat ≤ 122 := by
  by_cases h : ('A' ≤ c && c ≤ 'Z') = true
  · have hlower := toNat_lowerChar h
    rw [Bool.and_eq_true, decide_eq_true_eq, decide_eq_true_eq] at h
    have hlow : 65 ≤ c.toNat := UInt32.le_iff_toNat_le.mp h.1
    have hhigh : c.toNat ≤ 90 := UInt32.le_iff_toNat_le.mp h.2
    omega
  · rw [lowerChar, if_neg h]
    exact .inl rfl

/-- A letter takes as many bytes in lower case. -/
theorem utf8Size_lowerChar : (lowerChar c).utf8Size = c.utf8Size := by
  obtain h | ⟨hupper, _, hlower⟩ := lowerChar_eq_or (c := c)
  · rw [h]
  · rw [utf8Size_of_toNat_le (by omega), utf8Size_of_toNat_le (by omega)]

theorem byteCount_lower : byteCount (chars.map lowerChar) = byteCount chars := by
  induction chars with
  | nil => rfl
  | cons c rest ih => rw [List.map_cons, byteCount_cons, byteCount_cons, utf8Size_lowerChar, ih]

theorem byteCount_replicate (count : Nat) :
    byteCount (List.replicate count c) = count * c.utf8Size := by
  induction count with
  | zero => exact (Nat.zero_mul _).symm
  | succ count ih => rw [List.replicate_succ, byteCount_cons, ih, Nat.succ_mul, Nat.add_comm]

/-- Where a word ends in a character that does not belong to it, the word is cut off. -/
theorem takeWhile_append_cons {p : Char → Bool} (hchars : chars.all p) (hc : p c = false) :
    (chars ++ c :: more).takeWhile p = chars := by
  rw [List.takeWhile_append_of_pos (List.all_eq_true.mp hchars),
    List.takeWhile_cons_of_neg (by rw [hc]; exact Bool.false_ne_true), List.append_nil]

theorem dropWhile_append_cons {p : Char → Bool} (hchars : chars.all p) (hc : p c = false) :
    (chars ++ c :: more).dropWhile p = c :: more := by
  rw [List.dropWhile_append_of_pos (List.all_eq_true.mp hchars),
    List.dropWhile_cons_of_neg (by rw [hc]; exact Bool.false_ne_true)]

theorem takeWhile_of_all {p : Char → Bool} (hchars : chars.all p) : chars.takeWhile p = chars := by
  have happend : (chars ++ []).takeWhile p = chars ++ [].takeWhile p :=
    List.takeWhile_append_of_pos (List.all_eq_true.mp hchars)
  rwa [List.takeWhile_nil, List.append_nil] at happend

theorem dropWhile_of_all {p : Char → Bool} (hchars : chars.all p) : chars.dropWhile p = [] := by
  have happend : (chars ++ []).dropWhile p = [].dropWhile p :=
    List.dropWhile_append_of_pos (List.all_eq_true.mp hchars)
  rwa [List.dropWhile_nil, List.append_nil] at happend

end

namespace Uri

/-! ## Path and query -/

/-- A path and a query as they are written. -/
def pathQueryChars (path : String) : Option String → List Char
  | some query => path.toList ++ '?' :: query.toList
  | none => path.toList

/-- The characters of a path and a query are in order. -/
structure IsPathQuery (path : String) (query : Option String) : Prop where
  path : path.toList.all isPathChar
  query : ∀ text, query = some text → text.toList.all isQueryChar

section

variable {path : String} {query : Option String} {chars : List Char}

/-- No character of a path begins a query or a fragment. -/
theorem not_endsPath_of_isPathChar {c : Char} (h : isPathChar c) :
    (c != '?' && c != '#') = true := by
  rw [Bool.and_eq_true, bne_iff_ne, bne_iff_ne]
  constructor
  · rintro rfl
    exact absurd h (by decide)
  · rintro rfl
    exact absurd h (by decide)

/-- No character of a query begins a fragment. -/
theorem not_endsQuery_of_isQueryChar {c : Char} (h : isQueryChar c) : (c != '#') = true := by
  rw [bne_iff_ne]
  rintro rfl
  exact absurd h (by decide)

/-- A path and a query are read back. -/
theorem IsPathQuery.parsePathQuery? (h : IsPathQuery path query) :
    Uri.parsePathQuery? (pathQueryChars path query) = some (path, query) := by
  have hends : path.toList.all fun c => c != '?' && c != '#' :=
    List.all_eq_true.mpr fun c hc =>
      not_endsPath_of_isPathChar (List.all_eq_true.mp h.path c hc)
  unfold Uri.parsePathQuery?
  cases query with
  | none =>
    simp only [pathQueryChars, takeWhile_of_all hends, dropWhile_of_all hends, h.path, if_true,
      String.ofList_toList]
  | some text =>
    have hquery := h.query text rfl
    have hfragment : text.toList.all (· != '#') :=
      List.all_eq_true.mpr fun c hc =>
        not_endsQuery_of_isQueryChar (List.all_eq_true.mp hquery c hc)
    have htake : (path.toList ++ '?' :: text.toList).takeWhile (fun c => c != '?' && c != '#') =
        path.toList := takeWhile_append_cons hends rfl
    have hdrop : (path.toList ++ '?' :: text.toList).dropWhile (fun c => c != '?' && c != '#') =
        '?' :: text.toList := dropWhile_append_cons hends rfl
    simp only [pathQueryChars, htake, hdrop, takeWhile_of_all hfragment, h.path, hquery,
      Bool.and_true, if_true, String.ofList_toList]

/-- What is read as a path and a query is in order, the path is all that precedes a query and a
fragment, and but for the fragment nothing is lost. -/
theorem isPathQuery_of_parsePathQuery? (h : parsePathQuery? chars = some (path, query)) :
    IsPathQuery path query ∧
      path.toList = chars.takeWhile (fun c => c != '?' && c != '#') ∧
      ∃ fragment, chars = pathQueryChars path query ++ fragment := by
  have hchars : chars.takeWhile (fun c => c != '?' && c != '#') ++
      chars.dropWhile (fun c => c != '?' && c != '#') = chars := List.takeWhile_append_dropWhile
  unfold Uri.parsePathQuery? at h
  dsimp only at h
  split at h
  · next rest hrest =>
    split at h
    · next hclasses =>
      obtain ⟨rfl, rfl⟩ := h
      rw [Bool.and_eq_true] at hclasses
      refine ⟨⟨?_, ?_⟩, String.toList_ofList, rest.dropWhile (· != '#'), ?_⟩
      · rw [String.toList_ofList]
        exact hclasses.1
      · rintro text ⟨⟩
        rw [String.toList_ofList]
        exact hclasses.2
      · rw [pathQueryChars, String.toList_ofList, String.toList_ofList, List.append_assoc,
          List.cons_append, List.takeWhile_append_dropWhile, ← hrest, hchars]
    · cases h
  · split at h
    · next hclass =>
      obtain ⟨rfl, rfl⟩ := h
      refine ⟨⟨?_, ?_⟩, String.toList_ofList,
        chars.dropWhile fun c => c != '?' && c != '#', ?_⟩
      · rw [String.toList_ofList]
        exact hclass
      · rintro text ⟨⟩
      · rw [pathQueryChars, String.toList_ofList, hchars]
    · cases h

/-- A path and a query hold no space. -/
theorem IsPathQuery.space_not_mem (h : IsPathQuery path query) :
    ' ' ∉ pathQueryChars path query := by
  have hpath : ' ' ∉ path.toList := fun hmem =>
    absurd (List.all_eq_true.mp h.path _ hmem) (by decide)
  cases query with
  | none => exact hpath
  | some text =>
    have hquery : ' ' ∉ text.toList := fun hmem =>
      absurd (List.all_eq_true.mp (h.query text rfl) _ hmem) (by decide)
    rw [pathQueryChars, List.mem_append, List.mem_cons]
    rintro (hmem | hmem | hmem)
    · exact hpath hmem
    · exact absurd hmem (by decide)
    · exact hquery hmem

end

/-! ## Authority -/

/-- The characters that an authority may hold. -/
def isAuthorityChar (c : Char) : Bool :=
  [':', '[', ']', '@', '%'].contains c || isPlainAuthorityChar c

section

variable {c : Char} {chars : List Char} {scan scan' : AuthorityScan}

theorem AuthorityScan.isAuthorityChar_of_next? (h : scan.next? c = some scan') :
    isAuthorityChar c := by
  by_cases hc : isPlainAuthorityChar c
  · rw [isAuthorityChar, hc, Bool.or_true]
  · unfold AuthorityScan.next? at h
    rw [if_neg hc] at h
    by_cases hcolon : c = ':'
    · rw [hcolon]; decide
    by_cases hopen : c = '['
    · rw [hopen]; decide
    by_cases hclose : c = ']'
    · rw [hclose]; decide
    by_cases hat : c = '@'
    · rw [hat]; decide
    by_cases hpercent : c = '%'
    · rw [hpercent]; decide
    rw [if_neg hcolon, if_neg hopen, if_neg hclose, if_neg hat, if_neg hpercent] at h
    cases h

theorem isAuthorityChar_of_foldlM
    (h : chars.foldlM AuthorityScan.next? scan = some scan') : chars.all isAuthorityChar := by
  induction chars generalizing scan with
  | nil => rfl
  | cons c rest ih =>
    rw [List.foldlM_cons] at h
    obtain ⟨next, hnext, hrest⟩ := Option.bind_eq_some_iff.mp h
    rw [List.all_cons, AuthorityScan.isAuthorityChar_of_next? hnext, ih hrest]
    rfl

/-- An authority holds only characters that may stand in one. -/
theorem all_of_isAuthority (h : isAuthority chars) : chars.all isAuthorityChar := by
  unfold isAuthority at h
  split at h
  · next scan hscan => exact isAuthorityChar_of_foldlM hscan
  · exact absurd h Bool.false_ne_true

/-- No character of an authority ends it. -/
theorem not_endsAuthority_of_isAuthorityChar (h : isAuthorityChar c) :
    (!endsAuthority c) = true := by
  rw [Bool.not_eq_true', ← Bool.not_eq_true, endsAuthority, Bool.or_eq_true, Bool.or_eq_true,
    beq_iff_eq, beq_iff_eq, beq_iff_eq]
  rintro ((rfl | rfl) | rfl)
  · exact absurd h (by decide)
  · exact absurd h (by decide)
  · exact absurd h (by decide)

theorem all_not_endsAuthority (h : isAuthority chars) : chars.all (!endsAuthority ·) :=
  List.all_eq_true.mpr fun c hc =>
    not_endsAuthority_of_isAuthorityChar (List.all_eq_true.mp (all_of_isAuthority h) c hc)

/-- An authority holds no space. -/
theorem space_not_mem_of_isAuthority (h : isAuthority chars) : ' ' ∉ chars := fun hmem =>
  absurd (List.all_eq_true.mp (all_of_isAuthority h) _ hmem) (by decide)

end

/-! ## Scheme -/

/-- A scheme as it is written. -/
def schemeChars (scheme : String) : List Char := scheme.toList ++ [':', '/', '/']

/-- The scheme is one of those that are written in lower case, or another one of a length that is
read. -/
inductive IsScheme : String → Prop where
  | http : IsScheme "http"
  | https : IsScheme "https"
  | other {scheme : String} (hchars : scheme.toList.all isSchemeChar)
      (hlength : scheme.toList.length ≤ maxScheme)
      (hhttp : scheme.toList.map lowerChar ≠ "http".toList)
      (hhttps : scheme.toList.map lowerChar ≠ "https".toList) : IsScheme scheme

section

variable {scheme : String} {chars name rest : List Char}

theorem IsScheme.all (h : IsScheme scheme) : scheme.toList.all isSchemeChar := by
  cases h with
  | http => decide
  | https => decide
  | other hchars _ _ _ => exact hchars

/-- What is written of a scheme does not begin with a slash. -/
theorem IsScheme.ne_slash (h : IsScheme scheme) (more : List Char) :
    schemeChars scheme ++ rest ≠ '/' :: more := by
  have hall := h.all
  rw [schemeChars]
  cases hchars : scheme.toList with
  | nil => exact fun heq => absurd (List.cons.inj heq).1 (by decide)
  | cons c chars =>
    rw [hchars, List.all_cons, Bool.and_eq_true] at hall
    intro heq
    rw [(List.cons.inj heq).1] at hall
    exact absurd hall.1 (by decide)

/-- What is written of a scheme holds no space. -/
theorem IsScheme.space_not_mem (h : IsScheme scheme) : ' ' ∉ schemeChars scheme := by
  rw [schemeChars, List.mem_append]
  rintro (hmem | hmem)
  · exact absurd (List.all_eq_true.mp h.all _ hmem) (by decide)
  · exact absurd hmem (by decide)

theorem lowerCase_ofList_eq_iff {text : String} :
    lowerCase (String.ofList chars) = text ↔ chars.map lowerChar = text.toList := by
  rw [lowerCase, String.toList_ofList, ← String.toList_inj, String.toList_ofList]

/-- No character of a scheme becomes a colon in lower case. -/
theorem lowerChar_ne_colon {c : Char} (h : isSchemeChar c) : (lowerChar c != ':') = true := by
  rw [bne_iff_ne]
  intro hcolon
  obtain hc | ⟨_, hlow, _⟩ := lowerChar_eq_or (c := c)
  · rw [hc] at hcolon
    rw [hcolon] at h
    exact absurd h (by decide)
  · rw [hcolon] at hlow
    exact absurd hlow (by decide)

/-- Where a text begins like a standard scheme, letter case apart, this is its scheme. -/
theorem lower_take_eq_iff (word : List Char) (hword : word.all (· != ':'))
    (hname : name.all isSchemeChar) :
    ((name ++ ':' :: '/' :: '/' :: rest).take (word.length + 3)).map lowerChar =
        word ++ [':', '/', '/'] ↔ name.map lowerChar = word := by
  have hlower : (name.map lowerChar).all (· != ':') := by
    rw [List.all_map]
    exact List.all_eq_true.mpr fun c hc => lowerChar_ne_colon (List.all_eq_true.mp hname c hc)
  have hall : (name ++ ':' :: '/' :: '/' :: rest).map lowerChar =
      name.map lowerChar ++ ':' :: '/' :: '/' :: rest.map lowerChar := List.map_append
  rw [List.map_take, hall]
  constructor
  · intro h
    -- the first colon is in the same place on both sides
    have hcut := List.take_append_drop (word.length + 3)
      (name.map lowerChar ++ ':' :: '/' :: '/' :: rest.map lowerChar)
    rw [h, List.append_assoc, List.cons_append] at hcut
    have hcolon : (':' != ':') = false := rfl
    have hfirst := congrArg (List.takeWhile (· != ':')) hcut
    rw [takeWhile_append_cons hword hcolon, takeWhile_append_cons hlower hcolon] at hfirst
    exact hfirst.symm
  · rintro rfl
    have hbegin : name.map lowerChar ++ ':' :: '/' :: '/' :: rest.map lowerChar =
        (name.map lowerChar ++ [':', '/', '/']) ++ rest.map lowerChar := by
      rw [List.append_assoc]
      rfl
    rw [hbegin]
    exact List.take_left' (by rw [List.length_append]; rfl)

/-- A text begins like `http://`, letter case apart, if its scheme is this one. -/
theorem begins_http_iff (hname : name.all isSchemeChar) :
    lowerCase (String.ofList ((name ++ ':' :: '/' :: '/' :: rest).take 7)) = "http://" ↔
      name.map lowerChar = "http".toList := by
  have hbegin : "http://".toList = "http".toList ++ [':', '/', '/'] := by decide
  rw [lowerCase_ofList_eq_iff, hbegin]
  exact lower_take_eq_iff "http".toList (by decide) hname

/-- A text begins like `https://`, letter case apart, if its scheme is this one. -/
theorem begins_https_iff (hname : name.all isSchemeChar) :
    lowerCase (String.ofList ((name ++ ':' :: '/' :: '/' :: rest).take 8)) = "https://" ↔
      name.map lowerChar = "https".toList := by
  have hbegin : "https://".toList = "https".toList ++ [':', '/', '/'] := by decide
  rw [lowerCase_ofList_eq_iff, hbegin]
  exact lower_take_eq_iff "https".toList (by decide) hname

/-- Any other scheme is what precedes the first character that does not belong to one. -/
theorem scanScheme_other (hname : name.all isSchemeChar)
    (hhttp : name.map lowerChar ≠ "http".toList) (hhttps : name.map lowerChar ≠ "https".toList)
    (hlength : 3 < (name ++ ':' :: '/' :: '/' :: rest).length) :
    scanScheme (name ++ ':' :: '/' :: '/' :: rest) =
      if maxScheme < name.length then .tooLong else .found (String.ofList name) rest := by
  have hcolon : isSchemeChar ':' = false := by decide
  unfold scanScheme
  rw [if_neg, if_neg, if_neg (by omega)]
  · dsimp only
    rw [takeWhile_append_cons hname hcolon, dropWhile_append_cons hname hcolon]
    rfl
  · exact fun h => hhttps ((begins_https_iff hname).mp h)
  · exact fun h => hhttp ((begins_http_iff hname).mp h)

/-- A scheme that is written out is found again, if something follows it. -/
theorem IsScheme.scanScheme (h : IsScheme scheme) (hrest : rest ≠ []) :
    Uri.scanScheme (schemeChars scheme ++ rest) = .found scheme rest := by
  have hchars : schemeChars scheme ++ rest = scheme.toList ++ ':' :: '/' :: '/' :: rest := by
    rw [schemeChars, List.append_assoc]
    rfl
  rw [hchars]
  cases h with
  | http =>
    unfold Uri.scanScheme
    rw [if_pos ((begins_http_iff (by decide)).mpr (by decide))]
    rfl
  | https =>
    unfold Uri.scanScheme
    rw [if_neg (mt (begins_http_iff (by decide)).mp (by decide)),
      if_pos ((begins_https_iff (by decide)).mpr (by decide))]
    rfl
  | other hchars hlength hhttp hhttps =>
    have hpos := List.length_pos_iff.mpr hrest
    refine (scanScheme_other hchars hhttp hhttps ?_).trans ?_
    · rw [List.length_append, List.length_cons, List.length_cons, List.length_cons]
      omega
    · rw [if_neg (by omega), String.ofList_toList]

/-- No other character becomes a mark in lower case. -/
theorem eq_of_lowerChar_eq {c mark : Char} (hmark : mark.toNat < 97) (h : lowerChar c = mark) :
    c = mark := by
  obtain hc | ⟨_, hlow, _⟩ := lowerChar_eq_or (c := c)
  · exact hc.symm.trans h
  · rw [h] at hlow
    exact absurd hlow (Nat.not_le.mpr hmark)

/-- What begins like a scheme, letter case apart, begins with its name. -/
theorem exists_name_of_begins {text : String} (word : String) {n : Nat}
    (h : lowerCase (String.ofList (chars.take n)) = text) (htext : text.toList = schemeChars word) :
    ∃ name, name.map lowerChar = word.toList ∧
      chars = name ++ ':' :: '/' :: '/' :: chars.drop n := by
  rw [lowerCase_ofList_eq_iff, htext] at h
  obtain ⟨name, mark, htake, hname, hmark⟩ := List.map_eq_append_iff.mp h
  obtain ⟨colon, slashes, rfl, hcolon, hslashes⟩ := List.map_eq_cons_iff.mp hmark
  obtain ⟨slash, last, rfl, hslash, hlast⟩ := List.map_eq_cons_iff.mp hslashes
  obtain ⟨slash', nothing, rfl, hslash', hnothing⟩ := List.map_eq_cons_iff.mp hlast
  obtain rfl := List.map_eq_nil_iff.mp hnothing
  obtain rfl := eq_of_lowerChar_eq (by decide) hcolon
  obtain rfl := eq_of_lowerChar_eq (by decide) hslash
  obtain rfl := eq_of_lowerChar_eq (by decide) hslash'
  refine ⟨name, hname, ?_⟩
  conv => lhs; rw [← List.take_append_drop n chars, htake, List.append_assoc]
  rfl

/-- What is too short for a scheme has none. -/
theorem scanScheme_of_short (h : chars.length ≤ 3) : scanScheme chars = .absent := by
  have hlength (n : Nat) : ((chars.take n).map lowerChar).length ≤ 3 := by
    rw [List.length_map, List.length_take]
    omega
  unfold scanScheme
  rw [if_neg, if_neg, if_pos h]
  · rw [lowerCase_ofList_eq_iff]
    intro hbegins
    exact absurd (hbegins ▸ hlength 8) (by decide)
  · rw [lowerCase_ofList_eq_iff]
    intro hbegins
    exact absurd (hbegins ▸ hlength 7) (by decide)

/-- A scheme that is found is one that is written out, letter case apart. -/
theorem isScheme_of_scanScheme (h : scanScheme chars = .found scheme rest) :
    IsScheme scheme ∧ ∃ name, name.map lowerChar = scheme.toList.map lowerChar ∧
      chars = name ++ ':' :: '/' :: '/' :: rest := by
  unfold scanScheme at h
  split at h
  · next hbegins =>
    cases h
    exact ⟨.http, exists_name_of_begins "http" hbegins (by decide)⟩
  split at h
  · next hbegins =>
    cases h
    exact ⟨.https, exists_name_of_begins "https" hbegins (by decide)⟩
  split at h
  · cases h
  next hhttp hhttps hlength =>
  dsimp only at h
  split at h
  · next tail htail =>
    split at h
    · cases h
    · next hmax =>
      cases h
      have hname : (chars.takeWhile isSchemeChar).all isSchemeChar := List.all_takeWhile
      have hchars : chars.takeWhile isSchemeChar ++ ':' :: '/' :: '/' :: rest = chars := by
        rw [← htail, List.takeWhile_append_dropWhile]
      generalize chars.takeWhile isSchemeChar = name at hname hchars hmax
      subst hchars
      rw [begins_http_iff hname] at hhttp
      rw [begins_https_iff hname] at hhttps
      constructor
      · refine .other ?_ ?_ ?_ ?_
        all_goals rw [String.toList_ofList]
        · exact hname
        · exact Nat.le_of_not_lt hmax
        · exact hhttp
        · exact hhttps
      · exact ⟨name, by rw [String.toList_ofList], rfl⟩
  · cases h

/-- The name of a scheme takes as many bytes in any letter case. -/
theorem byteCount_of_name (hname : name.map lowerChar = scheme.toList.map lowerChar) :
    byteCount (name ++ ':' :: '/' :: '/' :: rest) =
      byteCount (schemeChars scheme) + byteCount rest := by
  have hsame : byteCount name = byteCount scheme.toList := by
    rw [← byteCount_lower, hname, byteCount_lower]
  have hmark : name ++ ':' :: '/' :: '/' :: rest = name ++ [':', '/', '/'] ++ rest := by
    rw [List.append_assoc]
    rfl
  rw [hmark, schemeChars, byteCount_append, byteCount_append, byteCount_append, hsame]

end

/-! ## Targets -/

/-- The targets that come from reading. -/
inductive Written : Uri → Prop where
  | asterisk : Written ⟨none, none, "*", none⟩
  | path {path : String} {query : Option String} {rest : List Char}
      (hpath : IsPathQuery path query) (hslash : path.toList = '/' :: rest) :
      Written ⟨none, none, path, query⟩
  | authority {authority : String} (hauthority : isAuthority authority.toList)
      (hempty : authority.toList ≠ []) (hasterisk : authority.toList ≠ ['*'])
      (hscheme : scanScheme authority.toList = .absent) :
      Written ⟨none, some authority, "", none⟩
  | absolute {scheme authority path : String} {query : Option String} {rest : List Char}
      (hscheme : IsScheme scheme) (hauthority : isAuthority authority.toList)
      (hempty : authority.toList ≠ []) (hpath : IsPathQuery path query)
      (hslash : path.toList = '/' :: rest) :
      Written ⟨some scheme, some authority, path, query⟩

/-- **An absolute target without a path**, as it is read: a scheme, in whatever letter case, an
authority, and at once the query, if there is one. -/
inductive Pathless : Uri → List Char → Prop where
  | intro {name : List Char} {scheme authority : String} {query : Option String}
      (hname : name.map lowerChar = scheme.toList.map lowerChar) :
      Pathless ⟨some scheme, some authority, "/", query⟩
        (name ++ ':' :: '/' :: '/' :: (authority.toList ++ pathQueryChars "" query))

section

variable {scheme authority path : String} {query : Option String} {chars rest : List Char} {u : Uri}

/-- It is read as one with the path `/`. -/
theorem Pathless.absolute (h : Pathless u chars) : u.scheme.isSome ∧ u.path = "/" := by
  cases h
  exact ⟨rfl, rfl⟩

theorem toList_text_path :
    (⟨none, none, path, query⟩ : Uri).text.toList = pathQueryChars path query := by
  cases query with
  | none => simp only [text, pathQueryChars, Option.getD_none, String.empty_append,
      String.append_empty]
  | some query =>
    simp only [text, pathQueryChars, Option.getD_none, String.empty_append, String.toList_append]
    rfl

theorem toList_text_absolute :
    (⟨some scheme, some authority, path, query⟩ : Uri).text.toList =
      schemeChars scheme ++ (authority.toList ++ pathQueryChars path query) := by
  have hmark : "://".toList = [':', '/', '/'] := rfl
  cases query with
  | none =>
    simp only [text, pathQueryChars, schemeChars, Option.getD_some, String.append_empty,
      String.toList_append, List.append_assoc, hmark]
  | some query =>
    simp only [text, pathQueryChars, schemeChars, Option.getD_some, String.toList_append,
      List.append_assoc, hmark]
    rfl

theorem text_authority : (⟨none, some authority, "", none⟩ : Uri).text = authority := by
  simp only [text, Option.getD_some, String.empty_append, String.append_empty]

theorem pathQueryChars_cons (hslash : path.toList = '/' :: rest) :
    ∃ more, pathQueryChars path query = '/' :: more := by
  cases query with
  | none => exact ⟨rest, hslash⟩
  | some query => exact ⟨rest ++ '?' :: query.toList, by rw [pathQueryChars, hslash]; rfl⟩

theorem pathQueryChars_slash : pathQueryChars "/" query = '/' :: pathQueryChars "" query := by
  cases query with
  | none => rfl
  | some query => rfl

/-- An authority with a path is read back after its scheme. -/
theorem parseAbsolute?_of_authority (hauthority : isAuthority authority.toList)
    (hempty : authority.toList ≠ []) (hpath : IsPathQuery path query)
    (hslash : path.toList = '/' :: rest) :
    parseAbsolute? scheme (authority.toList ++ pathQueryChars path query) =
      some ⟨some scheme, some authority, path, query⟩ := by
  have hends := all_not_endsAuthority hauthority
  have hparse := hpath.parsePathQuery?
  have hne : path ≠ "" := by
    rintro rfl
    cases hslash
  obtain ⟨more, hmore⟩ : ∃ more, pathQueryChars path query = '/' :: more :=
    pathQueryChars_cons hslash
  have hslashEnds : (!endsAuthority '/') = false := rfl
  unfold parseAbsolute?
  rw [hmore] at hparse ⊢
  rw [takeWhile_append_cons hends hslashEnds, dropWhile_append_cons hends hslashEnds]
  simp only [hauthority, List.isEmpty_eq_false_iff.mpr hempty, hparse, hne, Bool.not_true,
    Bool.or_false, Bool.false_eq_true, if_false, String.ofList_toList]

/-- An authority that a query follows at once gets the path `/`. -/
theorem parseAbsolute?_without_path {query : String} (hauthority : isAuthority authority.toList)
    (hempty : authority.toList ≠ []) (hquery : query.toList.all isQueryChar) :
    parseAbsolute? scheme (authority.toList ++ '?' :: query.toList) =
      some ⟨some scheme, some authority, "/", some query⟩ := by
  have hpath : IsPathQuery "" (some query) :=
    ⟨by decide, fun text htext => Option.some_inj.mp htext ▸ hquery⟩
  have hparse : parsePathQuery? ('?' :: query.toList) = some ("", some query) :=
    hpath.parsePathQuery?
  have hmark : (!endsAuthority '?') = false := rfl
  unfold parseAbsolute?
  rw [takeWhile_append_cons (all_not_endsAuthority hauthority) hmark,
    dropWhile_append_cons (all_not_endsAuthority hauthority) hmark]
  simp only [hauthority, List.isEmpty_eq_false_iff.mpr hempty, hparse, Bool.not_true,
    Bool.or_false, Bool.false_eq_true, if_false, if_true, String.ofList_toList]

/-- What follows an authority has a path that begins with a slash, or none at all. -/
theorem path_after_authority
    (h : parsePathQuery? (chars.dropWhile (!endsAuthority ·)) = some (path, query)) :
    path = "" ∨ ∃ rest, path.toList = '/' :: rest := by
  obtain ⟨_, hprefix, _⟩ := isPathQuery_of_parsePathQuery? h
  cases htail : chars.dropWhile (!endsAuthority ·) with
  | nil =>
    rw [htail] at hprefix
    exact .inl (String.toList_eq_nil_iff.mp hprefix)
  | cons c more =>
    have hne : chars.dropWhile (!endsAuthority ·) ≠ [] := by
      rw [htail]
      exact List.cons_ne_nil c more
    have hhead := List.head_dropWhile_not (!endsAuthority ·) hne
    have hends : endsAuthority c := by
      simpa only [htail, List.head_cons, Bool.not_eq_false'] using hhead
    simp only [endsAuthority, Bool.or_eq_true, beq_iff_eq] at hends
    rw [htail] at hprefix
    obtain (rfl | rfl) | rfl := hends
    · exact .inr ⟨_, hprefix⟩
    · exact .inl (String.toList_eq_nil_iff.mp hprefix)
    · exact .inl (String.toList_eq_nil_iff.mp hprefix)

/-- What is read after a scheme is an authority and a path. It takes no more bytes than what was
read, unless there was no path and nothing to leave out, so that the path `/` is all that is new. -/
theorem authority_of_parseAbsolute? (h : parseAbsolute? scheme chars = some u) :
    ∃ authority path query rest, u = ⟨some scheme, some authority, path, query⟩ ∧
      isAuthority authority.toList ∧ authority.toList ≠ [] ∧ IsPathQuery path query ∧
      path.toList = '/' :: rest ∧
      (byteCount (authority.toList ++ pathQueryChars path query) ≤ byteCount chars ∨
        path = "/" ∧ chars = authority.toList ++ pathQueryChars "" query) := by
  have hchars : chars.takeWhile (!endsAuthority ·) ++ chars.dropWhile (!endsAuthority ·) = chars :=
    List.takeWhile_append_dropWhile
  unfold parseAbsolute? at h
  dsimp only at h
  split at h
  · cases h
  next hauthority =>
  rw [Bool.or_eq_true, not_or, Bool.not_eq_true', Bool.not_eq_false, List.isEmpty_iff] at hauthority
  split at h
  · next path query hparse =>
    obtain ⟨hpath, _, fragment, hfragment⟩ := isPathQuery_of_parsePathQuery? hparse
    have hwhole := congrArg byteCount hchars
    rw [hfragment, byteCount_append, byteCount_append] at hwhole
    obtain rfl | ⟨rest, hslash⟩ := path_after_authority hparse
    · rw [if_pos rfl] at h
      cases h
      refine ⟨_, _, _, [], rfl, ?_, ?_, ⟨by decide, hpath.query⟩, rfl, ?_⟩
      all_goals rw [String.toList_ofList]
      · exact hauthority.2
      · exact hauthority.1
      · -- a fragment is left out, and takes at least the byte that the path does
        cases fragment with
        | nil =>
          rw [hfragment, List.append_nil] at hchars
          exact .inr ⟨rfl, hchars.symm⟩
        | cons mark more =>
          have hmark := mark.utf8Size_pos
          have hone : '/'.utf8Size = 1 := rfl
          rw [byteCount_cons] at hwhole
          rw [pathQueryChars_slash, byteCount_append, byteCount_cons]
          exact .inl (by omega)
    · have hne : path ≠ "" := by
        rintro rfl
        cases hslash
      rw [if_neg hne] at h
      cases h
      refine ⟨_, _, _, rest, rfl, ?_, ?_, hpath, hslash, .inl ?_⟩
      all_goals rw [String.toList_ofList]
      · exact hauthority.2
      · exact hauthority.1
      · rw [byteCount_append]
        omega
  · cases h

/-- A target with a scheme is read by its scheme. -/
theorem parse?_of_found {target : String} (hsize : target.utf8ByteSize ≤ maxBytes)
    (hlength : 3 < target.toList.length) (hslash : ∀ more, target.toList ≠ '/' :: more)
    (hscheme : scanScheme target.toList = .found scheme chars) :
    parse? target = parseAbsolute? scheme chars := by
  have hbytes : 3 < target.utf8ByteSize := by
    rw [← byteCount_toList]
    exact Nat.lt_of_lt_of_le hlength length_le_byteCount
  unfold parse?
  rw [if_neg (Nat.not_lt.mpr hsize)]
  split
  · next hchars => rw [hchars] at hlength; exact absurd hlength (by decide)
  · next hchars => rw [hchars] at hlength; exact absurd hlength (by decide)
  · next more hchars => exact absurd hchars (hslash more)
  · rw [if_neg (by omega), hscheme]

/-- A target without a scheme is an authority alone. -/
theorem parse?_of_absent {target : String} (hsize : target.utf8ByteSize ≤ maxBytes)
    (hempty : target.toList ≠ []) (hasterisk : target.toList ≠ ['*'])
    (hslash : ∀ more, target.toList ≠ '/' :: more) (hscheme : scanScheme target.toList = .absent) :
    parse? target = parseAuthority? target.toList := by
  unfold parse?
  rw [if_neg (Nat.not_lt.mpr hsize)]
  split
  · next hchars => exact absurd hchars hempty
  · next hchars => exact absurd hchars hasterisk
  · next more hchars => exact absurd hchars (hslash more)
  · rw [hscheme]
    exact ite_self _

/-- A target that begins with a slash is a path with a query. -/
theorem parse?_of_slash {target : String} (hsize : target.utf8ByteSize ≤ maxBytes)
    (hslash : target.toList = '/' :: rest)
    (hparse : parsePathQuery? target.toList = some (path, query)) :
    parse? target = some ⟨none, none, path, query⟩ := by
  unfold parse?
  rw [if_neg (Nat.not_lt.mpr hsize)]
  split
  · next hchars => exact absurd (hslash.symm.trans hchars) (List.cons_ne_nil _ _)
  · next hchars => exact absurd (List.cons.inj (hslash.symm.trans hchars)).1 (by decide)
  · next more hchars => rw [← hchars, hparse]
  · next hother => exact absurd hslash (hother rest)

/-- Nothing that is longer than a target may be is read. -/
theorem size_le_of_parse? {target : String} (h : parse? target = some u) :
    target.utf8ByteSize ≤ maxBytes := by
  unfold parse? at h
  split at h
  · cases h
  · next hsize => exact Nat.le_of_not_lt hsize

namespace Written

/-- **What is written out is read back**, unless it is too long. -/
theorem parse?_text (h : Written u) (hsize : u.text.utf8ByteSize ≤ maxBytes) :
    parse? u.text = some u := by
  cases h with
  | asterisk => rfl
  | path hpath hslash =>
    obtain ⟨more, hmore⟩ := pathQueryChars_cons hslash
    refine parse?_of_slash hsize (toList_text_path.trans hmore) ?_
    rw [toList_text_path]
    exact hpath.parsePathQuery?
  | @authority authority hauthority hempty hasterisk hscheme =>
    rw [text_authority] at hsize ⊢
    have hslash (more : List Char) : authority.toList ≠ '/' :: more := by
      intro hchars
      have hall := all_of_isAuthority hauthority
      rw [hchars, List.all_cons, Bool.and_eq_true] at hall
      exact absurd hall.1 (by decide)
    rw [parse?_of_absent hsize hempty hasterisk hslash hscheme, parseAuthority?, if_pos hauthority,
      String.ofList_toList]
  | @absolute scheme authority path query rest hscheme hauthority hempty hpath hslash =>
    have hrest := List.append_ne_nil_of_left_ne_nil hempty (pathQueryChars path query)
    have hlength := List.length_pos_iff.mpr hrest
    refine (parse?_of_found hsize ?_ ?_ ?_).trans
      (parseAbsolute?_of_authority hauthority hempty hpath hslash)
    all_goals rw [toList_text_absolute]
    · rw [List.length_append, schemeChars, List.length_append]
      exact Nat.lt_of_lt_of_le (Nat.lt_add_of_pos_right hlength)
        (Nat.add_le_add_right (Nat.le_add_left _ _) _)
    · exact hscheme.ne_slash
    · exact hscheme.scanScheme hrest

/-- What is written out holds no space. -/
theorem space_not_mem (h : Written u) : ' ' ∉ u.text.toList := by
  cases h with
  | asterisk => decide
  | path hpath hslash =>
    rw [toList_text_path]
    exact hpath.space_not_mem
  | authority hauthority hempty hasterisk hscheme =>
    rw [text_authority]
    exact space_not_mem_of_isAuthority hauthority
  | absolute hscheme hauthority hempty hpath hslash =>
    rw [toList_text_absolute, List.mem_append, List.mem_append]
    rintro (hmem | hmem | hmem)
    · exact hscheme.space_not_mem hmem
    · exact space_not_mem_of_isAuthority hauthority hmem
    · exact hpath.space_not_mem hmem

/-- **What is read can be written out.** It takes at most the bytes of what was read, and one more
where that is an absolute target without a path. -/
theorem of_parse? {target : String} (h : parse? target = some u) : Written u ∧
    (u.text.utf8ByteSize ≤ target.utf8ByteSize ∨
      Pathless u target.toList ∧ u.text.utf8ByteSize = target.utf8ByteSize + 1) := by
  have hbytes : byteCount target.toList = target.utf8ByteSize := byteCount_toList
  unfold parse? at h
  split at h
  · cases h
  next hsize =>
  split at h
  · cases h
  · next hchars =>
    cases h
    refine ⟨.asterisk, .inl ?_⟩
    rw [← hbytes, hchars]
    exact Nat.le_refl _
  · next rest hchars =>
    split at h
    · next path query hparse =>
      cases h
      obtain ⟨hpath, hprefix, fragment, hfragment⟩ := isPathQuery_of_parsePathQuery? hparse
      refine ⟨.path hpath hprefix, .inl ?_⟩
      rw [← byteCount_toList, toList_text_path, ← hbytes, hchars, hfragment, byteCount_append]
      exact Nat.le_add_right _ _
    · cases h
  · next hempty hasterisk hslash =>
    have hauthority (hscan : scanScheme target.toList = .absent)
        (h : parseAuthority? target.toList = some u) : Written u ∧ u.text = target := by
      unfold parseAuthority? at h
      split at h
      · next hauthority =>
        rw [String.ofList_toList] at h
        cases h
        exact ⟨.authority hauthority hempty hasterisk hscan, text_authority⟩
      · cases h
    split at h
    · next hone =>
      have hlength : target.toList.length ≤ byteCount target.toList := length_le_byteCount
      rw [hbytes, hone] at hlength
      obtain ⟨hwritten, htext⟩ := hauthority (scanScheme_of_short (by omega)) h
      rw [htext]
      exact ⟨hwritten, .inl (Nat.le_refl _)⟩
    split at h
    · next hscan =>
      obtain ⟨hwritten, htext⟩ := hauthority hscan h
      rw [htext]
      exact ⟨hwritten, .inl (Nat.le_refl _)⟩
    · next scheme rest hscan =>
      obtain ⟨authority, path, query, more, rfl, hauthority, hempty, hpath, hslash, hrest⟩ :=
        authority_of_parseAbsolute? h
      obtain ⟨hscheme, name, hname, htarget⟩ := isScheme_of_scanScheme hscan
      refine ⟨.absolute hscheme hauthority hempty hpath hslash, ?_⟩
      rw [← byteCount_toList, toList_text_absolute, ← hbytes, htarget, byteCount_append,
        byteCount_of_name hname]
      rcases hrest with hshort | ⟨rfl, rfl⟩
      · exact .inl (Nat.add_le_add_left hshort _)
      · refine .inr ⟨.intro hname, ?_⟩
        have hone : '/'.utf8Size = 1 := rfl
        rw [pathQueryChars_slash, byteCount_append, byteCount_append, byteCount_cons, hone]
        omega
    · cases h

end Written

end

end Uri

end Switchboard
