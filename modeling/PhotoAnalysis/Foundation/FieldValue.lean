import PhotoAnalysis.Foundation.Percent

/-!
# Field values with parameters

The values of header fields such as `Content-Disposition`: a token, then
parameters that are each a token or a quoted string, or an extended value with a
character set, a language and percent-encoded octets.  What is rendered is read
back, and a semicolon in a quoted string separates nothing.
-/

namespace PhotoAnalysis.Foundation.FieldValue

/-! ## Characters -/

def isControl (c : Nat) : Bool := c < 0x20 || c == 0x7F

def isPrintable (c : Nat) : Bool := 0x20 ≤ c && c ≤ 0x7E

def isAlphanumeric (c : Nat) : Bool :=
  (48 ≤ c && c ≤ 57) || (65 ≤ c && c ≤ 90) || (97 ≤ c && c ≤ 122)

def blanks : Str := [32, 9]

def separators : Str := py "()<>@,;:\\\"/[]?=" ++ [0x7B, 0x7D] ++ blanks

def isTokenChar (c : Nat) : Bool := 0x20 < c && c < 0x7F && !separators.contains c

def isToken (s : Str) : Bool := !s.isEmpty && s.all isTokenChar

/-- What may stand in a quoted string: any octet but controls, and tabs. -/
def isText (c : Nat) : Bool := c < 0x100 && (c == 9 || !isControl c)

def isAttrChar (c : Nat) : Bool :=
  isAlphanumeric c || (py "!#$&+-.^_\x60|~").contains c

def isCharsetChar (c : Nat) : Bool :=
  isAlphanumeric c || (py "!#$%&+-^_\x60\x7b\x7d~").contains c

def isCharset (s : Str) : Bool := !s.isEmpty && s.all isCharsetChar

def isLanguageChar (c : Nat) : Bool := isAlphanumeric c || c == 45

/-- Empty, or subtags of one to eight letters and digits. -/
def isLanguage (s : Str) : Bool :=
  s.isEmpty || (s.all isLanguageChar &&
    (s.splitOn 45).all fun tag => !tag.isEmpty && tag.length ≤ 8)

def isValueChars : Str → Bool
  | c :: a :: b :: rest =>
      if c = 37 then
        (Text.hexValue a).isSome && (Text.hexValue b).isSome && isValueChars rest
      else isAttrChar c && isValueChars (a :: b :: rest)
  | c :: rest => isAttrChar c && isValueChars rest
  | [] => true

/-! ## Values -/

inductive Value where
  /-- a token or what a quoted string stands for -/
  | plain (text : Str)
  | extended (charset language chars : Str)
  deriving DecidableEq, Repr

/-- A name ends in `*` for an extended value only; the star is not part of it here. -/
def admits (name : Str) : Value → Bool
  | .plain text => isToken name && name.getLast? != some 42 && text.all isText
  | .extended charset language chars =>
      isToken name && isCharset charset && isLanguage language && isValueChars chars

structure Parameter where
  name : Str
  value : Value
  ok : admits name value = true
  deriving DecidableEq

/-- The name as it is written. -/
def Parameter.label (p : Parameter) : Str :=
  match p.value with
  | .plain _ => p.name
  | .extended _ _ _ => p.name ++ [42]

end PhotoAnalysis.Foundation.FieldValue

namespace PhotoAnalysis.Foundation

structure FieldValue where
  type : Str
  ok : FieldValue.isToken type = true
  parameters : List FieldValue.Parameter
  deriving DecidableEq

namespace FieldValue

/-! ## Rendering -/

def escape (text : Str) : Str :=
  text.flatMap fun c => if c = 34 ∨ c = 92 then [92, c] else [c]

def Value.render : Value → Str
  | .plain text => 34 :: (escape text ++ [34])
  | .extended charset language chars =>
      charset ++ 39 :: (language ++ 39 :: chars)

def Parameter.render (p : Parameter) : Str := p.label ++ 61 :: p.value.render

def render (v : FieldValue) : Str :=
  v.type ++ v.parameters.flatMap fun p => 59 :: 32 :: p.render

/-! ## Reading -/

inductive Quoting where
  | outside
  | inside
  | escaped
  deriving DecidableEq, Repr

def Quoting.next : Quoting → Nat → Quoting
  | outside, c => if c = 34 then inside else outside
  | inside, c => if c = 34 then outside else if c = 92 then escaped else inside
  | escaped, _ => inside

/-- Put a text before the first of several. -/
def prepend (s : Str) : List Str → List Str
  | [] => [s]
  | p :: ps => (s ++ p) :: ps

/-- Split at the semicolons that stand outside of quoted strings. -/
def pieces : Quoting → Str → List Str
  | _, [] => [[]]
  | q, c :: rest =>
      if q = .outside ∧ c = 59 then [] :: pieces .outside rest
      else prepend [c] (pieces (q.next c) rest)

/-- The text before and after the first `c`. -/
def cut (c : Nat) : Str → Option (Str × Str)
  | [] => none
  | a :: rest =>
      if a = c then some ([], rest)
      else (cut c rest).map fun (before, after) => (a :: before, after)

/-- What follows the opening quote. -/
def readQuoted : Str → Option Str
  | 34 :: rest => if rest.isEmpty then some [] else none
  | 92 :: c :: rest => if c < 0x80 then (readQuoted rest).map (c :: ·) else none
  | c :: rest => if isText c then (readQuoted rest).map (c :: ·) else none
  | [] => none

def readPlain : Str → Option Str
  | 34 :: rest => readQuoted rest
  | s => if isToken s then some s else none

def readExtended (s : Str) : Option Value := do
  let (charset, rest) ← cut 39 s
  let (language, chars) ← cut 39 rest
  some (.extended charset language chars)

def readParameter (piece : Str) : Option Parameter := do
  let (label, raw) ← cut 61 piece
  let label := Text.strip blanks label
  let raw := Text.strip blanks raw
  let (name, value) ←
    if label.getLast? = some 42 then (readExtended raw).map (label.dropLast, ·)
    else (readPlain raw).map fun text => (label, Value.plain text)
  if h : admits name value then some ⟨name, value, h⟩ else none

def read (s : Str) : Option FieldValue :=
  match pieces .outside s with
  | [] => none
  | first :: rest => do
      let parameters ← rest.mapM readParameter
      let type := Text.strip blanks first
      if h : isToken type then some ⟨type, h, parameters⟩ else none

/-! ## Splitting undoes joining -/

theorem pieces_ne_nil (q : Quoting) (s : Str) : pieces q s ≠ [] := by
  cases s with
  | nil => simp [pieces]
  | cons c s =>
      rw [pieces]
      split_ifs
      · simp
      · cases pieces (q.next c) s <;> simp [prepend]

theorem prepend_nil {ps : List Str} (h : ps ≠ []) : prepend [] ps = ps := by
  cases ps with
  | nil => exact absurd rfl h
  | cons p ps => rfl

theorem prepend_append (s t : Str) (ps : List Str) :
    prepend (s ++ t) ps = prepend s (prepend t ps) := by
  cases ps <;> simp [prepend]

/-- Read from `q`, the text has no semicolon outside of quoted strings and ends in `q'`. -/
def Passes : Quoting → Str → Quoting → Prop
  | q, [], q' => q = q'
  | q, c :: s, q' => ¬(q = .outside ∧ c = 59) ∧ Passes (q.next c) s q'

theorem Passes.append {q q' q'' : Quoting} {s t : Str} (hs : Passes q s q')
    (ht : Passes q' t q'') : Passes q (s ++ t) q'' := by
  induction s generalizing q with
  | nil => exact hs ▸ ht
  | cons c s ih => exact ⟨hs.1, ih hs.2⟩

theorem pieces_append {q q' : Quoting} {s : Str} (h : Passes q s q') (rest : Str) :
    pieces q (s ++ rest) = prepend s (pieces q' rest) := by
  induction s generalizing q with
  | nil =>
      obtain rfl : q = q' := h
      exact (prepend_nil (pieces_ne_nil q rest)).symm
  | cons c s ih =>
      rw [List.cons_append, pieces, if_neg h.1, ih h.2]
      exact (prepend_append [c] s _).symm

abbrev Closed (s : Str) : Prop := Passes .outside s .outside

theorem closed_of_free {s : Str} (quote : 34 ∉ s) (semicolon : 59 ∉ s) : Closed s := by
  induction s with
  | nil => rfl
  | cons c s ih =>
      simp only [List.mem_cons, not_or] at quote semicolon
      refine ⟨fun hc => semicolon.1 hc.2.symm, ?_⟩
      rw [Quoting.next, if_neg (Ne.symm quote.1)]
      exact ih quote.2 semicolon.2

theorem passes_escape (text : Str) : Passes .inside (escape text) .inside := by
  induction text with
  | nil => rfl
  | cons c text ih =>
      rw [escape, List.flatMap_cons]
      refine Passes.append ?_ ih
      by_cases special : c = 34 ∨ c = 92
      · rw [if_pos special]
        exact ⟨nofun, nofun, rfl⟩
      · obtain ⟨quote, backslash⟩ := not_or.mp special
        rw [if_neg special]
        refine ⟨nofun, ?_⟩
        rw [Quoting.next, if_neg quote, if_neg backslash]
        exact rfl

theorem closed_quoted (text : Str) : Closed (34 :: (escape text ++ [34])) :=
  ⟨by simp, (passes_escape text).append ⟨nofun, rfl⟩⟩

theorem pieces_join {first : Str} (hfirst : Closed first) {rest : List Str}
    (hrest : ∀ s ∈ rest, Closed s) :
    pieces .outside (first ++ rest.flatMap (59 :: ·)) = first :: rest := by
  induction rest generalizing first with
  | nil =>
      rw [List.flatMap_nil, pieces_append hfirst]
      simp [pieces, prepend]
  | cons s rest ih =>
      have hs := ih (hrest s List.mem_cons_self)
        fun t ht => hrest t (List.mem_cons_of_mem _ ht)
      rw [List.flatMap_cons, pieces_append hfirst, List.cons_append, pieces,
        if_pos ⟨rfl, rfl⟩, hs]
      simp [prepend]

/-! ## Reading undoes rendering -/

theorem cut_append {c : Nat} {before : Str} (h : c ∉ before) (after : Str) :
    cut c (before ++ c :: after) = some (before, after) := by
  induction before with
  | nil => simp [cut]
  | cons a before ih =>
      simp only [List.mem_cons, not_or] at h
      simp [cut, Ne.symm h.1, ih h.2]

theorem readQuoted_escape {text : Str} (h : text.all isText = true) :
    readQuoted (escape text ++ [34]) = some text := by
  induction text with
  | nil => rfl
  | cons c text ih =>
      simp only [List.all_cons, Bool.and_eq_true] at h
      have hrest := ih h.2
      rw [escape] at hrest
      rw [escape, List.flatMap_cons]
      by_cases special : c = 34 ∨ c = 92
      · have low : c < 0x80 := by omega
        simp [if_pos special, readQuoted, low, hrest]
      · obtain ⟨quote, backslash⟩ := not_or.mp special
        simp [readQuoted, quote, backslash, h.1, hrest]

theorem escape_of_free {s : Str} (quote : 34 ∉ s) (backslash : 92 ∉ s) :
    escape s = s := by
  induction s with
  | nil => rfl
  | cons c s ih =>
      simp only [List.mem_cons, not_or] at quote backslash
      have hc : ¬(c = 34 ∨ c = 92) := by omega
      have hs := ih quote.2 backslash.2
      rw [escape] at hs
      rw [escape, List.flatMap_cons, if_neg hc, hs]
      rfl

/-- A character of one class is not a character that the class leaves out. -/
theorem not_mem_of_all {p : Nat → Bool} {s : Str} (h : s.all p = true) {c : Nat}
    (hc : p c = false) : c ∉ s := by
  intro hmem
  have := List.all_eq_true.mp h c hmem
  simp [hc] at this

theorem all_of_isToken {s : Str} (h : isToken s = true) : s.all isTokenChar = true := by
  simp only [isToken, Bool.and_eq_true] at h
  exact h.2

theorem all_of_isCharset {s : Str} (h : isCharset s = true) :
    s.all isCharsetChar = true := by
  simp only [isCharset, Bool.and_eq_true] at h
  exact h.2

theorem all_of_isLanguage {s : Str} (h : isLanguage s = true) :
    s.all isLanguageChar = true := by
  simp only [isLanguage, Bool.or_eq_true, Bool.and_eq_true, List.isEmpty_iff] at h
  rcases h with rfl | h
  · rfl
  · exact h.1

theorem strip_of_ends {chars s : Str} (hhead : ∀ c ∈ s.head?, c ∉ chars)
    (hlast : ∀ c ∈ s.getLast?, c ∉ chars) : Text.strip chars s = s := by
  have hdrop : ∀ t : Str, (∀ c ∈ t.head?, c ∉ chars) →
      t.dropWhile chars.contains = t := by
    intro t ht
    cases t with
    | nil => rfl
    | cons c t => simp [List.dropWhile, ht c rfl]
  unfold Text.strip
  rw [hdrop s hhead, hdrop s.reverse (by simpa using hlast), List.reverse_reverse]

theorem strip_of_free {s : Str} (space : 32 ∉ s) (tab : 9 ∉ s) :
    Text.strip blanks s = s := by
  refine Text.strip_of_not_mem fun c hc hblank => ?_
  simp only [blanks, List.mem_cons, List.not_mem_nil, or_false] at hblank
  rcases hblank with rfl | rfl
  · exact space hc
  · exact tab hc

theorem strip_cons {chars s : Str} {c : Nat} (h : c ∈ chars) :
    Text.strip chars (c :: s) = Text.strip chars s := by
  simp [Text.strip, List.dropWhile, h]

def isValueChar (c : Nat) : Bool := isAttrChar c || c == 37

theorem isAttrChar_of_hex {c : Nat} (h : (Text.hexValue c).isSome = true) :
    isAttrChar c = true := by
  have range : (48 ≤ c ∧ c ≤ 57) ∨ (97 ≤ c ∧ c ≤ 102) ∨ 65 ≤ c ∧ c ≤ 70 := by
    by_contra hno
    simp only [not_or] at hno
    simp [Text.hexValue, hno] at h
  have letter : isAlphanumeric c = true := by
    simp only [isAlphanumeric, Bool.or_eq_true, Bool.and_eq_true, decide_eq_true_eq]
    omega
  simp [isAttrChar, letter]

theorem all_of_isValueChars {s : Str} (h : isValueChars s = true) :
    s.all isValueChar = true := by
  induction s using isValueChars.induct with
  | case1 a b rest ih =>
      simp only [isValueChars, if_true, Bool.and_eq_true] at h
      simp [isValueChar, isAttrChar_of_hex h.1.1, isAttrChar_of_hex h.1.2, ih h.2]
  | case2 c a b rest percent ih =>
      simp only [isValueChars, if_neg percent, Bool.and_eq_true] at h
      rw [List.all_cons, ih h.2]
      simp [isValueChar, h.1]
  | case3 c rest short ih =>
      match rest with
      | [] =>
          simp only [isValueChars, Bool.and_true] at h
          simp [isValueChar, h]
      | [a] =>
          simp only [isValueChars, Bool.and_true, Bool.and_eq_true] at h
          simp [isValueChar, h.1, h.2]
      | a :: b :: rest => exact absurd rfl (short a b rest)
  | case4 => rfl

theorem isValueChars_cons {c : Nat} (h : isAttrChar c = true) (rest : Str) :
    isValueChars (c :: rest) = isValueChars rest := by
  have hne : c ≠ 37 := by
    rintro rfl
    exact absurd h (by decide)
  match rest with
  | [] => simp [isValueChars, h]
  | [_] => simp [isValueChars, h]
  | _ :: _ :: _ => rw [isValueChars, if_neg hne, h, Bool.true_and]

theorem isValueChars_quote {safe : Nat → Bool}
    (attr : ∀ c, safe c = true → isAttrChar c = true) (bytes : Bytes) :
    isValueChars (Percent.quote safe bytes) = true := by
  induction bytes with
  | nil => rfl
  | cons b bytes ih =>
      have hlt := b.toNat_lt
      have hhigh := Percent.hexValue_hexUpper (show b.toNat / 16 < 16 by omega)
      have hlow := Percent.hexValue_hexUpper (Nat.mod_lt b.toNat (show 0 < 16 by decide))
      rw [Percent.quote] at ih
      rw [Percent.quote, List.flatMap_cons, Percent.quoteByte]
      by_cases h : safe b.toNat = true
      · rw [if_pos h, List.singleton_append, isValueChars_cons (attr _ h), ih]
      · rw [if_neg h, List.cons_append, List.cons_append, List.cons_append,
          List.nil_append, isValueChars, if_pos rfl, hhigh, hlow, ih]
        rfl

/-- The characters of an extended value, apart from the two apostrophes. -/
theorem not_mem_extended {charset language chars : Str} (hcharset : isCharset charset = true)
    (hlanguage : isLanguage language = true) (hchars : isValueChars chars = true) {c : Nat}
    (h : (isCharsetChar c || isLanguageChar c || isValueChar c || c == 39) = false) :
    c ∉ (Value.extended charset language chars).render := by
  simp only [Bool.or_eq_false_iff, beq_eq_false_iff_ne] at h
  obtain ⟨⟨⟨h1, h2⟩, h3⟩, h4⟩ := h
  simp [Value.render, not_mem_of_all (all_of_isCharset hcharset) h1,
    not_mem_of_all (all_of_isLanguage hlanguage) h2,
    not_mem_of_all (all_of_isValueChars hchars) h3, h4]

theorem not_mem_label (p : Parameter) {c : Nat} (h : isTokenChar c = false)
    (star : c ≠ 42) : c ∉ p.label := by
  obtain ⟨name, value, ok⟩ := p
  cases value with
  | plain text =>
      simp only [admits, Bool.and_eq_true] at ok
      exact not_mem_of_all (all_of_isToken ok.1.1) h
  | extended charset language chars =>
      simp only [admits, Bool.and_eq_true] at ok
      simp [Parameter.label, not_mem_of_all (all_of_isToken ok.1.1.1) h, star]

theorem strip_value (p : Parameter) :
    Text.strip blanks p.value.render = p.value.render := by
  obtain ⟨name, value, ok⟩ := p
  cases value with
  | plain text =>
      refine strip_of_ends ?_ ?_ <;> simp [Value.render, blanks, List.getLast?_cons]
  | extended charset language chars =>
      simp only [admits, Bool.and_eq_true] at ok
      have free (c : Nat) := not_mem_extended ok.1.1.2 ok.1.2 ok.2 (c := c)
      exact strip_of_free (free 32 (by decide)) (free 9 (by decide))

theorem closed_parameter (p : Parameter) : Closed (32 :: p.render) := by
  have label : Closed (32 :: (p.label ++ [61])) := by
    have quote := not_mem_label p (show isTokenChar 34 = false by decide) (by decide)
    have semicolon := not_mem_label p (show isTokenChar 59 = false by decide) (by decide)
    exact closed_of_free (by simpa using quote) (by simpa using semicolon)
  have value : Closed p.value.render := by
    obtain ⟨name, value, ok⟩ := p
    cases value with
    | plain text => exact closed_quoted text
    | extended charset language chars =>
        simp only [admits, Bool.and_eq_true] at ok
        have free (c : Nat) := not_mem_extended ok.1.1.2 ok.1.2 ok.2 (c := c)
        exact closed_of_free (free 34 (by decide)) (free 59 (by decide))
  have both := label.append value
  simpa [Parameter.render] using both

theorem readExtended_render {charset language chars : Str}
    (hcharset : isCharset charset = true) (hlanguage : isLanguage language = true) :
    readExtended (Value.extended charset language chars).render =
      some (.extended charset language chars) := by
  have first := cut_append
    (not_mem_of_all (all_of_isCharset hcharset) (show isCharsetChar 39 = false by decide))
    (language ++ 39 :: chars)
  have second := cut_append
    (not_mem_of_all (all_of_isLanguage hlanguage) (show isLanguageChar 39 = false by decide))
    chars
  simp [readExtended, Value.render, first, second]

theorem readParameter_render (p : Parameter) :
    readParameter (32 :: p.render) = some p := by
  have free : 61 ∉ 32 :: p.label := by
    simpa using not_mem_label p (show isTokenChar 61 = false by decide) (by decide)
  have hcut : cut 61 (32 :: p.render) = some (32 :: p.label, p.value.render) :=
    cut_append free p.value.render
  have hlabel : Text.strip blanks (32 :: p.label) = p.label := by
    rw [strip_cons (by decide)]
    exact strip_of_free (not_mem_label p (by decide) (by decide))
      (not_mem_label p (by decide) (by decide))
  simp only [readParameter, hcut, Option.bind_eq_bind, Option.bind_some, hlabel,
    strip_value p]
  obtain ⟨name, value, ok⟩ := p
  have checks := ok
  cases value with
  | plain text =>
      simp only [admits, Bool.and_eq_true, bne_iff_ne] at checks
      simp only [Parameter.label, if_neg checks.1.2, Value.render, readPlain,
        readQuoted_escape checks.2, Option.map_some, Option.bind_some, dif_pos ok]
  | extended charset language chars =>
      simp only [admits, Bool.and_eq_true] at checks
      have hread := @readExtended_render charset language chars checks.1.1.2 checks.1.2
      simp [Parameter.label, hread, ok]

theorem mapM_readParameter (parameters : List Parameter) :
    (parameters.map fun p => 32 :: p.render).mapM readParameter = some parameters := by
  induction parameters with
  | nil => rfl
  | cons p parameters ih => simp [List.mapM_cons, readParameter_render, ih]

/-- What is rendered is read back. -/
theorem read_render (v : FieldValue) : read v.render = some v := by
  obtain ⟨type, ok, parameters⟩ := v
  have htype : Closed type :=
    closed_of_free (not_mem_of_all (all_of_isToken ok) (by decide))
      (not_mem_of_all (all_of_isToken ok) (by decide))
  have hpieces : pieces .outside (render ⟨type, ok, parameters⟩) =
      type :: parameters.map fun p => 32 :: p.render := by
    have closed : ∀ s ∈ parameters.map fun p => 32 :: p.render, Closed s := by
      intro s hs
      obtain ⟨p, -, rfl⟩ := List.mem_map.mp hs
      exact closed_parameter p
    rw [← pieces_join htype closed]
    simp [render, List.flatMap_map]
  have hstrip : Text.strip blanks type = type :=
    strip_of_free (not_mem_of_all (all_of_isToken ok) (by decide))
      (not_mem_of_all (all_of_isToken ok) (by decide))
  rw [read, hpieces]
  simp only [mapM_readParameter, Option.bind_eq_bind, Option.bind_some, hstrip,
    dif_pos ok]

end FieldValue

end PhotoAnalysis.Foundation
