import Mathlib.Data.List.Basic
import Mathlib.Data.List.Chain
import Mathlib.Data.List.TakeWhile
import Mathlib.Tactic.Ring

/-!
# Text and bytes

A text is a sequence of code points, surrogates included, and a byte string a
sequence of octets.  Codecs are those of the Unicode encodings, with lone
surrogates let through on decoding.
-/

namespace PhotoAnalysis.Foundation

abbrev Str := List Nat

abbrev Bytes := List UInt8

/-- A literal as a text. -/
def py (literal : String) : Str := literal.toList.map Char.toNat

namespace Text

def isHighSurrogate (c : Nat) : Bool := 0xD800 ≤ c && c ≤ 0xDBFF

def isLowSurrogate (c : Nat) : Bool := 0xDC00 ≤ c && c ≤ 0xDFFF

/-- A Unicode scalar value. -/
def isScalar (c : Nat) : Bool :=
  c < 0x110000 && !(0xD800 ≤ c && c ≤ 0xDFFF)

def joinSurrogates (high low : Nat) : Nat :=
  0x10000 + (high - 0xD800) * 0x400 + (low - 0xDC00)

/-! ## Hexadecimal digits -/

def hexDigit (d : Nat) : Nat := if d < 10 then 48 + d else 87 + d

def hexValue (c : Nat) : Option Nat :=
  if 48 ≤ c ∧ c ≤ 57 then some (c - 48)
  else if 97 ≤ c ∧ c ≤ 102 then some (c - 87)
  else if 65 ≤ c ∧ c ≤ 70 then some (c - 55)
  else none

theorem hexValue_hexDigit {d : Nat} (h : d < 16) :
    hexValue (hexDigit d) = some d := by
  unfold hexDigit hexValue
  by_cases hd : d < 10
  · rw [if_pos hd, if_pos (by omega), Nat.add_sub_cancel_left]
  · rw [if_neg hd, if_neg (by omega), if_pos (by omega), Nat.add_sub_cancel_left]

/-- The `width` lowest hexadecimal digits of a number, most significant first. -/
def hexDigits : (width : Nat) → Nat → Str
  | 0, _ => []
  | width + 1, n => hexDigits width (n / 16) ++ [hexDigit (n % 16)]

@[simp] theorem length_hexDigits (width n : Nat) :
    (hexDigits width n).length = width := by
  induction width generalizing n with
  | zero => rfl
  | succ width ih => simp [hexDigits, ih]

theorem mem_hexDigits {width n c : Nat} (h : c ∈ hexDigits width n) :
    ∃ d, d < 16 ∧ c = hexDigit d := by
  induction width generalizing n with
  | zero => simp [hexDigits] at h
  | succ width ih =>
      simp only [hexDigits, List.mem_append, List.mem_singleton] at h
      rcases h with h | h
      · exact ih h
      · exact ⟨n % 16, Nat.mod_lt _ (by decide), h⟩

def ofHexDigits : Nat → Str → Option Nat
  | value, [] => some value
  | value, c :: rest => do ofHexDigits (value * 16 + (← hexValue c)) rest

theorem ofHexDigits_append (value : Nat) (s t : Str) :
    ofHexDigits value (s ++ t) =
      (ofHexDigits value s).bind fun value' => ofHexDigits value' t := by
  induction s generalizing value with
  | nil => rfl
  | cons c s ih =>
      simp only [List.cons_append, ofHexDigits]
      cases hexValue c with
      | none => rfl
      | some d => exact ih _

theorem ofHexDigits_hexDigits (width value n : Nat) :
    ofHexDigits value (hexDigits width n) =
      some (value * 16 ^ width + n % 16 ^ width) := by
  induction width generalizing n with
  | zero => simp [hexDigits, ofHexDigits, Nat.mod_one]
  | succ width ih =>
      have hdigit : hexValue (hexDigit (n % 16)) = some (n % 16) :=
        hexValue_hexDigit (Nat.mod_lt _ (by decide))
      have hsplit : n % 16 ^ (width + 1) = n / 16 % 16 ^ width * 16 + n % 16 := by
        rw [Nat.pow_succ', Nat.mod_mul]
        ring
      simp only [hexDigits, ofHexDigits_append, ih, Option.bind_some,
        ofHexDigits, hdigit, Option.bind_eq_bind, Option.some.injEq]
      rw [hsplit, Nat.pow_succ]
      ring

/-! ## Decimal digits -/

/-- A number in decimal, padded with zeros to `width` digits. -/
def decimalDigits : (width : Nat) → Nat → Str
  | 0, _ => []
  | width + 1, n => decimalDigits width (n / 10) ++ [48 + n % 10]

theorem mem_decimalDigits {width n c : Nat} (h : c ∈ decimalDigits width n) :
    48 ≤ c ∧ c ≤ 57 := by
  induction width generalizing n with
  | zero => simp [decimalDigits] at h
  | succ width ih =>
      simp only [decimalDigits, List.mem_append, List.mem_singleton] at h
      rcases h with h | rfl
      · exact ih h
      · omega

/-! ## Encodings -/

def isContinuation (b : Nat) : Bool := 0x80 ≤ b && b ≤ 0xBF

/-- UTF-8, with encoded surrogates let through. -/
def utf8Decode : List Nat → Option Str
  | [] => some []
  | a :: rest =>
      if a < 0x80 then (utf8Decode rest).map (a :: ·)
      else if 0xC2 ≤ a ∧ a ≤ 0xDF then
        match rest with
        | b :: rest =>
            if isContinuation b then
              (utf8Decode rest).map (((a - 0xC0) * 0x40 + (b - 0x80)) :: ·)
            else none
        | _ => none
      else if 0xE0 ≤ a ∧ a ≤ 0xEF then
        match rest with
        | b :: c :: rest =>
            if isContinuation b && isContinuation c && (a != 0xE0 || 0xA0 ≤ b)
            then
              (utf8Decode rest).map
                (((a - 0xE0) * 0x1000 + (b - 0x80) * 0x40 + (c - 0x80)) :: ·)
            else none
        | _ => none
      else if 0xF0 ≤ a ∧ a ≤ 0xF4 then
        match rest with
        | b :: c :: d :: rest =>
            if isContinuation b && isContinuation c && isContinuation d &&
                (a != 0xF0 || 0x90 ≤ b) && (a != 0xF4 || b ≤ 0x8F) then
              (utf8Decode rest).map
                (((a - 0xF0) * 0x40000 + (b - 0x80) * 0x1000 +
                  (c - 0x80) * 0x40 + (d - 0x80)) :: ·)
            else none
        | _ => none
      else none

def unit16 (big : Bool) (a b : Nat) : Nat :=
  if big then a * 0x100 + b else b * 0x100 + a

/-- The 16-bit units of a byte string; a lone last byte is an error. -/
def units16 (big : Bool) : List Nat → Option (List Nat)
  | [] => some []
  | [_] => none
  | a :: b :: rest => (units16 big rest).map (unit16 big a b :: ·)

/-- Pair up surrogates, leaving lone ones as they are. -/
def pairUnits : List Nat → Str
  | [] => []
  | [u] => [u]
  | u :: v :: rest =>
      if isHighSurrogate u && isLowSurrogate v then
        joinSurrogates u v :: pairUnits rest
      else u :: pairUnits (v :: rest)

def utf16Decode (big : Bool) (bytes : List Nat) : Option Str :=
  (units16 big bytes).map pairUnits

def utf32Decode (big : Bool) : List Nat → Option Str
  | [] => some []
  | a :: b :: c :: d :: rest =>
      let u :=
        if big then unit16 true a b * 0x10000 + unit16 true c d
        else unit16 false c d * 0x10000 + unit16 false a b
      if u < 0x110000 then (utf32Decode big rest).map (u :: ·) else none
  | _ => none

/-- The UTF-8 octets of one code point; a surrogate has none. -/
def utf8Char (c : Nat) : Option (List Nat) :=
  if c < 0x80 then some [c]
  else if c < 0x800 then some [0xC0 + c / 0x40, 0x80 + c % 0x40]
  else if !isScalar c then none
  else if c < 0x10000 then
    some [0xE0 + c / 0x1000, 0x80 + c / 0x40 % 0x40, 0x80 + c % 0x40]
  else
    some [0xF0 + c / 0x40000, 0x80 + c / 0x1000 % 0x40,
      0x80 + c / 0x40 % 0x40, 0x80 + c % 0x40]

def utf8Encode : Str → Option Bytes
  | [] => some []
  | c :: rest => do
      let octets ← utf8Char c
      let bytes ← utf8Encode rest
      some (octets.map UInt8.ofNat ++ bytes)

def isAscii (c : Nat) : Bool := c < 0x80

theorem utf8Encode_ascii {s : Str} (h : ∀ c ∈ s, isAscii c) :
    utf8Encode s = some (s.map UInt8.ofNat) := by
  induction s with
  | nil => rfl
  | cons c s ih =>
      have hc : c < 0x80 := by simpa [isAscii] using h c List.mem_cons_self
      have hs := ih fun c hc => h c (List.mem_cons_of_mem _ hc)
      simp [utf8Encode, utf8Char, hc, hs]

theorem utf8Decode_ascii {s : Str} (h : ∀ c ∈ s, isAscii c) :
    utf8Decode s = some s := by
  induction s with
  | nil => rfl
  | cons c s ih =>
      have hc : c < 0x80 := by simpa [isAscii] using h c List.mem_cons_self
      rw [utf8Decode.eq_def]
      simp [hc, ih fun c hc => h c (List.mem_cons_of_mem _ hc)]

theorem toNat_ofNat_ascii {s : Str} (h : ∀ c ∈ s, isAscii c) :
    (s.map UInt8.ofNat).map UInt8.toNat = s := by
  rw [List.map_map]
  conv_rhs => rw [← List.map_id s]
  refine List.map_congr_left fun c hc => ?_
  have hlt : c < 0x80 := by simpa [isAscii] using h c hc
  simp only [Function.comp_apply, UInt8.toNat_ofNat', id_eq]
  omega

/-! ## Latin-1 -/

def latin1Decode (bytes : Bytes) : Str := bytes.map UInt8.toNat

def latin1Encode (s : Str) : Option Bytes :=
  if ∀ c ∈ s, c < 256 then some (s.map UInt8.ofNat) else none

theorem latin1Decode_lt {bytes : Bytes} {c : Nat} (h : c ∈ latin1Decode bytes) :
    c < 256 := by
  obtain ⟨byte, -, rfl⟩ := List.mem_map.mp h
  exact byte.toNat_lt

theorem latin1Encode_latin1Decode (bytes : Bytes) :
    latin1Encode (latin1Decode bytes) = some bytes := by
  rw [latin1Encode, if_pos fun c hc => latin1Decode_lt hc, latin1Decode, List.map_map]
  simp [Function.comp_def]

theorem latin1Encode_ascii {s : Str} (h : ∀ c ∈ s, isAscii c) :
    latin1Encode s = some (s.map UInt8.ofNat) := by
  refine if_pos fun c hc => ?_
  have hc : c < 0x80 := by simpa [isAscii] using h c hc
  omega

/-! ## Searching and replacing -/

/-- `text.replace(pattern, "")`, for a nonempty pattern. -/
def removeAll (pattern : Str) : (skip : Nat) → Str → Str
  | _, [] => []
  | skip + 1, _ :: rest => removeAll pattern skip rest
  | 0, c :: rest =>
      if pattern.isPrefixOf (c :: rest) then
        removeAll pattern (pattern.length - 1) rest
      else c :: removeAll pattern 0 rest

theorem removeAll_of_not_mem {p : Nat} (pattern : Str) {s : Str} (h : p ∉ s) :
    removeAll (p :: pattern) 0 s = s := by
  induction s with
  | nil => rfl
  | cons c s ih =>
      simp only [List.mem_cons, not_or] at h
      have hpre : (p :: pattern).isPrefixOf (c :: s) = false := by
        simp [List.isPrefixOf, h.1]
      simp [removeAll, hpre, ih h.2]

/-- `pattern in text` -/
def contains (pattern : Str) : Str → Bool
  | [] => pattern.isEmpty
  | c :: rest => pattern.isPrefixOf (c :: rest) || contains pattern rest

/-- No two neighbours are both `c`. -/
def Spread (c : Nat) (s : Str) : Prop := s.IsChain fun a b => ¬(a = c ∧ b = c)

theorem not_contains_pair {c : Nat} {s : Str} (h : Spread c s) :
    contains [c, c] s = false := by
  induction s with
  | nil => rfl
  | cons a s ih =>
      rw [contains, ih h.tail, Bool.or_false]
      cases s with
      | nil => simp [List.isPrefixOf]
      | cons b s =>
          have hne := (List.isChain_cons_cons.mp h).1
          rw [Bool.eq_false_iff]
          intro hpair
          simp only [List.isPrefixOf, Bool.and_true, Bool.and_eq_true, beq_iff_eq] at hpair
          exact hne ⟨hpair.1.symm, hpair.2.symm⟩

theorem spread_of_not_mem {c : Nat} {s : Str} (h : c ∉ s) : Spread c s := by
  induction s with
  | nil => exact .nil
  | cons a s ih =>
      simp only [List.mem_cons, not_or] at h
      exact List.isChain_cons.mpr ⟨fun b _ hboth => h.1 hboth.1.symm, ih h.2⟩

theorem Spread.append {c : Nat} {s t : Str} (hs : Spread c s) (ht : Spread c t)
    (h : s.getLast? ≠ some c ∨ t.head? ≠ some c) : Spread c (s ++ t) := by
  refine List.isChain_append.mpr ⟨hs, ht, ?_⟩
  rintro a ha b hb ⟨rfl, rfl⟩
  exact h.elim (· ha) (· hb)

/-- `text.strip(chars)` -/
def strip (chars : Str) (s : Str) : Str :=
  ((s.dropWhile chars.contains).reverse.dropWhile chars.contains).reverse

theorem strip_of_not_mem {chars s : Str} (h : ∀ c ∈ s, c ∉ chars) :
    strip chars s = s := by
  have hdrop : ∀ t : Str, (∀ c ∈ t, c ∉ chars) → t.dropWhile chars.contains = t := by
    intro t ht
    cases t with
    | nil => rfl
    | cons c t => simp [List.dropWhile, ht c List.mem_cons_self]
  unfold strip
  rw [hdrop s h, hdrop s.reverse (by simpa using h), List.reverse_reverse]

end Text

end PhotoAnalysis.Foundation
