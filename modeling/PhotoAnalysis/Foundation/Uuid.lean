import PhotoAnalysis.Foundation.Text

/-!
# Universally unique identifiers

128-bit identifiers, their canonical text of five groups of hexadecimal digits,
and the lenient reader of such texts: it drops `urn:` and `uuid:`, enclosing
braces and all dashes, and reads what is left as a base-16 integer literal.
-/

namespace PhotoAnalysis.Foundation

abbrev UUID := BitVec 128

namespace UUID

open Text

/-- `8-4-4-4-12`, the digits of the canonical text. -/
def groups (digits : Str) : List Str :=
  [digits.take 8, (digits.drop 8).take 4, (digits.drop 12).take 4,
    (digits.drop 16).take 4, digits.drop 20]

def text (u : UUID) : Str :=
  [45].intercalate (groups (hexDigits 32 u.toNat))

/-- Digits with single underscores between them, as an integer literal allows. -/
def dropUnderscores : (afterDigit : Bool) → Str → Option Str
  | _, [] => some []
  | true, 95 :: c :: rest =>
      if c = 95 then none else dropUnderscores true (c :: rest)
  | false, 95 :: _ => none
  | true, [95] => none
  | _, c :: rest => (dropUnderscores true rest).map (c :: ·)

/-- A sign in front of an integer literal: whether it is a minus, and the rest. -/
def splitSign : Str → Bool × Str
  | 45 :: rest => (true, rest)
  | 43 :: rest => (false, rest)
  | s => (false, s)

/-- A `0x` in front of the digits: whether it is there, and the rest. -/
def splitPrefix : Str → Bool × Str
  | 48 :: 120 :: rest => (true, rest)
  | 48 :: 88 :: rest => (true, rest)
  | s => (false, s)

/-- The white space beyond ASCII -/
def spaces : List Nat :=
  [0x85, 0xA0, 0x1680, 0x2000, 0x2001, 0x2002, 0x2003, 0x2004, 0x2005, 0x2006, 0x2007,
    0x2008, 0x2009, 0x200A, 0x2028, 0x2029, 0x202F, 0x205F, 0x3000]

/-- The digits zero beyond ASCII, each followed by the other nine -/
def zeros : List Nat :=
  [0x660, 0x6F0, 0x7C0, 0x966, 0x9E6, 0xA66, 0xAE6, 0xB66, 0xBE6, 0xC66, 0xCE6, 0xD66,
    0xDE6, 0xE50, 0xED0, 0xF20, 0x1040, 0x1090, 0x17E0, 0x1810, 0x1946, 0x19D0, 0x1A80,
    0x1A90, 0x1B50, 0x1BB0, 0x1C40, 0x1C50, 0xA620, 0xA8D0, 0xA900, 0xA9D0, 0xA9F0,
    0xAA50, 0xABF0, 0xFF10, 0x104A0, 0x10D30, 0x11066, 0x110F0, 0x11136, 0x111D0,
    0x112F0, 0x11450, 0x114D0, 0x11650, 0x116C0, 0x11730, 0x118E0, 0x11950, 0x11C50,
    0x11D50, 0x11DA0, 0x11F50, 0x16A60, 0x16AC0, 0x16B50, 0x1D7CE, 0x1D7D8, 0x1D7E2,
    0x1D7EC, 0x1D7F6, 0x1E140, 0x1E2F0, 0x1E4F0, 0x1E950, 0x1FBF0]

/-- White space and decimal digits of every script as ASCII; `?` for anything else. -/
def toAscii (c : Nat) : Nat :=
  if c < 127 then c
  else if spaces.contains c then 32
  else
    match zeros.find? fun first => first ≤ c && c < first + 10 with
    | some first => 48 + (c - first)
    | none => 63

/-- `int(text, 16)` -/
def readInt16 (s : Str) : Option Int :=
  let signed := splitSign (strip [32, 9, 10, 11, 12, 13] (s.map toAscii))
  let prefixed := splitPrefix signed.2
  match dropUnderscores prefixed.1 prefixed.2 with
  | none => none
  | some [] => none
  | some digits =>
      (ofHexDigits 0 digits).map fun n => if signed.1 then -(n : Int) else n

/-- `uuid.UUID(text)`; `none` where it raises `ValueError`. -/
def parse (s : Str) : Option UUID :=
  let hex := removeAll (py "uuid:") 0 (removeAll (py "urn:") 0 s)
  let hex := (strip [123, 125] hex).filter (· != 45)
  if hex.length ≠ 32 then none
  else
    match readInt16 hex with
    | some n => if 0 ≤ n ∧ n < 2 ^ 128 then some (BitVec.ofInt 128 n) else none
    | none => none

/-! ## The reader inverts the writer -/

theorem hexDigit_range {d : Nat} (h : d < 16) :
    48 ≤ hexDigit d ∧ hexDigit d ≤ 57 ∨ 97 ≤ hexDigit d ∧ hexDigit d ≤ 102 := by
  unfold hexDigit
  split <;> omega

theorem range_of_mem_hexDigits {width n c : Nat} (h : c ∈ hexDigits width n) :
    48 ≤ c ∧ c ≤ 57 ∨ 97 ≤ c ∧ c ≤ 102 := by
  obtain ⟨d, hd, rfl⟩ := mem_hexDigits h
  exact hexDigit_range hd

theorem text_eq (u : UUID) :
    u.text = (hexDigits 32 u.toNat).take 8 ++ 45 ::
      (((hexDigits 32 u.toNat).drop 8).take 4 ++ 45 ::
        (((hexDigits 32 u.toNat).drop 12).take 4 ++ 45 ::
          (((hexDigits 32 u.toNat).drop 16).take 4 ++ 45 ::
            (hexDigits 32 u.toNat).drop 20))) := by
  simp [text, groups, List.intercalate, List.intersperse]

/-- The characters of an identifier's text. -/
theorem mem_text {u : UUID} {c : Nat} (h : c ∈ u.text) :
    c = 45 ∨ 48 ≤ c ∧ c ≤ 57 ∨ 97 ≤ c ∧ c ≤ 102 := by
  rw [text_eq] at h
  simp only [List.mem_append, List.mem_cons] at h
  rcases h with h | h | h | h | h | h | h | h | h
  · exact .inr (range_of_mem_hexDigits (List.mem_of_mem_take h))
  · exact .inl h
  · exact .inr (range_of_mem_hexDigits
      (List.mem_of_mem_drop (List.mem_of_mem_take h)))
  · exact .inl h
  · exact .inr (range_of_mem_hexDigits
      (List.mem_of_mem_drop (List.mem_of_mem_take h)))
  · exact .inl h
  · exact .inr (range_of_mem_hexDigits
      (List.mem_of_mem_drop (List.mem_of_mem_take h)))
  · exact .inl h
  · exact .inr (range_of_mem_hexDigits (List.mem_of_mem_drop h))

@[simp] theorem length_text (u : UUID) : u.text.length = 36 := by
  rw [text_eq]
  simp

private theorem filter_dash_of_digits {s : Str}
    (h : ∀ c ∈ s, 48 ≤ c ∧ c ≤ 57 ∨ 97 ≤ c ∧ c ≤ 102) :
    s.filter (· != 45) = s := by
  rw [List.filter_eq_self]
  intro c hc
  have := h c hc
  simp only [bne_iff_ne]
  omega

private theorem take_append_four (s : Str) :
    s.take 8 ++ ((s.drop 8).take 4 ++ ((s.drop 12).take 4 ++
      ((s.drop 16).take 4 ++ s.drop 20))) = s := by
  have h4 : (s.drop 16).take 4 ++ s.drop 20 = s.drop 16 := by
    simpa using List.take_append_drop 4 (s.drop 16)
  have h3 : (s.drop 12).take 4 ++ s.drop 16 = s.drop 12 := by
    simpa using List.take_append_drop 4 (s.drop 12)
  have h2 : (s.drop 8).take 4 ++ s.drop 12 = s.drop 8 := by
    simpa using List.take_append_drop 4 (s.drop 8)
  rw [h4, h3, h2, List.take_append_drop]

private theorem filter_text (u : UUID) :
    u.text.filter (· != 45) = hexDigits 32 u.toNat := by
  have hd := fun c (hc : c ∈ hexDigits 32 u.toNat) => range_of_mem_hexDigits hc
  rw [text_eq]
  simp only [List.filter_append, List.filter_cons, bne_self_eq_false,
    Bool.false_eq_true, if_false]
  rw [filter_dash_of_digits fun c hc => hd c (List.mem_of_mem_take hc),
    filter_dash_of_digits fun c hc =>
      hd c (List.mem_of_mem_drop (List.mem_of_mem_take hc)),
    filter_dash_of_digits fun c hc =>
      hd c (List.mem_of_mem_drop (List.mem_of_mem_take hc)),
    filter_dash_of_digits fun c hc =>
      hd c (List.mem_of_mem_drop (List.mem_of_mem_take hc)),
    filter_dash_of_digits fun c hc => hd c (List.mem_of_mem_drop hc),
    take_append_four]

private theorem dropUnderscores_digits {s : Str} (afterDigit : Bool)
    (h : ∀ c ∈ s, 48 ≤ c ∧ c ≤ 57 ∨ 97 ≤ c ∧ c ≤ 102) :
    dropUnderscores afterDigit s = some s := by
  induction s generalizing afterDigit with
  | nil => cases afterDigit <;> rfl
  | cons c s ih =>
      have hc : c ≠ 95 := by
        have := h c List.mem_cons_self
        omega
      have hs := ih true fun c hc => h c (List.mem_cons_of_mem _ hc)
      cases afterDigit <;> simp [dropUnderscores, hc, hs]

private theorem readInt16_digits {c : Nat} {s : Str}
    (h : ∀ d ∈ c :: s, 48 ≤ d ∧ d ≤ 57 ∨ 97 ≤ d ∧ d ≤ 102) :
    readInt16 (c :: s) = (ofHexDigits 0 (c :: s)).map fun n => (n : Int) := by
  have hstrip : strip [32, 9, 10, 11, 12, 13] (c :: s) = c :: s := by
    refine strip_of_not_mem fun d hd => ?_
    have := h d hd
    simp only [List.mem_cons, List.not_mem_nil, or_false]
    omega
  have hascii : (c :: s).map toAscii = c :: s := by
    refine (List.map_congr_left fun d hd => ?_).trans (List.map_id _)
    have := h d hd
    exact if_pos (by omega)
  have hc := h c List.mem_cons_self
  have hsign : splitSign (c :: s) = (false, c :: s) := by
    unfold splitSign
    split
    · rename_i heq
      simp only [List.cons.injEq] at heq
      omega
    · rename_i heq
      simp only [List.cons.injEq] at heq
      omega
    · rfl
  have hplain : splitPrefix (c :: s) = (false, c :: s) := by
    unfold splitPrefix
    split
    · rename_i heq
      simp only [List.cons.injEq] at heq
      have := h 120 (by simp [heq.2])
      omega
    · rename_i heq
      simp only [List.cons.injEq] at heq
      have := h 88 (by simp [heq.2])
      omega
    · rfl
  simp only [readInt16, hascii, hstrip, hsign, hplain, dropUnderscores_digits false h]
  rfl

theorem parse_text (u : UUID) : parse u.text = some u := by
  have hurn : removeAll (py "urn:") 0 u.text = u.text := by
    refine removeAll_of_not_mem (p := 117) [114, 110, 58] ?_
    intro h
    have := mem_text h
    omega
  have huuid : removeAll (py "uuid:") 0 u.text = u.text := by
    refine removeAll_of_not_mem (p := 117) [117, 105, 100, 58] ?_
    intro h
    have := mem_text h
    omega
  have hstrip : strip [123, 125] u.text = u.text := by
    refine strip_of_not_mem fun c hc => ?_
    have := mem_text hc
    simp only [List.mem_cons, List.not_mem_nil, or_false]
    omega
  have hread : readInt16 (hexDigits 32 u.toNat) = some (u.toNat : Int) := by
    have hdigits : ∀ d ∈ hexDigits 32 u.toNat,
        48 ≤ d ∧ d ≤ 57 ∨ 97 ≤ d ∧ d ≤ 102 :=
      fun d hd => range_of_mem_hexDigits hd
    have hvalue := ofHexDigits_hexDigits 32 0 u.toNat
    have hlt : u.toNat < 16 ^ 32 := by
      have := u.isLt
      norm_num at this ⊢
      exact this
    rw [Nat.mod_eq_of_lt hlt, Nat.zero_mul, Nat.zero_add] at hvalue
    cases hs : hexDigits 32 u.toNat with
    | nil =>
        have := length_hexDigits 32 u.toNat
        simp [hs] at this
    | cons c s =>
        rw [hs] at hdigits hvalue
        rw [readInt16_digits hdigits, hvalue]
        rfl
  have hbound : 0 ≤ (u.toNat : Int) ∧ (u.toNat : Int) < 2 ^ 128 := by
    have := u.isLt
    omega
  simp only [parse, hurn, huuid, hstrip, filter_text, length_hexDigits,
    hread, hbound, ne_eq, not_true_eq_false, if_false, and_self, if_true,
    Option.some.injEq]
  rw [BitVec.ofInt_natCast, BitVec.ofNat_toNat, BitVec.setWidth_eq]

theorem text_injective : Function.Injective text := fun u v h =>
  Option.some.inj ((parse_text u).symm.trans ((congrArg parse h).trans (parse_text v)))

end UUID

end PhotoAnalysis.Foundation
