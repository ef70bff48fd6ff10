import PhotoAnalysis.Foundation.Text

/-!
# Percent-encoding

Octets are written as `%XX`, save those of a set of characters that stand for
themselves.  Together with strict UTF-8 this carries any text of scalar values
through an ASCII alphabet and back.
-/

namespace PhotoAnalysis.Foundation

/-! ## UTF-8 there and back -/

namespace Text

/-- UTF-8 as the standard has it: an encoded surrogate is an error. -/
def utf8DecodeStrict (bytes : List Nat) : Option Str :=
  (utf8Decode bytes).filter fun s => s.all isScalar

theorem utf8Char_isSome {c : Nat} (h : isScalar c = true) :
    ∃ octets, utf8Char c = some octets := by
  unfold utf8Char
  split_ifs <;> simp_all

theorem utf8Encode_isSome {s : Str} (h : ∀ c ∈ s, isScalar c = true) :
    ∃ bytes, utf8Encode s = some bytes := by
  induction s with
  | nil => exact ⟨[], rfl⟩
  | cons c s ih =>
      obtain ⟨octets, hc⟩ := utf8Char_isSome (h c List.mem_cons_self)
      obtain ⟨bytes, hs⟩ := ih fun c hc => h c (List.mem_cons_of_mem _ hc)
      exact ⟨octets.map UInt8.ofNat ++ bytes, by simp [utf8Encode, hc, hs]⟩

theorem isScalar_of_utf8Char {c : Nat} {octets : List Nat}
    (h : utf8Char c = some octets) : isScalar c = true := by
  unfold utf8Char at h
  split_ifs at h with ascii two scalar
  · simp only [isScalar, Bool.and_eq_true, decide_eq_true_eq, Bool.not_eq_true',
      Bool.and_eq_false_iff, decide_eq_false_iff_not]
    omega
  · simp only [isScalar, Bool.and_eq_true, decide_eq_true_eq, Bool.not_eq_true',
      Bool.and_eq_false_iff, decide_eq_false_iff_not]
    omega
  all_goals simpa using scalar

theorem isScalar_of_utf8Encode {s : Str} {bytes : Bytes} (h : utf8Encode s = some bytes) :
    ∀ c ∈ s, isScalar c = true := by
  induction s generalizing bytes with
  | nil => simp
  | cons c s ih =>
      simp only [utf8Encode, Option.bind_eq_bind, Option.bind_eq_some_iff] at h
      obtain ⟨octets, hc, tail, hs, -⟩ := h
      exact List.forall_mem_cons.mpr ⟨isScalar_of_utf8Char hc, ih hs⟩

theorem utf8Char_lt {c : Nat} {octets : List Nat} (h : utf8Char c = some octets) :
    ∀ b ∈ octets, b < 256 := by
  unfold utf8Char isScalar at h
  split_ifs at h <;> cases h <;> simp_all <;> omega

theorem continuation_mod (n : Nat) : isContinuation (0x80 + n % 0x40) = true := by
  simp only [isContinuation, Bool.and_eq_true, decide_eq_true_eq]
  omega

theorem utf8Decode_utf8Char {c : Nat} {octets : List Nat} (rest : List Nat)
    (h : utf8Char c = some octets) :
    utf8Decode (octets ++ rest) = (utf8Decode rest).map (c :: ·) := by
  unfold utf8Char at h
  split_ifs at h with ascii two scalar three
  · cases h
    rw [List.singleton_append, utf8Decode.eq_def]
    simp [ascii]
  · cases h
    have lead : 0xC2 ≤ 0xC0 + c / 0x40 ∧ 0xC0 + c / 0x40 ≤ 0xDF := by omega
    have value : (0xC0 + c / 0x40 - 0xC0) * 0x40 + (0x80 + c % 0x40 - 0x80) = c := by omega
    rw [List.cons_append, List.singleton_append, utf8Decode.eq_def]
    simp only [if_neg (show ¬0xC0 + c / 0x40 < 0x80 by omega), if_pos lead,
      continuation_mod, if_true, value]
  · cases h
    have lead : 0xE0 ≤ 0xE0 + c / 0x1000 ∧ 0xE0 + c / 0x1000 ≤ 0xEF := by omega
    have value : (0xE0 + c / 0x1000 - 0xE0) * 0x1000 +
        (0x80 + c / 0x40 % 0x40 - 0x80) * 0x40 + (0x80 + c % 0x40 - 0x80) = c := by
      omega
    have long : (0xE0 + c / 0x1000 != 0xE0 ||
        decide (0xA0 ≤ 0x80 + c / 0x40 % 0x40)) = true := by
      simp only [Bool.or_eq_true, bne_iff_ne, ne_eq, decide_eq_true_eq]
      omega
    rw [List.cons_append, List.cons_append, List.singleton_append, utf8Decode.eq_def]
    simp only [if_neg (show ¬0xE0 + c / 0x1000 < 0x80 by omega),
      if_neg (show ¬(0xC2 ≤ 0xE0 + c / 0x1000 ∧ 0xE0 + c / 0x1000 ≤ 0xDF) by omega),
      if_pos lead, continuation_mod, long, Bool.and_self, if_true, value]
  · cases h
    have hc : c < 0x110000 := by
      simp only [isScalar, Bool.not_eq_true, Bool.not_eq_false', Bool.and_eq_true,
        decide_eq_true_eq] at scalar
      simpa using scalar.1
    have lead : 0xF0 ≤ 0xF0 + c / 0x40000 ∧ 0xF0 + c / 0x40000 ≤ 0xF4 := by omega
    have value : (0xF0 + c / 0x40000 - 0xF0) * 0x40000 +
        (0x80 + c / 0x1000 % 0x40 - 0x80) * 0x1000 +
        (0x80 + c / 0x40 % 0x40 - 0x80) * 0x40 + (0x80 + c % 0x40 - 0x80) = c := by
      omega
    have long : (0xF0 + c / 0x40000 != 0xF0 ||
        decide (0x90 ≤ 0x80 + c / 0x1000 % 0x40)) = true := by
      simp only [Bool.or_eq_true, bne_iff_ne, ne_eq, decide_eq_true_eq]
      omega
    have short : (0xF0 + c / 0x40000 != 0xF4 ||
        decide (0x80 + c / 0x1000 % 0x40 ≤ 0x8F)) = true := by
      simp only [Bool.or_eq_true, bne_iff_ne, ne_eq, decide_eq_true_eq]
      omega
    rw [List.cons_append, List.cons_append, List.cons_append, List.singleton_append,
      utf8Decode.eq_def]
    simp only [if_neg (show ¬0xF0 + c / 0x40000 < 0x80 by omega),
      if_neg (show ¬(0xC2 ≤ 0xF0 + c / 0x40000 ∧ 0xF0 + c / 0x40000 ≤ 0xDF) by omega),
      if_neg (show ¬(0xE0 ≤ 0xF0 + c / 0x40000 ∧ 0xF0 + c / 0x40000 ≤ 0xEF) by omega),
      if_pos lead, continuation_mod, long, short, Bool.and_self, if_true, value]

theorem utf8Decode_utf8Encode {s : Str} {bytes : Bytes} (h : utf8Encode s = some bytes) :
    utf8Decode (bytes.map UInt8.toNat) = some s := by
  induction s generalizing bytes with
  | nil =>
      cases h
      rfl
  | cons c s ih =>
      simp only [utf8Encode, Option.bind_eq_bind, Option.bind_eq_some_iff,
        Option.some.injEq] at h
      obtain ⟨octets, hc, tail, hs, rfl⟩ := h
      have hoctets : (octets.map UInt8.ofNat).map UInt8.toNat = octets := by
        rw [List.map_map]
        conv_rhs => rw [← List.map_id octets]
        refine List.map_congr_left fun b hb => ?_
        simpa using Nat.mod_eq_of_lt (utf8Char_lt hc b hb)
      rw [List.map_append, hoctets, utf8Decode_utf8Char _ hc, ih hs]
      rfl

theorem utf8DecodeStrict_utf8Encode {s : Str} {bytes : Bytes}
    (h : utf8Encode s = some bytes) (scalars : ∀ c ∈ s, isScalar c = true) :
    utf8DecodeStrict (bytes.map UInt8.toNat) = some s := by
  rw [utf8DecodeStrict, utf8Decode_utf8Encode h, Option.filter_some,
    if_pos (List.all_eq_true.mpr scalars)]

end Text

/-! ## Octets as `%XX` -/

namespace Percent

open Text

/-- `0` to `9`, `A` to `F` -/
def hexUpper (d : Nat) : Nat := if d < 10 then 48 + d else 55 + d

theorem hexValue_hexUpper {d : Nat} (h : d < 16) : hexValue (hexUpper d) = some d := by
  unfold hexUpper hexValue
  by_cases hd : d < 10
  · rw [if_pos hd, if_pos (by omega), Nat.add_sub_cancel_left]
  · rw [if_neg hd, if_neg (by omega), if_neg (by omega), if_pos (by omega),
      Nat.add_sub_cancel_left]

def isUpperHex (c : Nat) : Bool := (48 ≤ c && c ≤ 57) || (65 ≤ c && c ≤ 70)

theorem isUpperHex_hexUpper {d : Nat} (h : d < 16) : isUpperHex (hexUpper d) = true := by
  unfold isUpperHex hexUpper
  by_cases hd : d < 10 <;> simp [hd] <;> omega

def quoteByte (safe : Nat → Bool) (b : UInt8) : Str :=
  if safe b.toNat then [b.toNat]
  else [37, hexUpper (b.toNat / 16), hexUpper (b.toNat % 16)]

def quote (safe : Nat → Bool) (bytes : Bytes) : Str := bytes.flatMap (quoteByte safe)

/-- A `%` that two hexadecimal digits do not follow stands for itself. -/
def unquote : Str → List Nat
  | c :: a :: b :: rest =>
      match c == 37, hexValue a, hexValue b with
      | true, some x, some y => (x * 16 + y) :: unquote rest
      | _, _, _ => c :: unquote (a :: b :: rest)
  | c :: rest => c :: unquote rest
  | [] => []

theorem unquote_cons {c : Nat} (h : c ≠ 37) (rest : Str) :
    unquote (c :: rest) = c :: unquote rest := by
  match rest with
  | [] => rfl
  | [_] => rfl
  | _ :: _ :: _ =>
      rw [unquote]
      simp [h]

section Safe

variable {safe : Nat → Bool} (bare : safe 37 = false)

include bare

theorem unquote_quoteByte (b : UInt8) (rest : Str) :
    unquote (quoteByte safe b ++ rest) = b.toNat :: unquote rest := by
  unfold quoteByte
  by_cases h : safe b.toNat = true
  · have hne : b.toNat ≠ 37 := fun he => by simp [he, bare] at h
    rw [if_pos h, List.singleton_append, unquote_cons hne]
  · have hlt := b.toNat_lt
    have hhigh := hexValue_hexUpper (show b.toNat / 16 < 16 by omega)
    have hlow := hexValue_hexUpper (Nat.mod_lt b.toNat (show 0 < 16 by decide))
    have hsum : b.toNat / 16 * 16 + b.toNat % 16 = b.toNat := by omega
    rw [if_neg h, List.cons_append, List.cons_append, List.cons_append, List.nil_append,
      unquote]
    simp only [hhigh, hlow, beq_self_eq_true, hsum]

theorem unquote_quote (bytes : Bytes) :
    unquote (quote safe bytes) = bytes.map UInt8.toNat := by
  induction bytes with
  | nil => rfl
  | cons b bytes ih =>
      rw [quote, List.flatMap_cons, unquote_quoteByte bare]
      exact congrArg (b.toNat :: ·) ih

end Safe

theorem mem_quote {safe : Nat → Bool} {bytes : Bytes} {c : Nat}
    (h : c ∈ quote safe bytes) : safe c = true ∨ c = 37 ∨ isUpperHex c = true := by
  obtain ⟨b, -, hc⟩ := List.mem_flatMap.mp h
  have hlt := b.toNat_lt
  unfold quoteByte at hc
  split_ifs at hc with hsafe
  · rw [List.mem_singleton.mp hc]
    exact .inl hsafe
  · simp only [List.mem_cons, List.not_mem_nil, or_false] at hc
    rcases hc with rfl | rfl | rfl
    · exact .inr (.inl rfl)
    · exact .inr (.inr (isUpperHex_hexUpper (by omega)))
    · exact .inr (.inr (isUpperHex_hexUpper (Nat.mod_lt _ (by decide))))

end Percent

end PhotoAnalysis.Foundation
