import PhotoAnalysis.Core.Errors
import PhotoAnalysis.Foundation.FieldValue

/-!
# The header of a download

`_content_disposition` gives the file name twice: in ASCII, with what would end
the quoted string taken out, and exactly, as percent-encoded UTF-8.
-/

namespace PhotoAnalysis.Api

open Foundation

/-- The bytes that `urllib.parse.quote` leaves as they are. -/
def alwaysSafe (c : Nat) : Bool :=
  FieldValue.isAlphanumeric c || (py "_.-~").contains c

/-- `quote(string, safe="")` -/
def quote (string : Str) : Except PyExc Str :=
  match Text.utf8Encode string with
  | some bytes => .ok (Percent.quote alwaysSafe bytes)
  | none => .error (.value (py "surrogates not allowed"))

def asciiName (filename : Str) : Str :=
  let name := filename.filter Text.isAscii
  let name := Text.removeAll (py "\"") 0 (Text.removeAll (py "\\") 0 name)
  if name.isEmpty then py "download" else name

def contentDisposition (filename : Str) : Except PyExc Str := do
  let encodedName ← quote filename
  .ok (py "inline; filename=\"" ++ asciiName filename ++
    py "\"; filename*=UTF-8''" ++ encodedName)

/-! ## What stays of the name -/

theorem removeAll_single (p : Nat) (s : Str) :
    Text.removeAll [p] 0 s = s.filter (· != p) := by
  induction s with
  | nil => rfl
  | cons c s ih =>
      by_cases h : c = p
      · simp [Text.removeAll, List.isPrefixOf, h, ih]
      · simp [Text.removeAll, List.isPrefixOf, h, Ne.symm h, ih]

theorem mem_asciiName {filename : Str} {c : Nat} (h : c ∈ asciiName filename) :
    c ∈ py "download" ∨ c ∈ filename ∧ c < 0x80 ∧ c ≠ 34 ∧ c ≠ 92 := by
  have quote : py "\"" = [34] := rfl
  have backslash : py "\\" = [92] := rfl
  simp only [asciiName, quote, backslash, removeAll_single] at h
  split_ifs at h with empty
  · exact .inl h
  · right
    simp only [List.mem_filter, Text.isAscii, decide_eq_true_eq, bne_iff_ne] at h
    exact ⟨h.1.1.1, h.1.1.2, h.2, h.1.2⟩

theorem asciiName_of_mem {filename : Str} {c : Nat} (hmem : c ∈ filename)
    (ascii : c < 0x80) (hquote : c ≠ 34) (hbackslash : c ≠ 92) :
    c ∈ asciiName filename := by
  have quote : py "\"" = [34] := rfl
  have backslash : py "\\" = [92] := rfl
  have kept : c ∈ ((filename.filter Text.isAscii).filter (· != 92)).filter (· != 34) := by
    simp [hmem, Text.isAscii, ascii, hquote, hbackslash]
  simp only [asciiName, quote, backslash, removeAll_single]
  rw [if_neg]
  · exact kept
  · rw [List.isEmpty_iff]
    exact List.ne_nil_of_mem kept

theorem asciiName_ne_nil (filename : Str) : asciiName filename ≠ [] := by
  simp only [asciiName]
  split_ifs with empty
  · decide
  · simpa using empty

theorem asciiName_lt {filename : Str} {c : Nat} (h : c ∈ asciiName filename) :
    c < 0x80 ∧ c ≠ 34 ∧ c ≠ 92 := by
  rcases mem_asciiName h with h | h
  · exact (show ∀ c ∈ py "download", c < 0x80 ∧ c ≠ 34 ∧ c ≠ 92 by decide) c h
  · exact h.2

/-! ## What the exact name is written with -/

theorem isAttrChar_of_safe {c : Nat} (h : alwaysSafe c = true) :
    FieldValue.isAttrChar c = true := by
  simp only [alwaysSafe, Bool.or_eq_true, List.contains_iff_mem] at h
  rcases h with h | h
  · simp [FieldValue.isAttrChar, h]
  · exact (show ∀ c ∈ py "_.-~", FieldValue.isAttrChar c = true by decide) c h

end PhotoAnalysis.Api
