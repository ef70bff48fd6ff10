import PhotoAnalysis.Api.Photos

/-!
# The header value of a download

A control character of the file name goes into the quoted string as it is, and
that is all that can make the value illegal.  The exact name is read back from
the extended parameter whatever the quoted string holds.
-/

namespace PhotoAnalysis.Api

open Foundation FieldValue

/-- A value that may be sent, with the type and the parameters it should have. -/
def Legal (value : Str) : Prop :=
  (∀ c ∈ value, isPrintable c = true) ∧ value.count 34 = 2 ∧
    ∃ field : FieldValue, read value = some field ∧ field.type = py "inline" ∧
      field.parameters.map Parameter.label = [py "filename", py "filename*"] ∧
      ∃ name, name ≠ [] ∧ field.parameters.head?.map Parameter.value = some (.plain name)

/-- The value of a part, if the part is the parameter `name`. -/
def parameterNamed (name piece : Str) : Option Str := do
  let (label, raw) ← cut 61 piece
  if Text.strip blanks label = name then some raw else none

/-- The file name in the only parameter `filename*`. -/
def recover (header : Str) : Option Str :=
  match (pieces .outside header).filterMap (parameterNamed (py "filename*")) with
  | [raw] =>
      if (py "UTF-8''").isPrefixOf raw then
        Text.utf8DecodeStrict (Percent.unquote (raw.drop (py "UTF-8''").length))
      else none
  | _ => none

/-! ## The parameters -/

theorem escape_asciiName (filename : Str) :
    escape (asciiName filename) = asciiName filename :=
  escape_of_free (fun h => (asciiName_lt h).2.1 rfl) fun h => (asciiName_lt h).2.2 rfl

def fallbackParameter (filename : Str) (legal : (asciiName filename).all isText = true) :
    Parameter where
  name := py "filename"
  value := .plain (asciiName filename)
  ok := by
    have token : isToken (py "filename") = true := by decide
    have star : (py "filename").getLast? ≠ some 42 := by decide
    simp [admits, token, star, legal]

def exactParameter (bytes : Bytes) : Parameter where
  name := py "filename"
  value := .extended (py "UTF-8") [] (Percent.quote alwaysSafe bytes)
  ok := by
    have token : isToken (py "filename") = true := by decide
    have charset : isCharset (py "UTF-8") = true := by decide
    have chars := isValueChars_quote (fun c => isAttrChar_of_safe) bytes
    simp [admits, token, charset, isLanguage, chars]

def disposition (filename : Str) (bytes : Bytes)
    (legal : (asciiName filename).all isText = true) : FieldValue where
  type := py "inline"
  ok := by decide
  parameters := [fallbackParameter filename legal, exactParameter bytes]

theorem contentDisposition_eq {filename : Str} {bytes : Bytes}
    (hbytes : Text.utf8Encode filename = some bytes) :
    contentDisposition filename =
      .ok (py "inline; filename=\"" ++ asciiName filename ++ py "\"; filename*=UTF-8''" ++
        Percent.quote alwaysSafe bytes) := by
  simp [contentDisposition, quote, hbytes]
  rfl

theorem render_disposition (filename : Str) (bytes : Bytes)
    (legal : (asciiName filename).all isText = true) :
    (disposition filename bytes legal).render =
      py "inline; filename=\"" ++ asciiName filename ++ py "\"; filename*=UTF-8''" ++
        Percent.quote alwaysSafe bytes := by
  simp [FieldValue.render, disposition, Parameter.render, fallbackParameter, exactParameter,
    Parameter.label, Value.render, escape_asciiName, py]

/-! ## The characters -/

theorem mem_exact {bytes : Bytes} {c : Nat} (h : c ∈ Percent.quote alwaysSafe bytes) :
    isPrintable c = true ∧ c ≠ 34 ∧ c ≠ 59 := by
  have letter : isAlphanumeric c = true → isPrintable c = true ∧ c ≠ 34 ∧ c ≠ 59 := by
    simp only [isAlphanumeric, isPrintable, Bool.or_eq_true, Bool.and_eq_true,
      decide_eq_true_eq]
    omega
  rcases Percent.mem_quote h with safe | rfl | hex
  · simp only [alwaysSafe, Bool.or_eq_true, List.contains_iff_mem] at safe
    rcases safe with safe | safe
    · exact letter safe
    · exact (show ∀ c ∈ py "_.-~", isPrintable c = true ∧ c ≠ 34 ∧ c ≠ 59 by decide)
        c safe
  · decide
  · refine letter ?_
    simp only [Percent.isUpperHex, isAlphanumeric, Bool.or_eq_true, Bool.and_eq_true,
      decide_eq_true_eq] at hex ⊢
    omega

theorem printable_of_control {c : Nat} (ascii : c < 0x80) (h : isControl c = false) :
    isPrintable c = true := by
  simp only [isControl, Bool.or_eq_false_iff, decide_eq_false_iff_not,
    beq_eq_false_iff_ne] at h
  simp only [isPrintable, Bool.and_eq_true, decide_eq_true_eq]
  omega

theorem asciiName_printable {filename : Str}
    (clean : ∀ c ∈ filename, isControl c = false) :
    ∀ c ∈ asciiName filename, isPrintable c = true := by
  intro c hc
  rcases mem_asciiName hc with h | h
  · exact (show ∀ c ∈ py "download", isPrintable c = true by decide) c h
  · exact printable_of_control h.2.1 (clean c h.1)

theorem legal_of_clean {filename : Str} {bytes : Bytes}
    (hbytes : Text.utf8Encode filename = some bytes)
    (clean : ∀ c ∈ filename, isControl c = false) :
    ∃ value, contentDisposition filename = .ok value ∧ Legal value := by
  have printable := asciiName_printable clean
  have text : (asciiName filename).all isText = true := by
    refine List.all_eq_true.mpr fun c hc => ?_
    have h := printable c hc
    simp only [isPrintable, Bool.and_eq_true, decide_eq_true_eq] at h
    simp only [isText, isControl, Bool.and_eq_true, Bool.or_eq_true, beq_iff_eq,
      Bool.not_eq_true', Bool.or_eq_false_iff, decide_eq_true_eq, decide_eq_false_iff_not,
      beq_eq_false_iff_ne]
    omega
  refine ⟨_, contentDisposition_eq hbytes, ?_, ?_, disposition filename bytes text, ?_, rfl,
    rfl, asciiName filename, asciiName_ne_nil filename, rfl⟩
  · intro c hc
    simp only [List.mem_append] at hc
    rcases hc with ((hc | hc) | hc) | hc
    · exact (show ∀ c ∈ py "inline; filename=\"", isPrintable c = true by decide) c hc
    · exact printable c hc
    · exact (show ∀ c ∈ py "\"; filename*=UTF-8''", isPrintable c = true by decide) c hc
    · exact (mem_exact hc).1
  · have name : (asciiName filename).count 34 = 0 :=
      List.count_eq_zero.mpr fun h => (asciiName_lt h).2.1 rfl
    have exact : (Percent.quote alwaysSafe bytes).count 34 = 0 :=
      List.count_eq_zero.mpr fun h => (mem_exact h).2.1 rfl
    have first : (py "inline; filename=\"").count 34 = 1 := by decide
    have second : (py "\"; filename*=UTF-8''").count 34 = 1 := by decide
    simp only [List.count_append, name, exact, first, second]
  · rw [← render_disposition filename bytes text]
    exact read_render _

theorem clean_of_legal {filename value : Str} (hvalue : contentDisposition filename = .ok value)
    (printable : ∀ c ∈ value, isPrintable c = true) :
    ∀ c ∈ filename, isControl c = false := by
  intro c hc
  cases hcontrol : isControl c with
  | false => rfl
  | true =>
      have bounds : c < 0x80 ∧ c ≠ 34 ∧ c ≠ 92 ∧ isPrintable c = false := by
        simp only [isControl, Bool.or_eq_true, decide_eq_true_eq, beq_iff_eq] at hcontrol
        simp only [isPrintable, Bool.and_eq_false_iff, decide_eq_false_iff_not]
        omega
      obtain ⟨ascii, quote, backslash, hidden⟩ := bounds
      have kept := asciiName_of_mem hc ascii quote backslash
      simp only [contentDisposition] at hvalue
      cases hencoded : Api.quote filename with
      | error exc => rw [hencoded] at hvalue; cases hvalue
      | ok encoded =>
          rw [hencoded] at hvalue
          cases hvalue
          have := printable c (by simp [kept])
          simp [hidden] at this

/-! ## The parts -/

theorem pieces_contentDisposition (filename : Str) (bytes : Bytes) :
    pieces .outside (py "inline; filename=\"" ++ asciiName filename ++
        py "\"; filename*=UTF-8''" ++ Percent.quote alwaysSafe bytes) =
      [py "inline", py " filename=\"" ++ asciiName filename ++ py "\"",
        py " filename*=UTF-8''" ++ Percent.quote alwaysSafe bytes] := by
  have inline : Closed (py "inline") := closed_of_free (by decide) (by decide)
  have fallback : Closed (py " filename=\"" ++ asciiName filename ++ py "\"") := by
    have label : Closed (py " filename=") := closed_of_free (by decide) (by decide)
    have both := label.append (closed_quoted (asciiName filename))
    rw [escape_asciiName] at both
    simpa [py] using both
  have exact : Closed (py " filename*=UTF-8''" ++ Percent.quote alwaysSafe bytes) := by
    have label : Closed (py " filename*=UTF-8''") := closed_of_free (by decide) (by decide)
    exact label.append
      (closed_of_free (fun h => (mem_exact h).2.1 rfl) fun h => (mem_exact h).2.2 rfl)
  rw [← pieces_join inline (List.forall_mem_cons.mpr ⟨fallback,
    List.forall_mem_singleton.mpr exact⟩)]
  simp [py]

theorem recover_contentDisposition {filename : Str} {bytes : Bytes}
    (hbytes : Text.utf8Encode filename = some bytes)
    (scalars : ∀ c ∈ filename, Text.isScalar c = true) :
    recover (py "inline; filename=\"" ++ asciiName filename ++ py "\"; filename*=UTF-8''" ++
      Percent.quote alwaysSafe bytes) = some filename := by
  have type : parameterNamed (py "filename*") (py "inline") = none := by decide
  have fallback : parameterNamed (py "filename*")
      (py " filename=\"" ++ asciiName filename ++ py "\"") = none := by
    have hcut := cut_append (show 61 ∉ py " filename" by decide)
      (34 :: (asciiName filename ++ py "\""))
    have hname : Text.strip blanks (py " filename") ≠ py "filename*" := by decide
    have heq : py " filename=\"" ++ asciiName filename ++ py "\"" =
        py " filename" ++ 61 :: (34 :: (asciiName filename ++ py "\"")) := by
      simp [py]
    rw [heq, parameterNamed, hcut]
    simp [hname]
  have exact : parameterNamed (py "filename*")
      (py " filename*=UTF-8''" ++ Percent.quote alwaysSafe bytes) =
        some (py "UTF-8''" ++ Percent.quote alwaysSafe bytes) := by
    have hcut := cut_append (show 61 ∉ py " filename*" by decide)
      (py "UTF-8''" ++ Percent.quote alwaysSafe bytes)
    have hname : Text.strip blanks (py " filename*") = py "filename*" := by decide
    have heq : py " filename*=UTF-8''" ++ Percent.quote alwaysSafe bytes =
        py " filename*" ++ 61 :: (py "UTF-8''" ++ Percent.quote alwaysSafe bytes) := by
      simp [py]
    rw [heq, parameterNamed, hcut]
    simp [hname]
  have marked : (py "UTF-8''").isPrefixOf (py "UTF-8''" ++ Percent.quote alwaysSafe bytes) =
      true := by
    simp
  have decoded := Text.utf8DecodeStrict_utf8Encode hbytes scalars
  simp only [recover, pieces_contentDisposition, List.filterMap_cons, type, fallback, exact,
    List.filterMap_nil, marked, if_true, List.drop_left]
  rw [Percent.unquote_quote (by decide), decoded]

/-- Two names with one header are both what is read back from it. -/
theorem contentDisposition_injective {a b header : Str}
    (ha : contentDisposition a = .ok header) (hb : contentDisposition b = .ok header) :
    a = b := by
  have read_back : ∀ {s : Str}, contentDisposition s = .ok header →
      recover header = some s := by
    intro s hs
    cases hbytes : Text.utf8Encode s with
    | none => simp [contentDisposition, quote, hbytes] at hs; cases hs
    | some bytes =>
        rw [contentDisposition_eq hbytes] at hs
        cases hs
        exact recover_contentDisposition hbytes (Text.isScalar_of_utf8Encode hbytes)
  exact Option.some.inj ((read_back ha).symm.trans (read_back hb))

end PhotoAnalysis.Api

namespace PhotoAnalysis

open Foundation Api

theorem disposition_legal_iff (filename : Str)
    (scalars : ∀ c ∈ filename, Text.isScalar c = true) :
    (∃ value, contentDisposition filename = .ok value ∧ Legal value) ↔
      ∀ c ∈ filename, FieldValue.isControl c = false := by
  constructor
  · rintro ⟨value, hvalue, printable, -⟩
    exact clean_of_legal hvalue printable
  · intro clean
    obtain ⟨bytes, hbytes⟩ := Text.utf8Encode_isSome scalars
    exact legal_of_clean hbytes clean

/-- Cyrillic letters, a quote, a backslash and a semicolon. -/
theorem disposition_legal_cyrillic :
    (∀ c ∈ py "ф\"\\;.jpg", Text.isScalar c = true) ∧
      ∃ value, contentDisposition (py "ф\"\\;.jpg") = .ok value ∧ Legal value :=
  ⟨by decide, (disposition_legal_iff (py "ф\"\\;.jpg") (by decide)).mpr (by decide)⟩

/-- A line break goes into the value, and a second header with it. -/
theorem disposition_line_break :
    ∃ value, contentDisposition (py "a\r\nSet-Cookie: b.jpg") = .ok value ∧
      13 ∈ value ∧ 10 ∈ value ∧ ¬Legal value := by
  obtain ⟨bytes, hbytes⟩ := Text.utf8Encode_isSome
    (show ∀ c ∈ py "a\r\nSet-Cookie: b.jpg", Text.isScalar c = true by decide)
  have kept (c : Nat) (hc : c ∈ py "a\r\nSet-Cookie: b.jpg") (ascii : c < 0x80)
      (quote : c ≠ 34) (backslash : c ≠ 92) := asciiName_of_mem hc ascii quote backslash
  have return_kept := kept 13 (by decide) (by decide) (by decide) (by decide)
  have feed_kept := kept 10 (by decide) (by decide) (by decide) (by decide)
  refine ⟨_, contentDisposition_eq hbytes, by simp [return_kept], by simp [feed_kept], ?_⟩
  rintro ⟨printable, -⟩
  exact absurd (printable 13 (by simp [return_kept])) (by decide)

theorem filename_recovered (filename : Str)
    (scalars : ∀ c ∈ filename, Text.isScalar c = true) :
    ∃ header encoded, contentDisposition filename = .ok header ∧
      FieldValue.pieces .outside header =
        [py "inline", py " filename=\"" ++ asciiName filename ++ py "\"",
          py " filename*=UTF-8''" ++ encoded] ∧
      Text.utf8DecodeStrict (Percent.unquote encoded) = some filename ∧
      recover header = some filename ∧
      ∀ other, contentDisposition other = .ok header → other = filename := by
  obtain ⟨bytes, hbytes⟩ := Text.utf8Encode_isSome scalars
  have hheader := contentDisposition_eq hbytes
  have decoded := Text.utf8DecodeStrict_utf8Encode hbytes scalars
  rw [← Percent.unquote_quote (show alwaysSafe 37 = false by decide) bytes] at decoded
  exact ⟨_, _, hheader, pieces_contentDisposition filename bytes, decoded,
    recover_contentDisposition hbytes scalars,
    fun other hother => contentDisposition_injective hother hheader⟩

/-- The fallback has a semicolon and the text `filename*=` in it. -/
theorem filename_recovered_disguised :
    ∃ header, contentDisposition (py "a; filename*=UTF-8''b%41.jpg") = .ok header ∧
      recover header = some (py "a; filename*=UTF-8''b%41.jpg") := by
  obtain ⟨header, -, hheader, -, -, hrecover, -⟩ :=
    filename_recovered (py "a; filename*=UTF-8''b%41.jpg") (by decide)
  exact ⟨header, hheader, hrecover⟩

end PhotoAnalysis
