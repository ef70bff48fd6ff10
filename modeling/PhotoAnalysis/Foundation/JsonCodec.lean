import PhotoAnalysis.Foundation.Json

/-!
# Reading back what was written

`loads` inverts `dumps`: every flat object of texts without surrogates is
written in printable ASCII and decoded to the same entries, in the same order.
-/

namespace PhotoAnalysis.Foundation.Json

open Text

/-- Every character of a text is a Unicode scalar value. -/
def Scalar (s : Str) : Prop := ∀ c ∈ s, isScalar c = true

/-! ## The written text is printable ASCII -/

private theorem escapeUnit_printable {u d : Nat} (h : d ∈ escapeUnit u) :
    32 ≤ d ∧ d ≤ 126 := by
  simp only [escapeUnit, List.mem_cons] at h
  rcases h with rfl | rfl | h
  · decide
  · decide
  · obtain ⟨x, hx, rfl⟩ := mem_hexDigits h
    unfold hexDigit
    split <;> omega

theorem escapeChar_printable {c d : Nat} (h : d ∈ escapeChar c) :
    32 ≤ d ∧ d ≤ 126 := by
  unfold escapeChar at h
  split_ifs at h
  case neg =>
    rcases List.mem_append.mp h with h | h
    · exact escapeUnit_printable h
    · exact escapeUnit_printable h
  all_goals first
    | exact escapeUnit_printable h
    | (simp only [List.mem_cons, List.not_mem_nil, or_false] at h
       omega)

theorem dumpsStr_printable {s : Str} {d : Nat} (h : d ∈ dumpsStr s) :
    32 ≤ d ∧ d ≤ 126 := by
  simp only [dumpsStr, List.cons_append, List.mem_cons, List.mem_append,
    List.mem_flatMap, List.not_mem_nil, or_false] at h
  rcases h with rfl | ⟨c, -, h⟩ | rfl
  · decide
  · exact escapeChar_printable h
  · decide

theorem dumpsEntry_printable {entry : Str × Str} {d : Nat}
    (h : d ∈ dumpsEntry entry) : 32 ≤ d ∧ d ≤ 126 := by
  simp only [dumpsEntry, List.mem_append, List.mem_cons] at h
  rcases h with h | rfl | rfl | h
  · exact dumpsStr_printable h
  · decide
  · decide
  · exact dumpsStr_printable h

/-- The entries of an object after its opening brace. -/
def dumpsTail : List (Str × Str) → Str
  | [] => [125]
  | [entry] => dumpsEntry entry ++ [125]
  | entry :: entries => dumpsEntry entry ++ 44 :: 32 :: dumpsTail entries

theorem dumps_eq (entries : List (Str × Str)) :
    dumps entries = 123 :: dumpsTail entries := by
  have htail : [44, 32].intercalate (entries.map dumpsEntry) ++ [125] =
      dumpsTail entries := by
    induction entries with
    | nil => rfl
    | cons entry entries ih =>
        cases entries with
        | nil => simp [dumpsTail, List.intercalate]
        | cons entry' entries =>
            rw [dumpsTail, ← ih]
            · simp [List.intercalate]
            · simp
  rw [dumps, List.cons_append, htail]

theorem dumpsTail_printable {entries : List (Str × Str)} {d : Nat}
    (h : d ∈ dumpsTail entries) : 32 ≤ d ∧ d ≤ 126 := by
  induction entries with
  | nil =>
      simp only [dumpsTail, List.mem_singleton] at h
      omega
  | cons entry entries ih =>
      cases entries with
      | nil =>
          simp only [dumpsTail, List.mem_append, List.mem_singleton] at h
          rcases h with h | rfl
          · exact dumpsEntry_printable h
          · decide
      | cons entry' entries =>
          rw [dumpsTail, List.mem_append, List.mem_cons, List.mem_cons] at h
          · rcases h with h | rfl | rfl | h
            · exact dumpsEntry_printable h
            · decide
            · decide
            · exact ih h
          · simp

theorem dumps_ascii (entries : List (Str × Str)) :
    ∀ c ∈ dumps entries, isAscii c := by
  intro c hc
  rw [dumps_eq, List.mem_cons] at hc
  have hrange : 32 ≤ c ∧ c ≤ 126 := by
    rcases hc with rfl | hc
    · decide
    · exact dumpsTail_printable hc
  simp only [isAscii, decide_eq_true_eq]
  omega

/-! ## Scanning one string literal -/

/-- What the scanner makes of the escape of one character. -/
def scannedOf (c : Nat) : List Scanned :=
  if c = 34 ∨ c = 92 ∨ c = 10 ∨ c = 13 ∨ c = 9 ∨ c = 12 ∨ c = 8 ∨
      32 ≤ c ∧ c ≤ 126 then [.raw c]
  else if c < 0x10000 then [.escaped c]
  else
    [.escaped (0xD800 + (c - 0x10000) / 0x400),
      .escaped (0xDC00 + (c - 0x10000) % 0x400)]

private theorem scanChars_escapeUnit {u : Nat} (hu : u < 0x10000) (rest : Str) :
    scanChars (escapeUnit u ++ rest) =
      (scanChars rest).map fun p => (.escaped u :: p.1, p.2) := by
  have hlen := length_hexDigits 4 u
  have hvalue := ofHexDigits_hexDigits 4 0 u
  rw [Nat.mod_eq_of_lt (by norm_num; exact hu)] at hvalue
  match hd : hexDigits 4 u, hlen with
  | [a, b, c, d], _ =>
      rw [hd] at hvalue
      simp only [escapeUnit, hd, List.cons_append, List.nil_append]
      rw [scanChars, hvalue]
      cases scanChars rest <;> simp

private theorem scanChars_raw {c : Nat} (h : 0x20 ≤ c) (hq : c ≠ 34)
    (hb : c ≠ 92) (rest : Str) :
    scanChars (c :: rest) =
      (scanChars rest).map fun p => (.raw c :: p.1, p.2) := by
  rw [scanChars]
  · rw [if_neg (by omega)]
    cases scanChars rest <;> rfl
  · exact hq
  · intro a b c' d s hc
    exact absurd hc hb
  · intro e s hc
    exact absurd hc hb

private theorem scanChars_short {e c : Nat} (he : shortEscape e = some c)
    (hu : e ≠ 117) (rest : Str) :
    scanChars (92 :: e :: rest) =
      (scanChars rest).map fun p => (.raw c :: p.1, p.2) := by
  rw [scanChars]
  · rw [he]
    cases scanChars rest <;> rfl
  · intro a b c' d s hc
    exact absurd hc hu

theorem scanChars_escapeChar {c : Nat} (hc : c < 0x110000) (rest : Str) :
    scanChars (escapeChar c ++ rest) =
      (scanChars rest).map fun p => (scannedOf c ++ p.1, p.2) := by
  unfold escapeChar
  by_cases h34 : c = 34
  · subst h34
    exact scanChars_short rfl (by decide) rest
  by_cases h92 : c = 92
  · subst h92
    exact scanChars_short rfl (by decide) rest
  by_cases h10 : c = 10
  · subst h10
    exact scanChars_short rfl (by decide) rest
  by_cases h13 : c = 13
  · subst h13
    exact scanChars_short rfl (by decide) rest
  by_cases h9 : c = 9
  · subst h9
    exact scanChars_short rfl (by decide) rest
  by_cases h12 : c = 12
  · subst h12
    exact scanChars_short rfl (by decide) rest
  by_cases h8 : c = 8
  · subst h8
    exact scanChars_short rfl (by decide) rest
  simp only [h34, h92, h10, h13, h9, h12, h8, if_false, scannedOf, false_or]
  by_cases hprint : 32 ≤ c ∧ c ≤ 126
  · simp only [if_pos hprint]
    exact scanChars_raw hprint.1 h34 h92 rest
  simp only [if_neg hprint]
  by_cases hbmp : c < 0x10000
  · simp only [if_pos hbmp]
    exact scanChars_escapeUnit hbmp rest
  · simp only [if_neg hbmp, List.append_assoc]
    rw [scanChars_escapeUnit (by omega), scanChars_escapeUnit (by omega)]
    cases scanChars rest <;> rfl

private theorem joinEscapes_cons (unit : Scanned)
    (h : isHighSurrogate unit.code = false) (rest : List Scanned) :
    joinEscapes (unit :: rest) = unit.code :: joinEscapes rest := by
  cases unit with
  | raw c => rw [joinEscapes]; simp
  | escaped c =>
      cases rest with
      | nil => rfl
      | cons next rest =>
          cases next with
          | raw d => rw [joinEscapes]; simp
          | escaped d =>
              have hc : isHighSurrogate c = false := h
              simp [joinEscapes, hc, Scanned.code]

theorem joinEscapes_scannedOf {c : Nat} (hc : isScalar c = true)
    (rest : List Scanned) :
    joinEscapes (scannedOf c ++ rest) = c :: joinEscapes rest := by
  simp only [isScalar, Bool.and_eq_true, decide_eq_true_eq, Bool.not_eq_true',
    Bool.and_eq_false_imp, decide_eq_false_iff_not] at hc
  have hnot : isHighSurrogate c = false := by
    simp only [isHighSurrogate, Bool.and_eq_false_imp, decide_eq_true_eq,
      decide_eq_false_iff_not]
    intro h
    have := hc.2 h
    omega
  unfold scannedOf
  split
  · exact joinEscapes_cons (.raw c) hnot rest
  split
  · exact joinEscapes_cons (.escaped c) hnot rest
  · have hhigh : isHighSurrogate (0xD800 + (c - 0x10000) / 0x400) = true := by
      simp only [isHighSurrogate, Bool.and_eq_true, decide_eq_true_eq]
      omega
    have hlow : isLowSurrogate (0xDC00 + (c - 0x10000) % 0x400) = true := by
      simp only [isLowSurrogate, Bool.and_eq_true, decide_eq_true_eq]
      omega
    have hjoin : joinSurrogates (0xD800 + (c - 0x10000) / 0x400)
        (0xDC00 + (c - 0x10000) % 0x400) = c := by
      unfold joinSurrogates
      omega
    simp [joinEscapes, hhigh, hlow, hjoin]

theorem scanString_dumps {s : Str} (hs : Scalar s) (rest : Str) :
    scanString (s.flatMap escapeChar ++ 34 :: rest) = some (s, rest) := by
  have hscan : scanChars (s.flatMap escapeChar ++ 34 :: rest) =
      some (s.flatMap scannedOf, rest) := by
    induction s with
    | nil => simp [scanChars]
    | cons c s ih =>
        have hc := hs c List.mem_cons_self
        have hlt : c < 0x110000 := by
          simp only [isScalar, Bool.and_eq_true, decide_eq_true_eq] at hc
          exact hc.1
        simp only [List.flatMap_cons, List.append_assoc]
        rw [scanChars_escapeChar hlt,
          ih fun c hc => hs c (List.mem_cons_of_mem _ hc)]
        rfl
  have hjoin : joinEscapes (s.flatMap scannedOf) = s := by
    clear hscan
    induction s with
    | nil => rfl
    | cons c s ih =>
        rw [List.flatMap_cons, joinEscapes_scannedOf (hs c List.mem_cons_self),
          ih fun c hc => hs c (List.mem_cons_of_mem _ hc)]
  simp [scanString, hscan, hjoin]

/-! ## Scanning the object -/

theorem scanOnce_dumpsStr {s : Str} (hs : Scalar s) (limit : Nat) (rest : Str) :
    scanOnce limit (dumpsStr s ++ rest) = .ok (.str s, rest) := by
  have hshape : dumpsStr s ++ rest =
      34 :: (s.flatMap escapeChar ++ 34 :: rest) := by
    simp [dumpsStr]
  have hatom : scanAtom (34 :: (s.flatMap escapeChar ++ 34 :: rest)) =
      .ok (.str s, rest) := by
    simp only [scanAtom, scanString_dumps hs]
  rw [hshape]
  cases limit with
  | zero => exact hatom
  | succ limit => exact hatom

theorem skipSpace_cons {c : Nat} (h : isSpace c = false) (s : Str) :
    skipSpace (c :: s) = c :: s := by
  simp [skipSpace, h]

theorem skipSpace_space (s : Str) : skipSpace (32 :: s) = skipSpace s := by
  simp [skipSpace, isSpace]

private theorem skipSpace_dumpsStr (s rest : Str) :
    skipSpace (dumpsStr s ++ rest) = dumpsStr s ++ rest :=
  skipSpace_cons (c := 34) rfl _

/-- The first entry, whatever follows its value. -/
private theorem scanEntries_entry (limit fuel : Nat) {entry : Str × Str}
    (hkey : Scalar entry.1) (hvalue : Scalar entry.2) (tail : Str) :
    scanEntries (scanOnce limit) (fuel + 1) (dumpsEntry entry ++ tail) =
      match skipSpace tail with
      | 125 :: tail => .ok ([(entry.1, .str entry.2)], tail)
      | 44 :: tail => do
          let (found, tail) ← scanEntries (scanOnce limit) fuel (skipSpace tail)
          .ok ((entry.1, .str entry.2) :: found, tail)
      | _ => .error (.fail .jsonDecode) := by
  have hentry : dumpsEntry entry ++ tail =
      34 :: (entry.1.flatMap escapeChar ++
        34 :: 58 :: 32 :: (dumpsStr entry.2 ++ tail)) := by
    simp [dumpsEntry, dumpsStr]
  rw [hentry]
  simp only [scanEntries, scanString_dumps hkey]
  rw [skipSpace_cons (c := 58) rfl]
  simp only [skipSpace_space, skipSpace_dumpsStr, scanOnce_dumpsStr hvalue, expected]
  rfl

theorem scanEntries_dumps (limit : Nat) {entries : List (Str × Str)}
    (hne : entries ≠ []) (hs : ∀ entry ∈ entries, Scalar entry.1 ∧ Scalar entry.2)
    {fuel : Nat} (hfuel : entries.length ≤ fuel) (rest : Str) :
    scanEntries (scanOnce limit) fuel (dumpsTail entries ++ rest) =
      .ok (entries.map fun entry => (entry.1, .str entry.2), rest) := by
  induction entries generalizing fuel with
  | nil => exact absurd rfl hne
  | cons entry entries ih =>
      obtain ⟨hkey, hvalue⟩ := hs entry List.mem_cons_self
      obtain ⟨fuel, rfl⟩ : ∃ f, fuel = f + 1 :=
        ⟨fuel - 1, by simp only [List.length_cons] at hfuel; omega⟩
      have hfirst := scanEntries_entry limit fuel hkey hvalue
      cases entries with
      | nil =>
          rw [dumpsTail, List.append_assoc, hfirst]
          simp [skipSpace_cons (c := 125) rfl]
      | cons entry' entries =>
          have hshape : dumpsTail (entry :: entry' :: entries) ++ rest =
              dumpsEntry entry ++
                44 :: 32 :: (dumpsTail (entry' :: entries) ++ rest) := by
            rw [dumpsTail, List.append_assoc]
            · rfl
            · simp
          have hskip : skipSpace (dumpsTail (entry' :: entries) ++ rest) =
              dumpsTail (entry' :: entries) ++ rest := by
            obtain ⟨tail, htail⟩ : ∃ tail,
                dumpsTail (entry' :: entries) ++ rest = 34 :: tail := by
              cases entries with
              | nil => exact ⟨_, rfl⟩
              | cons _ _ => exact ⟨_, rfl⟩
            rw [htail]
            exact skipSpace_cons rfl _
          have hlength : (entry' :: entries).length ≤ fuel := by
            simp only [List.length_cons] at hfuel ⊢
            omega
          have hrest := ih (by simp)
            (fun e he => hs e (List.mem_cons_of_mem _ he)) hlength
          rw [hshape, hfirst, skipSpace_cons (c := 44) rfl]
          simp only [skipSpace_space, hskip, hrest]
          rfl

theorem length_le_dumpsTail {entries : List (Str × Str)} :
    entries.length ≤ (dumpsTail entries).length := by
  induction entries with
  | nil => simp
  | cons entry entries ih =>
      cases entries with
      | nil => simp [dumpsTail]
      | cons entry' entries =>
          rw [dumpsTail]
          · simp only [List.length_append, List.length_cons] at ih ⊢
            omega
          · simp

theorem decode_dumps {limit : Nat} (hlimit : 0 < limit)
    {entries : List (Str × Str)} (hne : entries ≠ [])
    (hs : ∀ entry ∈ entries, Scalar entry.1 ∧ Scalar entry.2) :
    decode limit (dumps entries) =
      .ok (.dict (entries.map fun entry => (entry.1, .str entry.2))) := by
  obtain ⟨limit, rfl⟩ : ∃ l, limit = l + 1 := ⟨limit - 1, by omega⟩
  obtain ⟨tail, htail⟩ : ∃ tail, dumpsTail entries = 34 :: tail := by
    match entries, hne with
    | [entry], _ => exact ⟨_, rfl⟩
    | entry :: entry' :: entries, _ => exact ⟨_, rfl⟩
  have hscan := scanEntries_dumps limit hne hs length_le_dumpsTail []
  rw [List.append_nil, htail] at hscan
  have honce : scanOnce (limit + 1) (dumps entries) =
      .ok (.dict (entries.map fun entry => (entry.1, .str entry.2)), []) := by
    rw [dumps_eq, htail]
    simp only [scanOnce, scanContainer, skipSpace_cons (c := 34) rfl, hscan]
    rfl
  have hskip : skipSpace (dumps entries) = dumps entries := by
    rw [dumps_eq]
    exact skipSpace_cons rfl _
  simp only [decode, hskip, honce, expected]
  rfl

private theorem decodeBytes_ascii {a b : Nat} {rest : List Nat} (ha : 0 < a)
    (ha' : a < 0x80) (hb : 0 < b) :
    decodeBytes (a :: b :: rest) = utf8Decode (a :: b :: rest) := by
  unfold decodeBytes
  split
  all_goals rename_i heq
  all_goals try (simp only [List.cons.injEq] at heq; omega)
  · simp only [List.cons.injEq] at heq
    obtain ⟨rfl, rfl, -⟩ := heq
    simp [Nat.ne_of_gt ha, Nat.ne_of_gt hb]
  · simp only [List.cons.injEq] at heq
    obtain ⟨rfl, rfl, -⟩ := heq
    simp [Nat.ne_of_gt ha, Nat.ne_of_gt hb]
  · rfl

/-- Writing and reading a flat object of texts is the identity. -/
theorem loads_dumps {limit : Nat} (hlimit : 0 < limit)
    (entries : List (Str × Str)) (hne : entries ≠ [])
    (hs : ∀ entry ∈ entries, Scalar entry.1 ∧ Scalar entry.2) :
    ∃ bytes, utf8Encode (dumps entries) = some bytes ∧
      loads limit (some bytes) =
        .ok (.dict (entries.map fun entry => (entry.1, .str entry.2))) := by
  have hascii := dumps_ascii entries
  refine ⟨_, utf8Encode_ascii hascii, ?_⟩
  obtain ⟨tail, htail⟩ : ∃ tail, dumps entries = 123 :: 34 :: tail := by
    match entries, hne with
    | [entry], _ => exact ⟨_, dumps_eq _⟩
    | entry :: entry' :: entries, _ => exact ⟨_, dumps_eq _⟩
  have hdecode : decodeBytes (dumps entries) = some (dumps entries) := by
    rw [htail, decodeBytes_ascii (by decide) (by decide) (by decide), ← htail]
    exact utf8Decode_ascii hascii
  simp only [loads, toNat_ofNat_ascii hascii, hdecode]
  exact decode_dumps hlimit hne hs

end PhotoAnalysis.Foundation.Json
