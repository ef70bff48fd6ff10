import PhotoAnalysis.Foundation.Text

/-!
# JSON texts

`loads` reads a record value the way a scripting language's standard decoder
does: it guesses the encoding from the first bytes, decodes, and scans one
value.  Each of its ways to fail is an error of its own, since a caller that
catches one class need not catch another: nesting deeper than the interpreter's
recursion limit and integer literals past its digit limit are not syntax
errors.  `dumps` writes a flat object of texts in ASCII.
-/

namespace PhotoAnalysis.Foundation

/-- A decoded value; a float is its exact decimal, before rounding. -/
inductive Json where
  | null
  | bool (value : Bool)
  | int (value : Int)
  | float (mantissa exponent : Int)
  | nan
  | infinity (negative : Bool)
  | str (value : Str)
  | list (items : List Json)
  | dict (entries : List (Str × Json))

inductive LoadsError where
  | typeError
  | unicodeDecode
  | jsonDecode
  | recursion
  | valueError
  deriving DecidableEq, Repr

namespace Json

open Text

/-- A later entry of an object replaces an earlier one with the same key. -/
def get (entries : List (Str × Json)) (key : Str) : Option Json :=
  (entries.reverse.find? fun entry => entry.1 = key).map Prod.snd

/-- Half of the least positive double: a decimal up to it rounds to zero. -/
def roundsToZero (mantissa exponent : Int) : Bool :=
  if 0 ≤ exponent then mantissa = 0
  else mantissa.natAbs * 2 ^ 1075 ≤ 10 ^ exponent.natAbs

/-- Whether a value counts as true in a condition. -/
def truthy : Json → Bool
  | null => false
  | bool value => value
  | int value => value != 0
  | float mantissa exponent => !roundsToZero mantissa exponent
  | nan => true
  | infinity _ => true
  | str value => !value.isEmpty
  | list items => !items.isEmpty
  | dict entries => !entries.isEmpty

mutual

/-- How many arrays and objects are inside one another. -/
def depth : Json → Nat
  | list items => depthItems items + 1
  | dict entries => depthEntries entries + 1
  | _ => 0

def depthItems : List Json → Nat
  | [] => 0
  | item :: items => max item.depth (depthItems items)

def depthEntries : List (Str × Json) → Nat
  | [] => 0
  | entry :: entries => max (depthEntry entry) (depthEntries entries)

def depthEntry : Str × Json → Nat
  | (_, value) => value.depth

end

/-! ## Guessing the encoding -/

/-- The decoder `loads` picks from the first bytes, applied to the bytes. -/
def decodeBytes (bytes : List Nat) : Option Str :=
  match bytes with
  | 0x00 :: 0x00 :: 0xFE :: 0xFF :: rest => utf32Decode true rest
  | 0xFF :: 0xFE :: 0x00 :: 0x00 :: rest => utf32Decode false rest
  | 0xFE :: 0xFF :: rest => utf16Decode true rest
  | 0xFF :: 0xFE :: rest => utf16Decode false rest
  | 0xEF :: 0xBB :: 0xBF :: rest => utf8Decode rest
  | a :: b :: c :: d :: _ =>
      if a = 0 then
        if b = 0 then utf32Decode true bytes else utf16Decode true bytes
      else if b = 0 then
        if c = 0 ∧ d = 0 then utf32Decode false bytes
        else utf16Decode false bytes
      else utf8Decode bytes
  | [a, b] =>
      if a = 0 then utf16Decode true bytes
      else if b = 0 then utf16Decode false bytes
      else utf8Decode bytes
  | _ => utf8Decode bytes

/-! ## Scanning -/

def isSpace (c : Nat) : Bool := c = 32 || c = 9 || c = 10 || c = 13

def skipSpace (s : Str) : Str := s.dropWhile isSpace

/-- A character of a string literal, and whether it was written as `\uXXXX`. -/
inductive Scanned where
  | raw (c : Nat)
  | escaped (c : Nat)
  deriving DecidableEq, Repr

def Scanned.code : Scanned → Nat
  | raw c => c
  | escaped c => c

def shortEscape : Nat → Option Nat
  | 34 => some 34
  | 92 => some 92
  | 47 => some 47
  | 98 => some 8
  | 102 => some 12
  | 110 => some 10
  | 114 => some 13
  | 116 => some 9
  | _ => none

/-- The characters up to the closing quote, and what follows it. -/
def scanChars : Str → Option (List Scanned × Str)
  | [] => none
  | 34 :: rest => some ([], rest)
  | 92 :: 117 :: a :: b :: c :: d :: rest => do
      let u ← ofHexDigits 0 [a, b, c, d]
      let (units, rest) ← scanChars rest
      some (.escaped u :: units, rest)
  | 92 :: e :: rest => do
      let c ← shortEscape e
      let (units, rest) ← scanChars rest
      some (.raw c :: units, rest)
  | c :: rest =>
      if c < 0x20 then none
      else do
        let (units, rest) ← scanChars rest
        some (.raw c :: units, rest)

/-- Two adjacent escapes that form a surrogate pair are one character. -/
def joinEscapes : List Scanned → Str
  | [] => []
  | .escaped u :: .escaped v :: rest =>
      if isHighSurrogate u && isLowSurrogate v then
        joinSurrogates u v :: joinEscapes rest
      else u :: joinEscapes (.escaped v :: rest)
  | unit :: rest => unit.code :: joinEscapes rest

def scanString (s : Str) : Option (Str × Str) :=
  (scanChars s).map fun (units, rest) => (joinEscapes units, rest)

inductive ScanError where
  | stop
  | fail (error : LoadsError)
  deriving DecidableEq, Repr

def isDigit (c : Nat) : Bool := 48 ≤ c && c ≤ 57

def ofDigits (digits : Str) : Nat :=
  digits.foldl (fun n c => n * 10 + (c - 48)) 0

/-- The longest integer literal that is converted. -/
def maxDigits : Nat := 4300

/-- The digits of a fraction or an exponent, and what follows them. -/
def scanFraction : Str → Option (Str × Str)
  | 46 :: c :: rest =>
      if isDigit c then
        some ((c :: rest).takeWhile isDigit, (c :: rest).dropWhile isDigit)
      else none
  | _ => none

def scanExponent : Str → Option (Int × Str)
  | e :: rest =>
      if e = 101 ∨ e = 69 then
        let (negative, digits) := match rest with
          | 45 :: rest => (true, rest)
          | 43 :: rest => (false, rest)
          | _ => (false, rest)
        let taken := digits.takeWhile isDigit
        if taken.isEmpty then none
        else
          some (if negative then -(ofDigits taken : Int) else ofDigits taken,
            digits.dropWhile isDigit)
      else none
  | [] => none

def scanInteger : Str → Option (Str × Str)
  | 48 :: rest => some ([48], rest)
  | c :: rest =>
      if isDigit c then
        some (c :: rest.takeWhile isDigit, rest.dropWhile isDigit)
      else none
  | [] => none

def scanNumber (s : Str) : Except ScanError (Json × Str) :=
  let (negative, digits) := match s with
    | 45 :: rest => (true, rest)
    | _ => (false, s)
  match scanInteger digits with
  | none => .error .stop
  | some (integer, rest) =>
      let (fraction, isFraction, rest) := match scanFraction rest with
        | some (fraction, rest) => (fraction, true, rest)
        | none => ([], false, rest)
      let (exponent, isExponent, rest) := match scanExponent rest with
        | some (exponent, rest) => (exponent, true, rest)
        | none => (0, false, rest)
      let magnitude : Int := ofDigits (integer ++ fraction)
      let value := if negative then -magnitude else magnitude
      if isFraction || isExponent then
        .ok (.float value (exponent - fraction.length), rest)
      else if maxDigits < integer.length then .error (.fail .valueError)
      else .ok (.int value, rest)

/-- A value that is neither an array nor an object. -/
def scanAtom (s : Str) : Except ScanError (Json × Str) :=
  match s with
  | 34 :: rest =>
      match scanString rest with
      | some (value, rest) => .ok (.str value, rest)
      | none => .error (.fail .jsonDecode)
  | 110 :: 117 :: 108 :: 108 :: rest => .ok (.null, rest)
  | 116 :: 114 :: 117 :: 101 :: rest => .ok (.bool true, rest)
  | 102 :: 97 :: 108 :: 115 :: 101 :: rest => .ok (.bool false, rest)
  | 78 :: 97 :: 78 :: rest => .ok (.nan, rest)
  | 73 :: 110 :: 102 :: 105 :: 110 :: 105 :: 116 :: 121 :: rest =>
      .ok (.infinity false, rest)
  | 45 :: 73 :: 110 :: 102 :: 105 :: 110 :: 105 :: 116 :: 121 :: rest =>
      .ok (.infinity true, rest)
  | _ => scanNumber s

/-- Where a value has to follow, running out of text is a syntax error. -/
def expected (scanned : Except ScanError (Json × Str)) :
    Except ScanError (Json × Str) :=
  match scanned with
  | .error .stop => .error (.fail .jsonDecode)
  | _ => scanned

section
variable (value : Str → Except ScanError (Json × Str))

/-- The items of an array up to its closing bracket. -/
def scanItems : (fuel : Nat) → Str → Except ScanError (List Json × Str)
  | 0, _ => .error (.fail .jsonDecode)
  | fuel + 1, s => do
      let (item, rest) ← expected (value s)
      match skipSpace rest with
      | 93 :: rest => .ok ([item], rest)
      | 44 :: rest => do
          let (items, rest) ← scanItems fuel (skipSpace rest)
          .ok (item :: items, rest)
      | _ => .error (.fail .jsonDecode)

/-- The entries of an object up to its closing brace. -/
def scanEntries : (fuel : Nat) → Str →
    Except ScanError (List (Str × Json) × Str)
  | fuel + 1, 34 :: s =>
      match scanString s with
      | none => .error (.fail .jsonDecode)
      | some (key, rest) =>
          match skipSpace rest with
          | 58 :: rest => do
              let (item, rest) ← expected (value (skipSpace rest))
              match skipSpace rest with
              | 125 :: rest => .ok ([(key, item)], rest)
              | 44 :: rest => do
                  let (entries, rest) ← scanEntries fuel (skipSpace rest)
                  .ok ((key, item) :: entries, rest)
              | _ => .error (.fail .jsonDecode)
          | _ => .error (.fail .jsonDecode)
  | _, _ => .error (.fail .jsonDecode)

def scanContainer (s : Str) : Except ScanError (Json × Str) :=
  match s with
  | 91 :: rest =>
      match skipSpace rest with
      | 93 :: rest => .ok (.list [], rest)
      | rest => do
          let (items, rest) ← scanItems value rest.length rest
          .ok (.list items, rest)
  | 123 :: rest =>
      match skipSpace rest with
      | 125 :: rest => .ok (.dict [], rest)
      | rest => do
          let (entries, rest) ← scanEntries value rest.length rest
          .ok (.dict entries, rest)
  | _ => scanAtom s

end

/-- One value; `limit` arrays and objects may be open at once. -/
def scanOnce : (limit : Nat) → Str → Except ScanError (Json × Str)
  | 0, s =>
      match s with
      | 91 :: _ => .error (.fail .recursion)
      | 123 :: _ => .error (.fail .recursion)
      | _ => scanAtom s
  | limit + 1, s => scanContainer (scanOnce limit) s

def decode (limit : Nat) (s : Str) : Except LoadsError Json :=
  match expected (scanOnce limit (skipSpace s)) with
  | .ok (value, rest) =>
      if (skipSpace rest).isEmpty then .ok value else .error .jsonDecode
  | .error (.fail error) => .error error
  | .error .stop => .error .jsonDecode

/-- `json.loads(value)`, for a byte string or the null value. -/
def loads (limit : Nat) : Option Bytes → Except LoadsError Json
  | none => .error .typeError
  | some bytes =>
      match decodeBytes (bytes.map UInt8.toNat) with
      | none => .error .unicodeDecode
      | some s => decode limit s

/-! ## Writing -/

def escapeUnit (u : Nat) : Str := 92 :: 117 :: hexDigits 4 u

def escapeChar (c : Nat) : Str :=
  if c = 34 then [92, 34]
  else if c = 92 then [92, 92]
  else if c = 10 then [92, 110]
  else if c = 13 then [92, 114]
  else if c = 9 then [92, 116]
  else if c = 12 then [92, 102]
  else if c = 8 then [92, 98]
  else if 32 ≤ c ∧ c ≤ 126 then [c]
  else if c < 0x10000 then escapeUnit c
  else
    escapeUnit (0xD800 + (c - 0x10000) / 0x400) ++
      escapeUnit (0xDC00 + (c - 0x10000) % 0x400)

def dumpsStr (s : Str) : Str := 34 :: s.flatMap escapeChar ++ [34]

def dumpsEntry (entry : Str × Str) : Str :=
  dumpsStr entry.1 ++ 58 :: 32 :: dumpsStr entry.2

/-- `json.dumps` of a flat object of texts. -/
def dumps (entries : List (Str × Str)) : Str :=
  123 :: [44, 32].intercalate (entries.map dumpsEntry) ++ [125]

end Json

end PhotoAnalysis.Foundation
