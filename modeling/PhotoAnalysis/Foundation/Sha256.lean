import PhotoAnalysis.Foundation.Text

/-!
# SHA-256

The digest of a byte string: padding to blocks of 64 bytes, the message schedule
of a block, 64 rounds of compression for each block.
-/

namespace PhotoAnalysis.Foundation.Sha256

abbrev Word := BitVec 32

def roundConstants : List Word := [
  0x428a2f98, 0x71374491, 0xb5c0fbcf, 0xe9b5dba5, 0x3956c25b, 0x59f111f1, 0x923f82a4,
  0xab1c5ed5, 0xd807aa98, 0x12835b01, 0x243185be, 0x550c7dc3, 0x72be5d74, 0x80deb1fe,
  0x9bdc06a7, 0xc19bf174, 0xe49b69c1, 0xefbe4786, 0x0fc19dc6, 0x240ca1cc, 0x2de92c6f,
  0x4a7484aa, 0x5cb0a9dc, 0x76f988da, 0x983e5152, 0xa831c66d, 0xb00327c8, 0xbf597fc7,
  0xc6e00bf3, 0xd5a79147, 0x06ca6351, 0x14292967, 0x27b70a85, 0x2e1b2138, 0x4d2c6dfc,
  0x53380d13, 0x650a7354, 0x766a0abb, 0x81c2c92e, 0x92722c85, 0xa2bfe8a1, 0xa81a664b,
  0xc24b8b70, 0xc76c51a3, 0xd192e819, 0xd6990624, 0xf40e3585, 0x106aa070, 0x19a4c116,
  0x1e376c08, 0x2748774c, 0x34b0bcb5, 0x391c0cb3, 0x4ed8aa4a, 0x5b9cca4f, 0x682e6ff3,
  0x748f82ee, 0x78a5636f, 0x84c87814, 0x8cc70208, 0x90befffa, 0xa4506ceb, 0xbef9a3f7,
  0xc67178f2]

structure State where
  a : Word
  b : Word
  c : Word
  d : Word
  e : Word
  f : Word
  g : Word
  h : Word
  deriving DecidableEq, Repr

def State.initial : State :=
  ⟨0x6a09e667, 0xbb67ae85, 0x3c6ef372, 0xa54ff53a, 0x510e527f, 0x9b05688c, 0x1f83d9ab,
    0x5be0cd19⟩

def State.add (s s' : State) : State :=
  ⟨s.a + s'.a, s.b + s'.b, s.c + s'.c, s.d + s'.d, s.e + s'.e, s.f + s'.f, s.g + s'.g,
    s.h + s'.h⟩

def State.words (s : State) : List Word := [s.a, s.b, s.c, s.d, s.e, s.f, s.g, s.h]

/-! ## Bytes and words -/

/-- The last `width` bytes of a number, the most significant first. -/
def bigEndian : (width : Nat) → Nat → Bytes
  | 0, _ => []
  | width + 1, n => bigEndian width (n / 256) ++ [UInt8.ofNat n]

def number (bytes : Bytes) : Nat := bytes.foldl (fun n byte => n * 256 + byte.toNat) 0

/-- The bytes four at a time. -/
def wordsOf : Bytes → List Word
  | b0 :: b1 :: b2 :: b3 :: rest => BitVec.ofNat 32 (number [b0, b1, b2, b3]) :: wordsOf rest
  | _ => []

def pad (message : Bytes) : Bytes :=
  message ++ 0x80 :: List.replicate ((119 - message.length % 64) % 64) 0 ++
    bigEndian 8 (8 * message.length)

/-! ## One block -/

def smallSigma0 (x : Word) : Word := x.rotateRight 7 ^^^ x.rotateRight 18 ^^^ x >>> 3

def smallSigma1 (x : Word) : Word := x.rotateRight 17 ^^^ x.rotateRight 19 ^^^ x >>> 10

def bigSigma0 (x : Word) : Word := x.rotateRight 2 ^^^ x.rotateRight 13 ^^^ x.rotateRight 22

def bigSigma1 (x : Word) : Word := x.rotateRight 6 ^^^ x.rotateRight 11 ^^^ x.rotateRight 25

/-- `count` more words of the schedule, the latest first. -/
def extend : (count : Nat) → List Word → List Word
  | 0, words => words
  | count + 1, words =>
      extend count ((smallSigma1 (words.getD 1 0) + words.getD 6 0 +
        smallSigma0 (words.getD 14 0) + words.getD 15 0) :: words)

def schedule (block : Bytes) : List Word := (extend 48 (wordsOf block).reverse).reverse

def round (s : State) (constant word : Word) : State :=
  let t1 := s.h + bigSigma1 s.e + (s.e &&& s.f ^^^ ~~~s.e &&& s.g) + constant + word
  let t2 := bigSigma0 s.a + (s.a &&& s.b ^^^ s.a &&& s.c ^^^ s.b &&& s.c)
  ⟨t1 + t2, s.a, s.b, s.c, s.d + t1, s.e, s.f, s.g⟩

def compress (s : State) (block : Bytes) : State :=
  s.add ((roundConstants.zip (schedule block)).foldl
    (fun s input => round s input.1 input.2) s)

/-! ## The digest -/

def compressBlocks : (blocks : Nat) → State → Bytes → State
  | 0, s, _ => s
  | blocks + 1, s, bytes =>
      compressBlocks blocks (compress s (bytes.take 64)) (bytes.drop 64)

/-- `hashlib.sha256(message).digest()` -/
def digest (message : Bytes) : Bytes :=
  (compressBlocks ((pad message).length / 64) .initial (pad message)).words.flatMap
    fun word => bigEndian 4 word.toNat

@[simp] theorem length_bigEndian (width n : Nat) : (bigEndian width n).length = width := by
  induction width generalizing n with
  | zero => rfl
  | succ width ih => simp [bigEndian, ih]

@[simp] theorem length_digest (message : Bytes) : (digest message).length = 32 := by
  simp [digest, State.words]

example : digest "abc".toUTF8.toList = [
    0xba, 0x78, 0x16, 0xbf, 0x8f, 0x01, 0xcf, 0xea, 0x41, 0x41, 0x40, 0xde, 0x5d, 0xae,
    0x22, 0x23, 0xb0, 0x03, 0x61, 0xa3, 0x96, 0x17, 0x7a, 0x9c, 0xb4, 0x10, 0xff, 0x61,
    0xf2, 0x00, 0x15, 0xad] := by decide +kernel

end PhotoAnalysis.Foundation.Sha256
