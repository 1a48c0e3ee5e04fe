import TextToSqlAgent.Core.Python

/-!
# Hex digests

`hashlib.sha256(text.encode("utf-8")).hexdigest()`. Words are numbers below
`2 ^ 32`, and a block is sixteen of them.
-/

namespace Sha256

/-- The first bits of the fractional parts of the cube roots of the first primes. -/
def roundConstants : List Nat :=
  [0x428a2f98, 0x71374491, 0xb5c0fbcf, 0xe9b5dba5, 0x3956c25b, 0x59f111f1, 0x923f82a4, 0xab1c5ed5,
    0xd807aa98, 0x12835b01, 0x243185be, 0x550c7dc3, 0x72be5d74, 0x80deb1fe, 0x9bdc06a7, 0xc19bf174,
    0xe49b69c1, 0xefbe4786, 0x0fc19dc6, 0x240ca1cc, 0x2de92c6f, 0x4a7484aa, 0x5cb0a9dc, 0x76f988da,
    0x983e5152, 0xa831c66d, 0xb00327c8, 0xbf597fc7, 0xc6e00bf3, 0xd5a79147, 0x06ca6351, 0x14292967,
    0x27b70a85, 0x2e1b2138, 0x4d2c6dfc, 0x53380d13, 0x650a7354, 0x766a0abb, 0x81c2c92e, 0x92722c85,
    0xa2bfe8a1, 0xa81a664b, 0xc24b8b70, 0xc76c51a3, 0xd192e819, 0xd6990624, 0xf40e3585, 0x106aa070,
    0x19a4c116, 0x1e376c08, 0x2748774c, 0x34b0bcb5, 0x391c0cb3, 0x4ed8aa4a, 0x5b9cca4f, 0x682e6ff3,
    0x748f82ee, 0x78a5636f, 0x84c87814, 0x8cc70208, 0x90befffa, 0xa4506ceb, 0xbef9a3f7, 0xc67178f2]

/-- What is hashed of the blocks so far. -/
structure Chain where
  a : Nat
  b : Nat
  c : Nat
  d : Nat
  e : Nat
  f : Nat
  g : Nat
  h : Nat

def Chain.words (s : Chain) : List Nat := [s.a, s.b, s.c, s.d, s.e, s.f, s.g, s.h]

def initial : Chain :=
  ⟨0x6a09e667, 0xbb67ae85, 0x3c6ef372, 0xa54ff53a, 0x510e527f, 0x9b05688c, 0x1f83d9ab, 0x5be0cd19⟩

def modulus : Nat := 0x100000000

/-- A word turned to the right. -/
def rotate (n x : Nat) : Nat := (x >>> n) ||| (x <<< (32 - n)) % modulus

def smallSigma0 (x : Nat) : Nat := rotate 7 x ^^^ rotate 18 x ^^^ (x >>> 3)

def smallSigma1 (x : Nat) : Nat := rotate 17 x ^^^ rotate 19 x ^^^ (x >>> 10)

def bigSigma0 (x : Nat) : Nat := rotate 2 x ^^^ rotate 13 x ^^^ rotate 22 x

def bigSigma1 (x : Nat) : Nat := rotate 6 x ^^^ rotate 11 x ^^^ rotate 25 x

def choose (x y z : Nat) : Nat := (x &&& y) ^^^ ((modulus - 1 - x) &&& z)

def majority (x y z : Nat) : Nat := (x &&& y) ^^^ (x &&& z) ^^^ (y &&& z)

/-- So many more words of a schedule, the last word first. -/
def extend : Nat → List Nat → List Nat
  | 0, words => words
  | n + 1, words =>
    let word := smallSigma1 (words.getD 1 0) + words.getD 6 0 + smallSigma0 (words.getD 14 0) +
      words.getD 15 0
    extend n (word % modulus :: words)

def schedule (block : List Nat) : List Nat := (extend 48 block.reverse).reverse

/-- One round, with its constant and its word. -/
def round (s : Chain) (constant word : Nat) : Chain :=
  let first := s.h + bigSigma1 s.e + choose s.e s.f s.g + constant + word
  let second := bigSigma0 s.a + majority s.a s.b s.c
  ⟨(first + second) % modulus, s.a, s.b, s.c, (s.d + first) % modulus, s.e, s.f, s.g⟩

def rounds (s : Chain) : List Nat → List Nat → Chain
  | constant :: constants, word :: words => rounds (round s constant word) constants words
  | _, _ => s

def compress (s : Chain) (block : List Nat) : Chain :=
  let t := rounds s roundConstants (schedule block)
  ⟨(s.a + t.a) % modulus, (s.b + t.b) % modulus, (s.c + t.c) % modulus, (s.d + t.d) % modulus,
    (s.e + t.e) % modulus, (s.f + t.f) % modulus, (s.g + t.g) % modulus, (s.h + t.h) % modulus⟩

/-- Four bytes are a word. -/
def toWords : List Nat → List Nat
  | a :: b :: c :: d :: rest => (((a * 256 + b) * 256 + c) * 256 + d) :: toWords rest
  | _ => []

/-- A one, zeros up to a whole number of blocks, and the number of bits. -/
def pad (bytes : List Nat) : List Nat :=
  let bits := 8 * bytes.length
  bytes ++ 128 :: (List.replicate ((119 - bytes.length % 64) % 64) 0 ++
    (List.range 8).map fun i => bits >>> (8 * (7 - i)) % 256)

/-- The blocks of a list of words, in order. -/
def compressAll : Nat → Chain → List Nat → Chain
  | 0, s, _ => s
  | n + 1, s, words => compressAll n (compress s (words.take 16)) (words.drop 16)

def hexWord (x : Nat) : List Char :=
  (List.range 8).map fun i => Nat.digitChar (x >>> (4 * (7 - i)) % 16)

/-- `text.encode("utf-8")`. -/
def encode (text : String) : List Nat :=
  (text.toList.flatMap String.utf8EncodeChar).map UInt8.toNat

def hexdigest (text : String) : String :=
  let words := toWords (pad (encode text))
  String.ofList ((compressAll (words.length / 16) initial words).words.flatMap hexWord)

theorem length_hexdigest (text : String) : (hexdigest text).toList.length = 64 := by
  simp [hexdigest, Chain.words, hexWord]

example : hexdigest "" = "e3b0c44298fc1c149afbf4c8996fb92427ae41e4649b934ca495991b7852b855" := by
  decide +kernel

example : hexdigest "a question whose id is longer than one block, so that a second one is hashed: é" = "c9f33ca45cc6150445094dc1e35e177d4c21500e18662310d425c36ccf7905b5" := by
  decide +kernel

end Sha256
