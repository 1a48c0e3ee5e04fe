import TextToSqlAgent.Core.Sha256

/-!
# Digests of eight bytes

`hashlib.blake2b(text.encode(), digest_size=8).digest()`. Words are numbers below
`2 ^ 64`, the byte of the least weight first, and a block is sixteen of them.
-/

namespace Blake2b

def modulus : Nat := 0x10000000000000000

/-- The first bits of the fractional parts of the square roots of the first primes. -/
def initial : List Nat :=
  [0x6a09e667f3bcc908, 0xbb67ae8584caa73b, 0x3c6ef372fe94f82b, 0xa54ff53a5f1d36f1,
    0x510e527fade682d1, 0x9b05688c2b3e6c1f, 0x1f83d9abfb41bd6b, 0x5be0cd19137e2179]

/-- The order in which each round takes the words of a block. -/
def schedules : List (List Nat) :=
  [[0, 1, 2, 3, 4, 5, 6, 7, 8, 9, 10, 11, 12, 13, 14, 15],
    [14, 10, 4, 8, 9, 15, 13, 6, 1, 12, 0, 2, 11, 7, 5, 3],
    [11, 8, 12, 0, 5, 2, 15, 13, 10, 14, 3, 6, 7, 1, 9, 4],
    [7, 9, 3, 1, 13, 12, 11, 14, 2, 6, 5, 10, 4, 0, 15, 8],
    [9, 0, 5, 7, 2, 4, 10, 15, 14, 1, 11, 12, 6, 8, 3, 13],
    [2, 12, 6, 10, 0, 11, 8, 3, 4, 13, 7, 5, 15, 14, 1, 9],
    [12, 5, 1, 15, 14, 13, 4, 10, 0, 7, 6, 3, 9, 2, 8, 11],
    [13, 11, 7, 14, 12, 1, 3, 9, 5, 0, 15, 4, 8, 6, 2, 10],
    [6, 15, 14, 9, 11, 3, 0, 8, 12, 2, 13, 7, 1, 4, 10, 5],
    [10, 2, 8, 4, 7, 6, 1, 5, 15, 11, 9, 14, 3, 12, 13, 0],
    [0, 1, 2, 3, 4, 5, 6, 7, 8, 9, 10, 11, 12, 13, 14, 15],
    [14, 10, 4, 8, 9, 15, 13, 6, 1, 12, 0, 2, 11, 7, 5, 3]]

/-- Where each mixing of a round takes its four words: the columns, then the diagonals. -/
def places : List (Nat × Nat × Nat × Nat) :=
  [(0, 4, 8, 12), (1, 5, 9, 13), (2, 6, 10, 14), (3, 7, 11, 15), (0, 5, 10, 15),
    (1, 6, 11, 12), (2, 7, 8, 13), (3, 4, 9, 14)]

/-- A word turned to the right. -/
def rotate (n x : Nat) : Nat := (x >>> n) ||| (x <<< (64 - n)) % modulus

/-- Two words of the block mixed into four of the state. -/
def mix (v : List Nat) (place : Nat × Nat × Nat × Nat) (x y : Nat) : List Nat :=
  let (a, b, c, d) := place
  let va := (v.getD a 0 + v.getD b 0 + x) % modulus
  let vd := rotate 32 (v.getD d 0 ^^^ va)
  let vc := (v.getD c 0 + vd) % modulus
  let vb := rotate 24 (v.getD b 0 ^^^ vc)
  let wa := (va + vb + y) % modulus
  let wd := rotate 16 (vd ^^^ wa)
  let wc := (vc + wd) % modulus
  (((v.set a wa).set b (rotate 63 (vb ^^^ wc))).set c wc).set d wd

/-- One round: the words of the block in the order of its schedule. -/
def round (block v schedule : List Nat) : List Nat :=
  (places.zipIdx).foldl (fun v entry =>
    mix v entry.1 (block.getD (schedule.getD (2 * entry.2) 0) 0)
      (block.getD (schedule.getD (2 * entry.2 + 1) 0) 0)) v

/-- A block after so many bytes, itself included. -/
def compress (h block : List Nat) (bytes : Nat) (last : Bool) : List Nat :=
  let v := h ++ initial
  let v := v.set 12 (v.getD 12 0 ^^^ bytes % modulus)
  let v := v.set 13 (v.getD 13 0 ^^^ bytes / modulus % modulus)
  let v := if last then v.set 14 (v.getD 14 0 ^^^ (modulus - 1)) else v
  let v := schedules.foldl (round block) v
  (List.range 8).map fun i => h.getD i 0 ^^^ v.getD i 0 ^^^ v.getD (i + 8) 0

/-- Eight bytes are a word. -/
def toWords : List Nat → List Nat
  | a :: b :: c :: d :: e :: f :: g :: h :: rest =>
    (((((((h * 256 + g) * 256 + f) * 256 + e) * 256 + d) * 256 + c) * 256 + b) * 256 + a) ::
      toWords rest
  | _ => []

def pad (bytes : List Nat) : List Nat := bytes ++ List.replicate (128 - bytes.length) 0

/-- The blocks of a text, the last of which may be short, or empty if it is the first. -/
def absorb : Nat → List Nat → Nat → List Nat → List Nat
  | 0, h, _, _ => h
  | fuel + 1, h, before, bytes =>
    if bytes.length ≤ 128 then compress h (toWords (pad bytes)) (before + bytes.length) true
    else absorb fuel (compress h (toWords (bytes.take 128)) (before + 128) false) (before + 128)
      (bytes.drop 128)

/-- What is hashed begins with the size of the digest; there is no key and no tree. -/
def chain (text : String) : List Nat :=
  let bytes := Sha256.encode text
  absorb (bytes.length / 128 + 1) (initial.set 0 (initial.getD 0 0 ^^^ 0x01010008)) 0 bytes

/-- `digest()`. -/
def digest (text : String) : List Nat :=
  (List.range 8).map fun i => (chain text).getD 0 0 >>> (8 * i) % 256

/-- `int.from_bytes(_, "big")`. -/
def fromBytes (bytes : List Nat) : Nat := bytes.foldl (fun value byte => value * 256 + byte) 0

example : fromBytes (digest "") = 0xe4a6a0577479b2b4 := by decide +kernel

example : fromBytes (digest (String.ofList (List.replicate 128 'a'))) = 0xf06643fe9c7e18da := by
  decide +kernel

example : fromBytes (digest (String.ofList (List.replicate 200 'a'))) = 0xb40af6d2f2f34472 := by
  decide +kernel

end Blake2b
