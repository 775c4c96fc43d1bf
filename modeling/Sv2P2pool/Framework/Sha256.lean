import Sv2P2pool.Framework.Codec

/-! # SHA-256

    The hash function of FIPS 180-4 on byte strings. Words are natural numbers
    below `2 ^ 32`: every sum is reduced, and the bitwise operations stay below
    the bound by themselves. All functions recurse on lists or on the number of
    blocks, so that the kernel can evaluate them.
-/

namespace Sha256

open ByteCodec

/-- The first 32 bits of the fractional parts of the cube roots of the first
    64 primes. -/
def roundConstants : List Nat :=
  [0x428a2f98, 0x71374491, 0xb5c0fbcf, 0xe9b5dba5, 0x3956c25b, 0x59f111f1, 0x923f82a4, 0xab1c5ed5,
   0xd807aa98, 0x12835b01, 0x243185be, 0x550c7dc3, 0x72be5d74, 0x80deb1fe, 0x9bdc06a7, 0xc19bf174,
   0xe49b69c1, 0xefbe4786, 0x0fc19dc6, 0x240ca1cc, 0x2de92c6f, 0x4a7484aa, 0x5cb0a9dc, 0x76f988da,
   0x983e5152, 0xa831c66d, 0xb00327c8, 0xbf597fc7, 0xc6e00bf3, 0xd5a79147, 0x06ca6351, 0x14292967,
   0x27b70a85, 0x2e1b2138, 0x4d2c6dfc, 0x53380d13, 0x650a7354, 0x766a0abb, 0x81c2c92e, 0x92722c85,
   0xa2bfe8a1, 0xa81a664b, 0xc24b8b70, 0xc76c51a3, 0xd192e819, 0xd6990624, 0xf40e3585, 0x106aa070,
   0x19a4c116, 0x1e376c08, 0x2748774c, 0x34b0bcb5, 0x391c0cb3, 0x4ed8aa4a, 0x5b9cca4f, 0x682e6ff3,
   0x748f82ee, 0x78a5636f, 0x84c87814, 0x8cc70208, 0x90befffa, 0xa4506ceb, 0xbef9a3f7, 0xc67178f2]

/-- The eight working variables. -/
structure State where
  a : Nat
  b : Nat
  c : Nat
  d : Nat
  e : Nat
  f : Nat
  g : Nat
  h : Nat

def State.init : State :=
  ⟨0x6a09e667, 0xbb67ae85, 0x3c6ef372, 0xa54ff53a, 0x510e527f, 0x9b05688c, 0x1f83d9ab, 0x5be0cd19⟩

def rotr (x n : Nat) : Nat := ((x >>> n) ||| (x <<< (32 - n))) % 2 ^ 32

def ch (x y z : Nat) : Nat := (x &&& y) ^^^ ((2 ^ 32 - 1 - x) &&& z)

def maj (x y z : Nat) : Nat := (x &&& y) ^^^ (x &&& z) ^^^ (y &&& z)

def round : State → Nat → Nat → State
  | ⟨a, b, c, d, e, f, g, h⟩, k, w =>
    let t1 := h + (rotr e 6 ^^^ rotr e 11 ^^^ rotr e 25) + ch e f g + k + w
    let t2 := (rotr a 2 ^^^ rotr a 13 ^^^ rotr a 22) + maj a b c
    ⟨(t1 + t2) % 2 ^ 32, a, b, c, (d + t1) % 2 ^ 32, e, f, g⟩

/-- The next word of the message schedule, from the words so far, latest
    first. -/
def nextWord (ws : List Nat) : Nat :=
  let w15 := ws.getD 14 0
  let w2 := ws.getD 1 0
  ((rotr w2 17 ^^^ rotr w2 19 ^^^ (w2 >>> 10)) + ws.getD 6 0 +
    (rotr w15 7 ^^^ rotr w15 18 ^^^ (w15 >>> 3)) + ws.getD 15 0) % 2 ^ 32

/-- Extend the schedule by a number of words. -/
def schedule : Nat → List Nat → List Nat
  | 0, ws => ws
  | n + 1, ws => schedule n (nextWord ws :: ws)

def rounds : List Nat → List Nat → State → State
  | k :: ks, w :: ws, s => rounds ks ws (round s k w)
  | _, _, s => s

def compress (s : State) (w : List Nat) : State :=
  -- 16 words of the block and 48 more, one for each constant
  let t := rounds roundConstants (schedule 48 w.reverse).reverse s
  ⟨(s.a + t.a) % 2 ^ 32, (s.b + t.b) % 2 ^ 32, (s.c + t.c) % 2 ^ 32, (s.d + t.d) % 2 ^ 32,
   (s.e + t.e) % 2 ^ 32, (s.f + t.f) % 2 ^ 32, (s.g + t.g) % 2 ^ 32, (s.h + t.h) % 2 ^ 32⟩

/-- Big-endian words of a byte string. -/
def words : Bytes → List Nat
  | a :: b :: c :: d :: l =>
    (a.toNat * 2 ^ 24 + b.toNat * 2 ^ 16 + c.toNat * 2 ^ 8 + d.toNat) :: words l
  | _ => []

def wordBytes (n : Nat) : Bytes := (encodeLE 4 n).reverse

/-- Compress a number of 16-word blocks. -/
def blocks : Nat → List Nat → State → State
  | 0, _, s => s
  | n + 1, w, s => blocks n (w.drop 16) (compress s (w.take 16))

/-- The delimiter, zeros up to 8 bytes before a block boundary, and the bit
    length. -/
def pad (bs : Bytes) : Bytes :=
  bs ++ [0x80] ++ List.replicate ((119 - bs.length % 64) % 64) 0 ++
    (encodeLE 8 (8 * bs.length)).reverse

def hash (bs : Bytes) : Bytes :=
  let m := pad bs
  let s := blocks (m.length / 64) (words m) State.init
  wordBytes s.a ++ wordBytes s.b ++ wordBytes s.c ++ wordBytes s.d ++
    wordBytes s.e ++ wordBytes s.f ++ wordBytes s.g ++ wordBytes s.h

@[simp] theorem wordBytes_length (n : Nat) : (wordBytes n).length = 4 := by
  simp [wordBytes, encodeLE_length]

@[simp] theorem hash_length (bs : Bytes) : (hash bs).length = 32 := by
  simp only [hash, List.length_append, wordBytes_length]

/-- The one-block example of FIPS 180-4, the string `abc`. -/
example : hash [0x61, 0x62, 0x63] =
    [0xba, 0x78, 0x16, 0xbf, 0x8f, 0x01, 0xcf, 0xea, 0x41, 0x41, 0x40, 0xde, 0x5d, 0xae, 0x22, 0x23,
     0xb0, 0x03, 0x61, 0xa3, 0x96, 0x17, 0x7a, 0x9c, 0xb4, 0x10, 0xff, 0x61, 0xf2, 0x00, 0x15,
     0xad] := by
  decide +kernel

end Sha256
