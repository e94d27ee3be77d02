/-
SHA-256 over byte lists.

A block runs 64 rounds; the message schedule is the window of its last 16
words, moved by one word a round.  The message is padded with a one bit, zeros
and its length in bits to a whole number of blocks.
-/

import Mathlib.Algebra.Group.Nat.Defs
import Mathlib.Data.List.Basic

namespace Sha256

/-! ### Words -/

def rotateRight (word : UInt32) (count : UInt32) : UInt32 :=
  (word >>> count) ||| (word <<< (32 - count))

def wordOfBytes (a b c d : UInt8) : UInt32 :=
  UInt32.ofNat (((a.toNat * 256 + b.toNat) * 256 + c.toNat) * 256 + d.toNat)

/-- Words are stored with the most significant byte first. -/
def readWords : List UInt8 → List UInt32
  | a :: b :: c :: d :: rest => wordOfBytes a b c d :: readWords rest
  | _ => []

def bytesOfWord (word : UInt32) : List UInt8 :=
  [ UInt8.ofNat (word.toNat / 256 ^ 3),
    UInt8.ofNat (word.toNat / 256 ^ 2),
    UInt8.ofNat (word.toNat / 256),
    UInt8.ofNat word.toNat ]

/-- The round constants: fractional parts of the cube roots of 64 primes. -/
def roundConstants : List UInt32 :=
  [ 0x428a2f98, 0x71374491, 0xb5c0fbcf, 0xe9b5dba5, 0x3956c25b, 0x59f111f1, 0x923f82a4,
    0xab1c5ed5, 0xd807aa98, 0x12835b01, 0x243185be, 0x550c7dc3, 0x72be5d74, 0x80deb1fe,
    0x9bdc06a7, 0xc19bf174, 0xe49b69c1, 0xefbe4786, 0x0fc19dc6, 0x240ca1cc, 0x2de92c6f,
    0x4a7484aa, 0x5cb0a9dc, 0x76f988da, 0x983e5152, 0xa831c66d, 0xb00327c8, 0xbf597fc7,
    0xc6e00bf3, 0xd5a79147, 0x06ca6351, 0x14292967, 0x27b70a85, 0x2e1b2138, 0x4d2c6dfc,
    0x53380d13, 0x650a7354, 0x766a0abb, 0x81c2c92e, 0x92722c85, 0xa2bfe8a1, 0xa81a664b,
    0xc24b8b70, 0xc76c51a3, 0xd192e819, 0xd6990624, 0xf40e3585, 0x106aa070, 0x19a4c116,
    0x1e376c08, 0x2748774c, 0x34b0bcb5, 0x391c0cb3, 0x4ed8aa4a, 0x5b9cca4f, 0x682e6ff3,
    0x748f82ee, 0x78a5636f, 0x84c87814, 0x8cc70208, 0x90befffa, 0xa4506ceb, 0xbef9a3f7,
    0xc67178f2 ]

/-! ### Compression -/

structure Chain where
  a : UInt32
  b : UInt32
  c : UInt32
  d : UInt32
  e : UInt32
  f : UInt32
  g : UInt32
  h : UInt32

def Chain.initial : Chain :=
  { a := 0x6a09e667
    b := 0xbb67ae85
    c := 0x3c6ef372
    d := 0xa54ff53a
    e := 0x510e527f
    f := 0x9b05688c
    g := 0x1f83d9ab
    h := 0x5be0cd19 }

def Chain.add (left right : Chain) : Chain :=
  { a := left.a + right.a
    b := left.b + right.b
    c := left.c + right.c
    d := left.d + right.d
    e := left.e + right.e
    f := left.f + right.f
    g := left.g + right.g
    h := left.h + right.h }

def Chain.round (chain : Chain) (constant word : UInt32) : Chain :=
  let sum1 :=
    rotateRight chain.e 6 ^^^ rotateRight chain.e 11 ^^^ rotateRight chain.e 25
  let choice := (chain.e &&& chain.f) ^^^ ((~~~chain.e) &&& chain.g)
  let first := chain.h + sum1 + choice + constant + word
  let sum0 :=
    rotateRight chain.a 2 ^^^ rotateRight chain.a 13 ^^^ rotateRight chain.a 22
  let majority := (chain.a &&& chain.b) ^^^ (chain.a &&& chain.c) ^^^ (chain.b &&& chain.c)
  { a := first + (sum0 + majority)
    b := chain.a
    c := chain.b
    d := chain.c
    e := chain.d + first
    f := chain.e
    g := chain.f
    h := chain.g }

/-- The word 16 places after the first of the window. -/
def nextWord (window : List UInt32) : UInt32 :=
  let before2 := window.getD 14 0
  let before15 := window.getD 1 0
  let sigma1 := rotateRight before2 17 ^^^ rotateRight before2 19 ^^^ (before2 >>> 10)
  let sigma0 := rotateRight before15 7 ^^^ rotateRight before15 18 ^^^ (before15 >>> 3)
  window.getD 0 0 + sigma0 + window.getD 9 0 + sigma1

def rounds : List UInt32 → List UInt32 → Chain → Chain
  | [], _window, chain => chain
  | constant :: constants, window, chain =>
      rounds constants (window.drop 1 ++ [nextWord window])
        (chain.round constant (window.getD 0 0))

def compress (chain : Chain) (block : List UInt8) : Chain :=
  chain.add (rounds roundConstants (readWords block) chain)

/-! ### The digest -/

def lengthBytes (length : Nat) : List UInt8 :=
  let bits := UInt64.ofNat (8 * length)
  (List.range 8).map fun index => UInt8.ofNat (bits.toNat / 256 ^ (7 - index))

def pad (message : List UInt8) : List UInt8 :=
  message ++ 0x80 :: List.replicate ((119 - message.length % 64) % 64) 0 ++
    lengthBytes message.length

def compressBlocks : Nat → List UInt8 → Chain → Chain
  | 0, _bytes, chain => chain
  | blocks + 1, bytes, chain =>
      compressBlocks blocks (bytes.drop 64) (compress chain (bytes.take 64))

def digest (message : List UInt8) : List UInt8 :=
  let padded := pad message
  let chain := compressBlocks (padded.length / 64) padded Chain.initial
  [chain.a, chain.b, chain.c, chain.d, chain.e, chain.f, chain.g, chain.h].flatMap bytesOfWord

/-- The digest of `abc`. -/
example : digest [97, 98, 99] =
    [ 0xba, 0x78, 0x16, 0xbf, 0x8f, 0x01, 0xcf, 0xea, 0x41, 0x41, 0x40, 0xde, 0x5d, 0xae,
      0x22, 0x23, 0xb0, 0x03, 0x61, 0xa3, 0x96, 0x17, 0x7a, 0x9c, 0xb4, 0x10, 0xff, 0x61,
      0xf2, 0x00, 0x15, 0xad ] := by
  decide +kernel

end Sha256
