import Aevia.Foundation.Bytes

/-!
# SHA-256

The hash of FIPS 180-4 over byte strings, computed block by block on 32-bit
words. Only the digest length is proved of it; what a proof needs beyond that
is an assumption on the inputs it hashes.
-/

set_option autoImplicit false

namespace Aevia.Sha256
open Aevia.Bytes

def roundConstants : List UInt32 := [
  0x428a2f98, 0x71374491, 0xb5c0fbcf, 0xe9b5dba5, 0x3956c25b, 0x59f111f1, 0x923f82a4, 0xab1c5ed5,
  0xd807aa98, 0x12835b01, 0x243185be, 0x550c7dc3, 0x72be5d74, 0x80deb1fe, 0x9bdc06a7, 0xc19bf174,
  0xe49b69c1, 0xefbe4786, 0x0fc19dc6, 0x240ca1cc, 0x2de92c6f, 0x4a7484aa, 0x5cb0a9dc, 0x76f988da,
  0x983e5152, 0xa831c66d, 0xb00327c8, 0xbf597fc7, 0xc6e00bf3, 0xd5a79147, 0x06ca6351, 0x14292967,
  0x27b70a85, 0x2e1b2138, 0x4d2c6dfc, 0x53380d13, 0x650a7354, 0x766a0abb, 0x81c2c92e, 0x92722c85,
  0xa2bfe8a1, 0xa81a664b, 0xc24b8b70, 0xc76c51a3, 0xd192e819, 0xd6990624, 0xf40e3585, 0x106aa070,
  0x19a4c116, 0x1e376c08, 0x2748774c, 0x34b0bcb5, 0x391c0cb3, 0x4ed8aa4a, 0x5b9cca4f, 0x682e6ff3,
  0x748f82ee, 0x78a5636f, 0x84c87814, 0x8cc70208, 0x90befffa, 0xa4506ceb, 0xbef9a3f7, 0xc67178f2]

structure Words where
  (a b c d e f g h : UInt32)

def initial : Words :=
  ⟨0x6a09e667, 0xbb67ae85, 0x3c6ef372, 0xa54ff53a, 0x510e527f, 0x9b05688c, 0x1f83d9ab, 0x5be0cd19⟩

def rotateRight (x n : UInt32) : UInt32 := (x >>> n) ||| (x <<< (32-n))

def round (s : Words) (k w : UInt32) : Words :=
  let sigma1 := rotateRight s.e 6 ^^^ rotateRight s.e 11 ^^^ rotateRight s.e 25
  let choice := (s.e &&& s.f) ^^^ (~~~s.e &&& s.g)
  let first := s.h+sigma1+choice+k+w
  let sigma0 := rotateRight s.a 2 ^^^ rotateRight s.a 13 ^^^ rotateRight s.a 22
  let majority := (s.a &&& s.b) ^^^ (s.a &&& s.c) ^^^ (s.b &&& s.c)
  ⟨first+(sigma0+majority), s.a, s.b, s.c, s.d+first, s.e, s.f, s.g⟩

def rounds : List UInt32 → List UInt32 → Words → Words
  | k::ks, [w0, w1, w2, w3, w4, w5, w6, w7, w8, w9, w10, w11, w12, w13, w14, w15], s =>
    let small0 := rotateRight w1 7 ^^^ rotateRight w1 18 ^^^ (w1 >>> 3)
    let small1 := rotateRight w14 17 ^^^ rotateRight w14 19 ^^^ (w14 >>> 10)
    rounds ks [w1, w2, w3, w4, w5, w6, w7, w8, w9, w10, w11, w12, w13, w14, w15,
      w0+small0+w9+small1] (round s k w0)
  | _, _, s => s

def words : Bytes → List UInt32
  | a::b::c::d::rest =>
    (a.toUInt32 <<< 24 ||| b.toUInt32 <<< 16 ||| c.toUInt32 <<< 8 ||| d.toUInt32)::words rest
  | _ => []

def compress (s : Words) (block : Bytes) : Words :=
  let t := rounds roundConstants (words block) s
  ⟨s.a+t.a, s.b+t.b, s.c+t.c, s.d+t.d, s.e+t.e, s.f+t.f, s.g+t.g, s.h+t.h⟩

def pad (m : Bytes) : Bytes :=
  m++0x80::List.replicate ((119-m.length%64)%64) 0++bigEndian 8 (8*m.length)

def blocks : ℕ → Bytes → List Bytes
  | 0, _ => []
  | n+1, b => b.take 64::blocks n (b.drop 64)

def digest (s : Words) : Bytes :=
  [s.a, s.b, s.c, s.d, s.e, s.f, s.g, s.h].flatMap (fun w => bigEndian 4 w.toNat)

def sha256 (m : Bytes) : Bytes :=
  digest ((blocks ((pad m).length/64) (pad m)).foldl compress initial)

def digestSize : ℕ := 32

@[simp] theorem sha256_length (m : Bytes) : (sha256 m).length = digestSize := by
  simp [sha256, digest, digestSize]

example : sha256 (ascii "abc") =
    [0xba, 0x78, 0x16, 0xbf, 0x8f, 0x01, 0xcf, 0xea, 0x41, 0x41, 0x40, 0xde, 0x5d, 0xae, 0x22, 0x23,
     0xb0, 0x03, 0x61, 0xa3, 0x96, 0x17, 0x7a, 0x9c, 0xb4, 0x10, 0xff, 0x61, 0xf2, 0x00, 0x15, 0xad] := by
  decide +kernel

end Aevia.Sha256
