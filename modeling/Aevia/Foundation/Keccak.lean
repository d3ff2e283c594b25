import Aevia.Foundation.Bytes

/-!
# Keccak-256

The sponge over 1600 bits with the original padding, as the EVM computes it.
Lanes are 64-bit numbers and stand in rows of five. As with SHA-256, nothing is
proved of it but the length of a digest.
-/

set_option autoImplicit false

namespace Aevia.Keccak
open Aevia.Bytes

abbrev Lanes := List ℕ

def roundConstants : Lanes := [
  0x0000000000000001, 0x0000000000008082, 0x800000000000808a, 0x8000000080008000,
  0x000000000000808b, 0x0000000080000001, 0x8000000080008081, 0x8000000000008009,
  0x000000000000008a, 0x0000000000000088, 0x0000000080008009, 0x000000008000000a,
  0x000000008000808b, 0x800000000000008b, 0x8000000000008089, 0x8000000000008003,
  0x8000000000008002, 0x8000000000000080, 0x000000000000800a, 0x800000008000000a,
  0x8000000080008081, 0x8000000000008080, 0x0000000080000001, 0x8000000080008008]

def rotateLeft (n x : ℕ) : ℕ := (x*2^n)%2^64+x/2^(64-n)

def theta : Lanes → Lanes
  | [a0, a1, a2, a3, a4, b0, b1, b2, b3, b4, c0, c1, c2, c3, c4, d0, d1, d2, d3, d4,
      e0, e1, e2, e3, e4] =>
    let p0 := a0 ^^^ b0 ^^^ c0 ^^^ d0 ^^^ e0
    let p1 := a1 ^^^ b1 ^^^ c1 ^^^ d1 ^^^ e1
    let p2 := a2 ^^^ b2 ^^^ c2 ^^^ d2 ^^^ e2
    let p3 := a3 ^^^ b3 ^^^ c3 ^^^ d3 ^^^ e3
    let p4 := a4 ^^^ b4 ^^^ c4 ^^^ d4 ^^^ e4
    let q0 := p4 ^^^ rotateLeft 1 p1
    let q1 := p0 ^^^ rotateLeft 1 p2
    let q2 := p1 ^^^ rotateLeft 1 p3
    let q3 := p2 ^^^ rotateLeft 1 p4
    let q4 := p3 ^^^ rotateLeft 1 p0
    [a0 ^^^ q0, a1 ^^^ q1, a2 ^^^ q2, a3 ^^^ q3, a4 ^^^ q4,
      b0 ^^^ q0, b1 ^^^ q1, b2 ^^^ q2, b3 ^^^ q3, b4 ^^^ q4,
      c0 ^^^ q0, c1 ^^^ q1, c2 ^^^ q2, c3 ^^^ q3, c4 ^^^ q4,
      d0 ^^^ q0, d1 ^^^ q1, d2 ^^^ q2, d3 ^^^ q3, d4 ^^^ q4,
      e0 ^^^ q0, e1 ^^^ q1, e2 ^^^ q2, e3 ^^^ q3, e4 ^^^ q4]
  | s => s

/-- Every lane is rotated and moved to its new place. -/
def rhoPi : Lanes → Lanes
  | [a0, a1, a2, a3, a4, b0, b1, b2, b3, b4, c0, c1, c2, c3, c4, d0, d1, d2, d3, d4,
      e0, e1, e2, e3, e4] =>
    [a0, rotateLeft 44 b1, rotateLeft 43 c2, rotateLeft 21 d3, rotateLeft 14 e4,
      rotateLeft 28 a3, rotateLeft 20 b4, rotateLeft 3 c0, rotateLeft 45 d1, rotateLeft 61 e2,
      rotateLeft 1 a1, rotateLeft 6 b2, rotateLeft 25 c3, rotateLeft 8 d4, rotateLeft 18 e0,
      rotateLeft 27 a4, rotateLeft 36 b0, rotateLeft 10 c1, rotateLeft 15 d2, rotateLeft 56 e3,
      rotateLeft 62 a2, rotateLeft 55 b3, rotateLeft 39 c4, rotateLeft 41 d0, rotateLeft 2 e1]
  | s => s

def complement (x : ℕ) : ℕ := 2^64-1-x

def chi : Lanes → Lanes
  | a::b::c::d::e::rest =>
    (a ^^^ (complement b &&& c))::(b ^^^ (complement c &&& d))::(c ^^^ (complement d &&& e))::
      (d ^^^ (complement e &&& a))::(e ^^^ (complement a &&& b))::chi rest
  | s => s

def iota (k : ℕ) : Lanes → Lanes
  | [] => []
  | a::s => (a ^^^ k)::s

def permute (s : Lanes) : Lanes :=
  roundConstants.foldl (fun s k => iota k (chi (rhoPi (theta s)))) s

def rate : ℕ := 136

def pad (m : Bytes) : Bytes :=
  if m.length%rate = rate-1 then m++[0x81]
  else m++0x01::List.replicate (rate-2-m.length%rate) 0++[0x80]

def lanes : Bytes → Lanes
  | a::b::c::d::e::f::g::h::rest => ofBigEndian [h, g, f, e, d, c, b, a]::lanes rest
  | _ => []

def xorInto : Lanes → Lanes → Lanes
  | a::s, b::bs => (a ^^^ b)::xorInto s bs
  | s, _ => s

def absorb : ℕ → Bytes → Lanes → Lanes
  | 0, _, s => s
  | n+1, m, s => absorb n (m.drop rate) (permute (xorInto s (lanes (m.take rate))))

def digestSize : ℕ := 32

def keccak256 (m : Bytes) : Bytes :=
  let s := absorb ((pad m).length/rate) (pad m) (List.replicate 25 0)
  [s.getD 0 0, s.getD 1 0, s.getD 2 0, s.getD 3 0].flatMap (fun w => (bigEndian 8 w).reverse)

@[simp] theorem keccak256_length (m : Bytes) : (keccak256 m).length = digestSize := by
  simp [keccak256, digestSize]

example : keccak256 (ascii "abc") =
    [0x4e, 0x03, 0x65, 0x7a, 0xea, 0x45, 0xa9, 0x4f, 0xc7, 0xd4, 0x7b, 0xa8, 0x26, 0xc8, 0xd6, 0x67,
     0xc0, 0xd1, 0xe6, 0xe3, 0x3a, 0x64, 0xa0, 0x36, 0xec, 0x44, 0xf5, 0x8f, 0xa1, 0x2d, 0x6c, 0x45] := by
  decide +kernel

end Aevia.Keccak
