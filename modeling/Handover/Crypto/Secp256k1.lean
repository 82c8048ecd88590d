import Handover.Crypto.Sha256

/-!
# The curve of the keys

Points of `y² = x³ + 7` over the field of `p` elements, with the generator of order `n`. Points
are added in projective coordinates, where `(x, y, z)` stands for `(x / z², y / z³)` and `z = 0`
is the neutral point, so that only one inverse is taken at the end.
-/

namespace Handover.Secp256k1

/-- The size of the field. -/
def p : Nat :=
  0xfffffffffffffffffffffffffffffffffffffffffffffffffffffffefffffc2f

/-- The order of the generator. -/
def n : Nat := 0xfffffffffffffffffffffffffffffffebaaedce6af48a03bbfd25e8cd0364141

/-- The number that big-endian bytes spell. -/
def ofBytes (bs : Bytes) : Nat :=
  bs.foldl (fun n b => n * 256 + b.toNat) 0

/-- The thirty-two bytes of a number. -/
def toBytes (n : Nat) : Bytes :=
  Sha256.bigEndian 32 n

/-- `base ^ e % m`, for an exponent below `2 ^ bits`. -/
def powMod (m base e : Nat) : Nat → Nat
  | 0 => 1 % m
  | bits + 1 =>
    let half := powMod m base (e / 2) bits
    let square := half * half % m
    if e % 2 = 1 then square * base % m else square

/-- The inverse modulo a prime. -/
def inverse (m a : Nat) : Nat :=
  powMod m (a % m) (m - 2) 256

/-- The difference modulo `p`, for numbers below `p`. -/
def sub (a b : Nat) : Nat :=
  (a + p - b) % p

/-- A point by its coordinates. -/
structure Point where
  x : Nat
  y : Nat
  deriving DecidableEq, Repr

/-- Whether the coordinates are in the field and on the curve. -/
def Point.isOnCurve (q : Point) : Bool :=
  decide (q.x < p) && decide (q.y < p) && q.y * q.y % p == (q.x * q.x * q.x + 7) % p

/-- The generator. -/
def generator : Point :=
  ⟨0x79be667ef9dcbbac55a06295ce870b07029bfcdb2dce28d959f2815b16f81798,
    0x483ada7726a3c4655da4fbfc0e1108a8fd17b448a68554199c47d08ffb10d4b8⟩

/-- A point or the neutral element, in projective coordinates. -/
structure Projective where
  x : Nat
  y : Nat
  z : Nat
  deriving DecidableEq, Repr

namespace Projective

/-- The neutral element. -/
def zero : Projective :=
  ⟨1, 1, 0⟩

/-- A point in projective coordinates. -/
def ofPoint (q : Point) : Projective :=
  ⟨q.x, q.y, 1⟩

/-- The point, unless this is the neutral element. -/
def toPoint? (q : Projective) : Option Point :=
  if q.z = 0 then none
  else
    let i := inverse p q.z
    let ii := i * i % p
    some ⟨q.x * ii % p, q.y * ii % p * i % p⟩

/-- Twice a point. -/
def double (q : Projective) : Projective :=
  if q.z = 0 || q.y = 0 then zero
  else
    let yy := q.y * q.y % p
    let s := 4 * q.x * yy % p
    let m := 3 * q.x * q.x % p
    let x := sub (m * m % p) (2 * s % p)
    let y := sub (m * sub s x % p) (8 * yy * yy % p)
    ⟨x, y, 2 * q.y * q.z % p⟩

/-- The sum of two points. -/
def add (q r : Projective) : Projective :=
  if q.z = 0 then r
  else if r.z = 0 then q
  else
    let qzz := q.z * q.z % p
    let rzz := r.z * r.z % p
    let u := q.x * rzz % p
    let v := r.x * qzz % p
    let s := q.y * rzz % p * r.z % p
    let t := r.y * qzz % p * q.z % p
    if u = v then
      if s = t then double q else zero
    else
      let h := sub v u
      let k := sub t s
      let hh := h * h % p
      let hhh := hh * h % p
      let w := u * hh % p
      let x := sub (k * k % p) ((hhh + 2 * w) % p)
      let y := sub (k * sub w x % p) (s * hhh % p)
      ⟨x, y, h * q.z % p * r.z % p⟩

/-- The multiple of a point by a number below `2 ^ bits`. -/
def scale (q : Projective) (k : Nat) : Nat → Projective
  | 0 => zero
  | bits + 1 =>
    let half := scale q (k / 2) bits
    let even := half.double
    if k % 2 = 1 then even.add q else even

end Projective

/-! ## Points as bytes -/

/-- A point in thirty-three bytes : the parity of `y` and `x`. -/
def Point.compressed (q : Point) : Bytes :=
  (if q.y % 2 = 1 then 0x03 else 0x02) :: toBytes q.x

/-- The point with a given `x` and parity of `y`, if there is one. -/
def Point.ofX? (x : Nat) (odd : Bool) : Option Point :=
  let square := (x * x * x + 7) % p
  let root := powMod p square ((p + 1) / 4) 256
  let y := if (root % 2 == 1) == odd then root else p - root
  let q : Point := ⟨x, y⟩
  if q.isOnCurve then some q else none

/-- The point of bytes, compressed or with both coordinates. A compact one has an even `y`. -/
def Point.ofBytes? : Bytes → Option Point
  | [] => none
  | tag :: bs =>
    if bs.length = 32 ∧ (tag = 2 ∨ tag = 3 ∨ tag = 5) then Point.ofX? (ofBytes bs) (tag == 3)
    else if bs.length = 64 ∧ tag = 4 then
      let q : Point := ⟨ofBytes (bs.take 32), ofBytes (bs.drop 32)⟩
      if q.isOnCurve then some q else none
    else none

end Handover.Secp256k1
