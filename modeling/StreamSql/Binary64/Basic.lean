/-!
# Binary floating point

Doubles as exact values: a finite one is `mantissa · 2 ^ (scale - 1074)` with its sign. Results are
rounded once, to the nearest double and to the even one of two that are equally near.
-/
namespace StreamSql

inductive Binary64 where
  | nan
  | infinite (negative : Bool)
  | finite (negative : Bool) (mantissa scale : Nat)
  deriving DecidableEq

namespace Binary64

def isFinite : Binary64 → Bool
  | .finite .. => true
  | _ => false

def isZero : Binary64 → Bool
  | .finite _ 0 _ => true
  | _ => false

def negate : Binary64 → Binary64
  | .nan => .nan
  | .infinite negative => .infinite (!negative)
  | .finite negative mantissa scale => .finite (!negative) mantissa scale

/-- The quotient to the nearest whole number, a half to the even one. -/
def divNearest (n d : Nat) : Nat :=
  let q := n / d
  let r := n % d
  if 2 * r > d || (2 * r == d && q % 2 == 1) then q + 1 else q

/-- A mantissa of 54 bits is a power of two here, and moves to the next scale. -/
def ofParts (negative : Bool) (mantissa scale : Nat) : Binary64 :=
  let carried := mantissa == 1 <<< 53
  let m := if carried then 1 <<< 52 else mantissa
  let s := if carried then scale + 1 else scale
  if s > 2045 then .infinite negative else .finite negative m s

/-- The double nearest to `n / d`. The scale is the least at which the quotient is below
`2 ^ 53`. -/
def ofRatio (negative : Bool) (n d : Nat) : Binary64 :=
  if n == 0 then
    .finite negative 0 0
  else
    let guess := ((n.log2 : Int) - d.log2 + 1021).toNat
    let top := n <<< 1074
    let scale := if top / (d <<< guess) < 1 <<< 53 then guess else guess + 1
    ofParts negative (divNearest top (d <<< scale)) scale

def ofNat (n : Nat) : Binary64 :=
  ofRatio false n 1

/-- The double nearest to a whole number. -/
def ofInt (n : Int) : Binary64 :=
  if n < 0 then ofRatio true n.natAbs 1 else ofNat n.natAbs

/-- The double nearest to `digits · 10 ^ exponent`. -/
def ofDecimal (negative : Bool) (digits : Nat) (exponent : Int) : Binary64 :=
  if exponent < 0 then ofRatio negative digits (Nat.pow 10 exponent.natAbs)
  else ofRatio negative (digits * Nat.pow 10 exponent.natAbs) 1

/-- Product and quotient are asked of finite numbers only; another operand gives not-a-number. -/
def mul : Binary64 → Binary64 → Binary64
  | .finite a m s, .finite b n t => ofRatio (a != b) ((m * n) <<< (s + t)) (1 <<< 2148)
  | _, _ => .nan

def div : Binary64 → Binary64 → Binary64
  | .finite a m s, .finite b n t =>
    if n == 0 then .nan else ofRatio (a != b) (m <<< s) (n <<< t)
  | _, _ => .nan

end Binary64

end StreamSql
