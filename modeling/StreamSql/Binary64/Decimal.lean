import StreamSql.Binary64.Basic

/-!
# Doubles as decimals

A double is written as the decimal with the fewest digits among those that lie nearer to it than
to any other double, and of these as the nearest one; of two equally near, the greater. In
statements it is positional throughout. In JSON the point stays within the first seventeen places
and beyond that an exponent is written.
-/
namespace StreamSql.Binary64

/-- `digits · 10 ^ exponent` -/
structure Decimal where
  digits : Nat
  exponent : Int
  deriving DecidableEq

/-- The grid point nearest to the double, if it lies among the reals that round to it. All four
lengths are counted in quarters of the double's last place, so that they are whole. -/
def gridPoint? (mantissa scale : Nat) (exponent : Int) : Option Nat :=
  let up := Nat.pow 10 (-exponent).toNat
  let unit := Nat.pow 10 exponent.toNat <<< 1076
  let value := ((4 * mantissa) <<< scale) * up
  let high := ((4 * mantissa + 2) <<< scale) * up
  let gap := if mantissa == 1 <<< 52 && scale > 0 then 1 else 2
  let low := ((4 * mantissa - gap) <<< scale) * up
  let within (n : Nat) : Bool :=
    if mantissa % 2 == 0 then low ≤ n * unit && n * unit ≤ high
    else low < n * unit && n * unit < high
  let below := value / unit
  let nearest := if 2 * (value % unit) < unit then below else below + 1
  if within nearest then some nearest
  else if within below then some below
  else if within (below + 1) then some (below + 1)
  else none

/-- The coarsest grid with a point, searched from `10 ^ 308` down. -/
def coarsest (mantissa scale : Nat) : Nat → Decimal
  | 0 => ⟨0, 0⟩
  | n + 1 =>
    let exponent : Int := (n : Int) - 343
    match gridPoint? mantissa scale exponent with
    | some digits => ⟨digits, exponent⟩
    | none => coarsest mantissa scale n

def shortest (mantissa scale : Nat) : Decimal :=
  if mantissa == 0 then ⟨0, 0⟩ else coarsest mantissa scale 652

def zeros (n : Nat) : String :=
  String.ofList (List.replicate n '0')

/-- Writes the digits with the point after the first `whole`, filled up with zeros. -/
def placePoint (digits : String) (whole : Int) : String :=
  if whole ≤ 0 then
    "0." ++ zeros whole.natAbs ++ digits
  else if digits.length ≤ whole.natAbs then
    digits ++ zeros (whole.natAbs - digits.length)
  else
    String.ofList (digits.toList.take whole.natAbs) ++ "." ++
      String.ofList (digits.toList.drop whole.natAbs)

/-- The count of digits before the point. -/
def Decimal.whole (d : Decimal) : Int :=
  (toString d.digits).length + d.exponent

def Decimal.positional (d : Decimal) : String :=
  placePoint (toString d.digits) d.whole

def sign (negative : Bool) : String :=
  if negative then "-" else ""

/-- The text in statements: no exponent, and no point in a whole number. -/
def text : Binary64 → String
  | .nan => "NaN"
  | .infinite negative => sign negative ++ "inf"
  | .finite negative mantissa scale => sign negative ++ (shortest mantissa scale).positional

/-- One digit before the point, and an exponent. -/
def Decimal.scientific (d : Decimal) : String :=
  let digits := toString d.digits
  let rest := String.ofList (digits.toList.drop 1)
  let point := if rest.isEmpty then "" else "."
  String.ofList (digits.toList.take 1) ++ point ++ rest ++ "e" ++ toString (d.whole - 1)

/-- The text in JSON documents. JSON has no spelling for the other doubles, which become null. -/
def json : Binary64 → String
  | .finite negative mantissa scale =>
    let d := shortest mantissa scale
    let body :=
      if mantissa == 0 then "0.0"
      else if d.exponent ≥ 0 && d.whole ≤ 16 then d.positional ++ ".0"
      else if -5 < d.whole && d.whole ≤ 16 then d.positional
      else d.scientific
    sign negative ++ body
  | _ => "null"

end StreamSql.Binary64
