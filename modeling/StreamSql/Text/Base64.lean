/-!
# Base 64

Three bytes are written as four characters of six bits each. A last group that is not full is
filled up with equals signs.
-/
namespace StreamSql.Text

def base64Digits : List Char :=
  "ABCDEFGHIJKLMNOPQRSTUVWXYZabcdefghijklmnopqrstuvwxyz0123456789+/".toList

def base64Digit (n : Nat) : Char :=
  (base64Digits[n % 64]?).getD 'A'

/-- The first `count` digits of a group of 24 bits. -/
def base64Group (count bits : Nat) : List Char :=
  ([bits >>> 18, bits >>> 12, bits >>> 6, bits].take count).map base64Digit ++
    List.replicate (4 - count) '='

def base64 : List UInt8 → List Char
  | [] => []
  | [a] => base64Group 2 (a.toNat <<< 16)
  | [a, b] => base64Group 3 ((a.toNat <<< 16) + (b.toNat <<< 8))
  | a :: b :: c :: bytes =>
    base64Group 4 ((a.toNat <<< 16) + (b.toNat <<< 8) + c.toNat) ++ base64 bytes

/-- The bytes of a text are those of its UTF-8 form. -/
def base64OfText (s : String) : String :=
  String.ofList (base64 s.toUTF8.toList)

end StreamSql.Text
