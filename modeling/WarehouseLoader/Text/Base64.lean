/-!
# Base 64

Three bytes are four digits. Reading takes the standard digits, with the padding
that makes the length a multiple of four and without bits left over. Writing is
in the digits that are safe in URLs, without padding.
-/

namespace WarehouseLoader.Base64

def standardValue? (c : Char) : Option Nat :=
  if 'A' ≤ c ∧ c ≤ 'Z' then some (c.toNat - 'A'.toNat)
  else if 'a' ≤ c ∧ c ≤ 'z' then some (c.toNat - 'a'.toNat + 26)
  else if '0' ≤ c ∧ c ≤ '9' then some (c.toNat - '0'.toNat + 52)
  else if c = '+' then some 62
  else if c = '/' then some 63
  else none

/-- The bytes that digits write, without padding. -/
def ofDigits? : List Nat → Option (List UInt8)
  | a :: b :: c :: d :: rest =>
    (ofDigits? rest).map fun bytes =>
      UInt8.ofNat (a * 4 + b / 16) :: UInt8.ofNat (b % 16 * 16 + c / 4) ::
        UInt8.ofNat (c % 4 * 64 + d) :: bytes
  | [a, b, c] =>
    if c % 4 = 0 then some [UInt8.ofNat (a * 4 + b / 16), UInt8.ofNat (b % 16 * 16 + c / 4)]
    else none
  | [a, b] => if b % 16 = 0 then some [UInt8.ofNat (a * 4 + b / 16)] else none
  | [_] => none
  | [] => some []

def decode? (cs : List Char) : Option (List UInt8) :=
  let body := cs.takeWhile (· != '=')
  let padding := cs.dropWhile (· != '=')
  if cs.length % 4 = 0 ∧ padding.length ≤ 2 ∧ padding.all (· == '=') then
    (body.mapM standardValue?).bind ofDigits?
  else
    none

def urlDigit (n : Nat) : Char :=
  if n < 26 then Char.ofNat ('A'.toNat + n)
  else if n < 52 then Char.ofNat ('a'.toNat + (n - 26))
  else if n < 62 then Char.ofNat ('0'.toNat + (n - 52))
  else if n = 62 then '-' else '_'

def urlDigits : List UInt8 → List Nat
  | a :: b :: c :: rest =>
    a.toNat / 4 :: (a.toNat % 4 * 16 + b.toNat / 16) ::
      (b.toNat % 16 * 4 + c.toNat / 64) :: c.toNat % 64 ::
      urlDigits rest
  | [a, b] => [a.toNat / 4, a.toNat % 4 * 16 + b.toNat / 16, b.toNat % 16 * 4]
  | [a] => [a.toNat / 4, a.toNat % 4 * 16]
  | [] => []

def encodeForUrl (bytes : List UInt8) : String :=
  String.ofList ((urlDigits bytes).map urlDigit)

end WarehouseLoader.Base64
