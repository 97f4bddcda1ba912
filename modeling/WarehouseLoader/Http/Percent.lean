import WarehouseLoader.Text.Utf8

/-!
# Percent encoding

Bytes that have a meaning of their own, or none, are written in a URL as a
percent sign and two hexadecimal digits. Which bytes those are depends on the
part of the URL. A percent sign that is there already stays as it is, so
encoding is not undone by decoding for a text that holds one.

A form encodes more: all but letters, digits and four marks, and a space as a
plus sign.
-/

namespace WarehouseLoader.Http

def hexDigit (n : Nat) : Char :=
  if n < 10 then Char.ofNat ('0'.toNat + n) else Char.ofNat ('A'.toNat + (n - 10))

def percentByte (b : UInt8) : List Char :=
  ['%', hexDigit (b.toNat / 16), hexDigit (b.toNat % 16)]

/-- A byte as the ASCII character it is, or percent-encoded where `reserved`
says so or it is none. -/
def encodeByte (reserved : Char → Bool) (b : UInt8) : List Char :=
  let c := Char.ofNat b.toNat
  if b.toNat < 0x20 || 0x7E < b.toNat || reserved c then percentByte b else [c]

def percentEncode (reserved : Char → Bool) (s : String) : String :=
  String.ofList ((Text.utf8 s).flatMap (encodeByte reserved))

def reservedInFragment (c : Char) : Bool :=
  c == ' ' || c == '"' || c == '<' || c == '>' || c.toNat == 0x60

def reservedInPath (c : Char) : Bool :=
  reservedInFragment c || c == '#' || c == '?' || c == '{' || c == '}'

def reservedInQuery (c : Char) : Bool :=
  c == ' ' || c == '"' || c == '#' || c == '<' || c == '>' || c == '\''

def isUnreservedInForm (c : Char) : Bool :=
  ('a' ≤ c && c ≤ 'z') || ('A' ≤ c && c ≤ 'Z') || ('0' ≤ c && c ≤ '9') ||
    c == '*' || c == '-' || c == '.' || c == '_'

def formByte (b : UInt8) : List Char :=
  if b.toNat == 0x20 then ['+'] else encodeByte (fun c => !isUnreservedInForm c) b

def formEncode (s : String) : String := String.ofList ((Text.utf8 s).flatMap formByte)

/-- Names and values as a form. -/
def form (fields : List (String × String)) : String :=
  "&".intercalate (fields.map fun f => formEncode f.1 ++ "=" ++ formEncode f.2)

def hexValue? (c : Char) : Option Nat :=
  if '0' ≤ c ∧ c ≤ '9' then some (c.toNat - '0'.toNat)
  else if 'a' ≤ c ∧ c ≤ 'f' then some (c.toNat - 'a'.toNat + 10)
  else if 'A' ≤ c ∧ c ≤ 'F' then some (c.toNat - 'A'.toNat + 10)
  else none

/-- The bytes of a text with every complete percent form decoded. -/
def percentDecode : List Char → List UInt8
  | [] => []
  | '%' :: a :: b :: rest =>
    match hexValue? a, hexValue? b with
    | some x, some y => UInt8.ofNat (16 * x + y) :: percentDecode rest
    | _, _ => Text.utf8 "%" ++ percentDecode (a :: b :: rest)
  | c :: rest => Text.utf8 (String.ofList [c]) ++ percentDecode rest

end WarehouseLoader.Http
