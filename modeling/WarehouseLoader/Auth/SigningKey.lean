import WarehouseLoader.Error
import WarehouseLoader.Text.Base64
import WarehouseLoader.Text.Utf8

/-!
# Signing keys

A private key comes as text between two marker lines, in base 64, and is a tree
of tagged blocks. Two layouts are known: a bare RSA key, and a wrapping that
names the algorithm and holds the key in its first string of bytes.

A text that does not unwrap to an RSA key is refused before anything is signed.
A key that unwraps and then turns out not to be fit for signing is refused by
the signing itself, with the reason.
-/

namespace WarehouseLoader.Auth

/-! ### Blocks -/

inductive Block where
  | sequence (blocks : List Block)
  | octets (bytes : List UInt8)
  | object (identifier : List UInt8)
  | integer (bytes : List UInt8)
  | other
  deriving Inhabited

namespace Block

/-- The length that starts the bytes, and what follows it. -/
def length? : List UInt8 → Option (Nat × List UInt8)
  | [] => none
  | first :: rest =>
    if first.toNat < 0x80 then some (first.toNat, rest)
    else
      let count := first.toNat - 0x80
      if count = 0 ∨ 8 < count ∨ rest.length < count then none
      else
        some ((rest.take count).foldl (fun n b => n * 256 + b.toNat) 0, rest.drop count)

/-- One block's tag and content, and the bytes after it. -/
def head? : List UInt8 → Option (Nat × List UInt8 × List UInt8)
  | [] => none
  | tag :: rest =>
    (length? rest).bind fun (n, body) =>
      if body.length < n then none else some (tag.toNat, body.take n, body.drop n)

/-- All blocks of the bytes. Every block takes at least its tag, so `fuel` need
not exceed the number of bytes. -/
def readAll? : Nat → List UInt8 → Option (List Block)
  | _, [] => some []
  | 0, _ :: _ => none
  | fuel + 1, bytes =>
    (head? bytes).bind fun (tag, content, rest) =>
      let block? : Option Block :=
        if tag = 0x30 ∨ tag = 0x31 then (readAll? fuel content).map sequence
        else if tag = 0x04 then some (octets content)
        else if tag = 0x03 then
          (if content.isEmpty then none else some (octets (content.drop 1)))
        else if tag = 0x06 then some (object content)
        else if tag = 0x02 then
          (if content.isEmpty then none else some (integer content))
        else some other
      block?.bind fun block => (readAll? fuel rest).map (block :: ·)

def read? (bytes : List UInt8) : Option (List Block) := readAll? bytes.length bytes

mutual

/-- The first object identifier that names a kind of key, of those listed. -/
def algorithm? (known : List (List UInt8)) : Block → Option (List UInt8)
  | .object identifier => if identifier ∈ known then some identifier else none
  | .sequence blocks => firstAlgorithm? known blocks
  | _ => none

def firstAlgorithm? (known : List (List UInt8)) : List Block → Option (List UInt8)
  | [] => none
  | block :: rest => (algorithm? known block).or (firstAlgorithm? known rest)

end

mutual

def octets? : Block → Option (List UInt8)
  | .octets bytes => some bytes
  | .sequence blocks => firstOctets? blocks
  | _ => none

def firstOctets? : List Block → Option (List UInt8)
  | [] => none
  | block :: rest => (octets? block).or (firstOctets? rest)

end

end Block

def rsaIdentifier : List UInt8 := [0x2A, 0x86, 0x48, 0x86, 0xF7, 0x0D, 0x01, 0x01, 0x01]
def ellipticIdentifier : List UInt8 := [0x2A, 0x86, 0x48, 0xCE, 0x3D, 0x02, 0x01]
def edwardsIdentifier : List UInt8 := [0x2B, 0x65, 0x70]

/-! ### Texts -/

/-- What stands before `mark` and what stands after it. -/
def splitAtMark (mark : List Char) : List Char → Option (List Char × List Char)
  | [] => if mark.isEmpty then some ([], []) else none
  | c :: rest =>
    if mark.isPrefixOf (c :: rest) then some ([], (c :: rest).drop mark.length)
    else (splitAtMark mark rest).map fun (before, after) => (c :: before, after)

def isLineBlank (c : Char) : Bool := c == ' ' || c == '\t' || c == '\n' || c == '\r'

/-- The label and the bytes of an armoured text. -/
def armoured? (text : List Char) : Option (String × List UInt8) := do
  let (_, rest) ← splitAtMark "-----BEGIN ".toList text
  let (label, rest) ← splitAtMark "-----".toList rest
  let (body, rest) ← splitAtMark "-----END ".toList rest
  let (endLabel, _) ← splitAtMark "-----".toList rest
  if label.isEmpty ∨ label ≠ endLabel then none
  else
    let bytes ← Base64.decode? (body.filter (!isLineBlank ·))
    return (String.ofList label, bytes)

/-- A key that can be handed to the signing: the bytes of an RSA key. -/
structure SigningKey where
  bytes : List UInt8
  deriving DecidableEq

namespace SigningKey

def ofText? (text : String) : Option SigningKey := do
  let (label, bytes) ← armoured? text.toList
  let blocks ← Block.read? bytes
  if label = "RSA PRIVATE KEY" ∨ label = "RSA PUBLIC KEY" then
    return ⟨bytes⟩
  else if label ∈ ["PRIVATE KEY", "PUBLIC KEY", "CERTIFICATE"] then
    let known := [rsaIdentifier, ellipticIdentifier, edwardsIdentifier]
    if Block.firstAlgorithm? known blocks = some rsaIdentifier then
      (Block.firstOctets? blocks).map mk
    else
      none
  else
    none

def numberOf (bytes : List UInt8) : Nat := bytes.foldl (fun n b => n * 256 + b.toNat) 0

/-- Why the bytes cannot sign, if they cannot. -/
def flaw? (key : SigningKey) : Option String :=
  match Block.read? key.bytes with
  | some [.sequence [.integer version, .integer n, .integer _, .integer _,
      .integer p, .integer q, .integer _, .integer _, .integer _]] =>
    if numberOf version ≠ 0 then some "VersionNotSupported"
    else if (numberOf n).log2 + 1 < 2048 then some "TooSmall"
    else if 4096 < (numberOf n).log2 + 1 then some "TooLarge"
    else if numberOf p * numberOf q ≠ numberOf n then some "InconsistentComponents"
    else none
  | _ => some "InvalidEncoding"

end SigningKey

end WarehouseLoader.Auth
