/-!
# UTF-8

Texts as bytes and back. A text has one form as bytes. Bytes that are no such
form are either refused as a whole or read with the replacement character for
each maximal part that is no character.
-/

namespace WarehouseLoader.Text

def utf8 (s : String) : List UInt8 := s.toList.flatMap String.utf8EncodeChar

/-- The range that the second byte of a character has to lie in, and how many
bytes follow the first. -/
def continuation? (first : Nat) : Option (Nat × Nat × Nat) :=
  if 0xC2 ≤ first ∧ first ≤ 0xDF then some (0x80, 0xBF, 1)
  else if first = 0xE0 then some (0xA0, 0xBF, 2)
  else if first = 0xED then some (0x80, 0x9F, 2)
  else if 0xE1 ≤ first ∧ first ≤ 0xEF then some (0x80, 0xBF, 2)
  else if first = 0xF0 then some (0x90, 0xBF, 3)
  else if first = 0xF4 then some (0x80, 0x8F, 3)
  else if 0xF1 ≤ first ∧ first ≤ 0xF3 then some (0x80, 0xBF, 3)
  else none

/-- What is being read: nothing, or a character with the bytes still to come,
the range of the next one and the value of those read. -/
inductive Utf8State where
  | between
  | within (remaining low high value : Nat)

/-- The bits that a first byte of a character with `following` more bytes
contributes. -/
def firstBits (first following : Nat) : Nat :=
  match following with
  | 1 => first - 0xC0
  | 2 => first - 0xE0
  | _ => first - 0xF0

/-- Starts a character. -/
def startUtf8 (b : Nat) : Option Char × Utf8State × Bool :=
  if b < 0x80 then (some (Char.ofNat b), .between, true)
  else
    match continuation? b with
    | some (low, high, following) =>
      (none, .within following low high (firstBits b following), true)
    | none => (none, .between, false)

/-- Reads on with the characters so far, the last first. A part that is no
character becomes `replacement`, or ends the reading when there is none. -/
def readUtf8 (replacement : Option Char) (state : Utf8State) (soFar : List Char) :
    List UInt8 → Option (List Char)
  | [] =>
    match state with
    | .between => some soFar.reverse
    | .within .. => replacement.map fun r => (r :: soFar).reverse
  | byte :: rest =>
    let b := byte.toNat
    let start (soFar : List Char) : Option (List Char × Utf8State) :=
      match startUtf8 b with
      | (some c, state, _) => some (c :: soFar, state)
      | (none, state, true) => some (soFar, state)
      | (none, state, false) => replacement.map fun r => (r :: soFar, state)
    let next :=
      match state with
      | .between => start soFar
      | .within remaining low high value =>
        if low ≤ b ∧ b ≤ high then
          let value := value * 64 + (b - 0x80)
          if remaining ≤ 1 then some (Char.ofNat value :: soFar, .between)
          else some (soFar, .within (remaining - 1) 0x80 0xBF value)
        else
          replacement.bind fun r => start (r :: soFar)
    match next with
    | some (soFar, state) => readUtf8 replacement state soFar rest
    | none => none

/-- The text of which the bytes are the form. -/
def ofUtf8? (bytes : List UInt8) : Option String :=
  (readUtf8 none .between [] bytes).map String.ofList

/-- The text of the bytes with every part that is no character replaced. -/
def ofUtf8Lossy (bytes : List UInt8) : String :=
  String.ofList ((readUtf8 (some '\uFFFD') .between [] bytes).getD [])

end WarehouseLoader.Text
