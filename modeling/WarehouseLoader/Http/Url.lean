import WarehouseLoader.Error
import WarehouseLoader.Http.Percent

/-!
# URLs

A text is read as a URL by the rules of the web. The schemes of the web are
special: their URLs have a host, a backslash counts as a slash, and any number
of slashes may stand before the host. Of the path, the segments that mean "here"
and "one up" are resolved, and every other segment is percent-encoded as far as
it has to be. A fragment is not part of what is sent and is dropped.

A host is read as an address in brackets, as an address of four numbers when its
last label is a number, and otherwise as a domain. Letters outside ASCII are
kept as they are.
-/

namespace WarehouseLoader.Http

structure Url where
  scheme : String
  /-- The host in its canonical form; a URL of a scheme without hosts has
  none. -/
  host : Option String
  port : Option Nat
  /-- The encoded segments of the path, at least one. -/
  segments : List String
  query : Option String
  deriving DecidableEq, Repr, Inhabited

namespace Url

inductive SchemeKind where
  | web
  | file
  | other
  deriving DecidableEq, Repr

def schemeKind (scheme : String) : SchemeKind :=
  if scheme ∈ ["http", "https", "ws", "wss", "ftp"] then .web
  else if scheme = "file" then .file
  else .other

def defaultPort? (scheme : String) : Option Nat :=
  if scheme = "http" ∨ scheme = "ws" then some 80
  else if scheme = "https" ∨ scheme = "wss" then some 443
  else if scheme = "ftp" then some 21
  else none

def isEdge (c : Char) : Bool := c.toNat ≤ 0x20

def isIgnored (c : Char) : Bool := c == '\t' || c == '\n' || c == '\r'

/-- A text without control characters and spaces at its ends, and without tabs
and line ends anywhere. -/
def cleaned (cs : List Char) : List Char :=
  (((cs.dropWhile isEdge).reverse.dropWhile isEdge).reverse).filter (!isIgnored ·)

def isAlpha (c : Char) : Bool := ('a' ≤ c && c ≤ 'z') || ('A' ≤ c && c ≤ 'Z')

def isDigit (c : Char) : Bool := '0' ≤ c && c ≤ '9'

def lowerAscii (c : Char) : Char :=
  if 'A' ≤ c ∧ c ≤ 'Z' then Char.ofNat (c.toNat + 32) else c

/-- The scheme and what follows its colon. -/
def scheme? (cs : List Char) : Option (String × List Char) :=
  let inScheme (c : Char) : Bool :=
    isAlpha c || isDigit c || c == '+' || c == '-' || c == '.'
  match cs.takeWhile inScheme, cs.dropWhile inScheme with
  | first :: more, ':' :: rest =>
    if isAlpha first then some (String.ofList ((first :: more).map lowerAscii), rest)
    else none
  | _, _ => none

def endsAuthority (kind : SchemeKind) (c : Char) : Bool :=
  c == '/' || c == '?' || c == '#' || (c == '\\' && kind != .other)

/-! ### Hosts -/

/-- Parts between separators; a text without one is a single part. -/
def splitBy (isSeparator : Char → Bool) : List Char → List (List Char)
  | [] => [[]]
  | c :: rest =>
    if isSeparator c then [] :: splitBy isSeparator rest
    else
      match splitBy isSeparator rest with
      | [] => [[c]]
      | part :: parts => (c :: part) :: parts

def digitsIn? (base : Nat) (cs : List Char) : Option Nat :=
  cs.foldl (fun acc c => acc.bind fun n =>
    (hexValue? c).bind fun d => if d < base then some (n * base + d) else none) (some 0)

/-- A part of an address of numbers: hexadecimal, octal or decimal by how it
starts. -/
def ipv4Number? (cs : List Char) : Option Nat :=
  match cs with
  | [] => none
  | '0' :: 'x' :: digits => digitsIn? 16 digits
  | '0' :: 'X' :: digits => digitsIn? 16 digits
  | '0' :: digit :: digits => digitsIn? 8 (digit :: digits)
  | digits => digitsIn? 10 digits

/-- The labels of a domain; an empty one at the end does not count. -/
def labels (cs : List Char) : List (List Char) :=
  let parts := splitBy (· == '.') cs
  match parts.reverse with
  | [] :: first :: rest => (first :: rest).reverse
  | _ => parts

def endsInNumber (cs : List Char) : Bool :=
  match (labels cs).getLast? with
  | none => false
  | some last =>
    (!last.isEmpty && last.all isDigit) ||
      (last.take 2 == ['0', 'x'] && (ipv4Number? last).isSome)

/-- The address that numbers stand for: all but the last are one byte, and the
last fills the rest. -/
def ipv4? (cs : List Char) : Option Nat :=
  let parts := labels cs
  if 4 < parts.length then none else
  match (parts.mapM ipv4Number?).map List.reverse with
  | some (last :: before) =>
    let room := Nat.pow 256 (4 - before.length)
    if before.all (· < 256) && last < room then
      some ((before.reverse.foldl (fun acc n => acc * 256 + n) 0) * room + last)
    else
      none
  | _ => none

def ipv4Text (n : Nat) : String :=
  s!"{n / 16777216 % 256}.{n / 65536 % 256}.{n / 256 % 256}.{n % 256}"

/-- The groups of one side of an address in brackets; the last may be written as
four decimal bytes. -/
def ipv6Groups? (mayEndInBytes : Bool) (cs : List Char) : Option (List Nat) :=
  if cs.isEmpty then some [] else
  let parts := splitBy (· == ':') cs
  let group? (part : List Char) : Option Nat :=
    if part.isEmpty || 4 < part.length then none else digitsIn? 16 part
  let byte? (part : List Char) : Option Nat :=
    if part.isEmpty || 3 < part.length ||
      (part.length > 1 && part.head? == some '0') then none
    else (digitsIn? 10 part).filter (· < 256)
  match parts.reverse with
  | [] => none
  | last :: before =>
    (before.reverse.mapM group?).bind fun groups =>
      match group? last with
      | some g => some (groups ++ [g])
      | none =>
        if !mayEndInBytes then none else
        match (splitBy (· == '.') last).mapM byte? with
        | some [a, b, c, d] => some (groups ++ [a * 256 + b, c * 256 + d])
        | _ => none

/-- Where two colons stand next to each other. -/
def splitDoubleColon : List Char → Option (List Char × List Char)
  | ':' :: ':' :: rest => some ([], rest)
  | c :: rest => (splitDoubleColon rest).map fun (left, right) => (c :: left, right)
  | [] => none

def ipv6? (cs : List Char) : Option (List Nat) :=
  match splitDoubleColon cs with
  | none => (ipv6Groups? true cs).filter (·.length == 8)
  | some (left, right) =>
    match ipv6Groups? false left, ipv6Groups? true right with
    | some l, some r =>
      let missing := 8 - (l.length + r.length)
      if l.length + r.length < 8 then some (l ++ List.replicate missing 0 ++ r)
      else none
    | _, _ => none

/-- The first of the longest runs of two or more zero groups, as its start and
length. -/
def longestZeros (groups : List Nat) : Nat × Nat :=
  let rec go (index start length bestStart bestLength : Nat) : List Nat → Nat × Nat
    | [] => if length > bestLength then (start, length) else (bestStart, bestLength)
    | g :: rest =>
      if g = 0 then
        go (index + 1) (if length = 0 then index else start) (length + 1) bestStart
          bestLength rest
      else if length > bestLength then
        go (index + 1) 0 0 start length rest
      else
        go (index + 1) 0 0 bestStart bestLength rest
  go 0 0 0 0 1 groups

def ipv6Text (groups : List Nat) : String :=
  let group (n : Nat) : String := String.ofList (Nat.toDigits 16 n)
  let (start, length) := longestZeros groups
  let join (gs : List Nat) : String := ":".intercalate (gs.map group)
  let body :=
    if length < 2 then join groups
    else join (groups.take start) ++ "::" ++ join (groups.drop (start + length))
  "[" ++ body ++ "]"

def isForbiddenInHost (c : Char) : Bool :=
  c.toNat == 0 || isIgnored c ||
    c ∈ [' ', '#', '/', ':', '<', '>', '?', '@', '[', '\\', ']', '^', '|']

def isForbiddenInDomain (c : Char) : Bool :=
  isForbiddenInHost c || c.toNat ≤ 0x1F || c == '%' || c.toNat == 0x7F

/-- Reads the text between the slashes and the port as a host. -/
def readHost (kind : SchemeKind) (cs : List Char) : Except UrlFault String :=
  match cs with
  | '[' :: inner =>
    match inner.reverse with
    | ']' :: address =>
      match ipv6? address.reverse with
      | some groups => .ok (ipv6Text groups)
      | none => .error .invalidIpv6
    | _ => .error .invalidIpv6
  | _ =>
    match kind with
    | .other =>
      if cs.any isForbiddenInHost then .error .invalidDomainCharacter
      else .ok (percentEncode (fun _ => false) (String.ofList cs))
    | _ =>
      let domain := ((Text.ofUtf8Lossy (percentDecode cs)).toList).map lowerAscii
      if domain.any isForbiddenInDomain then .error .invalidDomainName
      else if domain.isEmpty then .error .emptyHost
      else if endsInNumber domain then
        match ipv4? domain with
        | some n => .ok (ipv4Text n)
        | none => .error .invalidIpv4
      else .ok (String.ofList domain)

/-- The part of an authority that names the host, which a colon ends unless it
stands in brackets. -/
def splitHost (inBrackets : Bool) : List Char → List Char × List Char
  | [] => ([], [])
  | c :: rest =>
    if c = ':' ∧ !inBrackets then ([], c :: rest)
    else
      let (name, after) :=
        splitHost (if c = '[' then true else if c = ']' then false else inBrackets) rest
      (c :: name, after)

/-- What follows the last at-sign, and whether there is one. -/
def afterUser (cs : List Char) : List Char × Bool :=
  match splitBy (· == '@') cs with
  | [] | [_] => (cs, false)
  | _ :: more => (more.getLastD [], true)

def readPort (cs : List Char) : Except UrlFault (Option Nat) :=
  match cs with
  | [] => .ok none
  | _ :: digits =>
    if !digits.all isDigit then .error .invalidPort
    else if digits.isEmpty then .ok none
    else
      match digitsIn? 10 digits with
      | some n => if n < 65536 then .ok (some n) else .error .invalidPort
      | none => .error .invalidPort

/-- Reads the part between the slashes and the path: user, host and port. -/
def readAuthority (kind : SchemeKind) (scheme : String) (cs : List Char) :
    Except UrlFault (String × Option Nat) := do
  let (located, hasUser) := afterUser cs
  let (name, portPart) := splitHost false located
  if name.isEmpty then
    if kind = .web ∨ hasUser ∨ !portPart.isEmpty then .error .emptyHost
    else return ("", none)
  else
    let h ← readHost kind name
    let p ← readPort portPart
    return (h, p.filter (some · != defaultPort? scheme))

/-! ### Paths -/

def isSingleDot (s : List Char) : Bool :=
  s == ['.'] || s.map lowerAscii == ['%', '2', 'e']

def isDoubleDot (s : List Char) : Bool :=
  let t := s.map lowerAscii
  t == ['.', '.'] || t == ['.', '%', '2', 'e'] || t == ['%', '2', 'e', '.'] ||
    t == ['%', '2', 'e', '%', '2', 'e']

/-- Resolves the segments one after the other. The last one leaves an empty
segment when it only moves. -/
def resolve (done : List String) : List (List Char) → List String
  | [] => done
  | [last] =>
    if isDoubleDot last then done.dropLast ++ [""]
    else if isSingleDot last then done ++ [""]
    else done ++ [percentEncode reservedInPath (String.ofList last)]
  | s :: rest =>
    if isDoubleDot s then resolve done.dropLast rest
    else if isSingleDot s then resolve done rest
    else resolve (done ++ [percentEncode reservedInPath (String.ofList s)]) rest

def isSlash (kind : SchemeKind) (c : Char) : Bool :=
  c == '/' || (c == '\\' && kind != .other)

/-- The segments of a path, with or without a slash in front. -/
def pathSegments (kind : SchemeKind) (cs : List Char) : List String :=
  let body :=
    match cs with
    | c :: rest => if isSlash kind c then rest else c :: rest
    | [] => []
  resolve [] (splitBy (isSlash kind) body)

def endsPath (c : Char) : Bool := c == '?' || c == '#'

/-- What follows the host: path and query. -/
def tail (kind : SchemeKind) (cs : List Char) : List String × Option String :=
  let path := cs.takeWhile (!endsPath ·)
  let query :=
    match cs.dropWhile (!endsPath ·) with
    | '?' :: rest =>
      some (percentEncode reservedInQuery (String.ofList (rest.takeWhile (· != '#'))))
    | _ => none
  (pathSegments kind path, query)

def parse (s : String) : Except UrlFault Url := do
  match scheme? (cleaned s.toList) with
  | none => .error .relativeWithoutBase
  | some (scheme, rest) =>
    let kind := schemeKind scheme
    let hasAuthority :=
      match kind with
      | .web => true
      | _ => (rest.take 2).length == 2 && (rest.take 2).all (isSlash kind)
    if hasAuthority then
      let rest :=
        match kind with
        | .web => rest.dropWhile (isSlash kind)
        | _ => rest.drop 2
      let (h, p) ← readAuthority kind scheme (rest.takeWhile (!endsAuthority kind ·))
      let (segments, query) := tail kind (rest.dropWhile (!endsAuthority kind ·))
      return ⟨scheme, if h.isEmpty then none else some h, p, segments, query⟩
    else
      let (segments, query) := tail kind rest
      return ⟨scheme, none, none, segments, query⟩

/-- The path as it is sent. -/
def path (u : Url) : String := "/" ++ "/".intercalate u.segments

/-- Adds fields to the query. -/
def withQuery (u : Url) (fields : List (String × String)) : Url :=
  if fields.isEmpty then u else
  let query :=
    match u.query with
    | some q => if q.isEmpty then form fields else q ++ "&" ++ form fields
    | none => form fields
  { u with query := some query }

/-- Whether something can be asked for at the URL. -/
def isWeb (u : Url) : Bool :=
  (u.scheme == "http" || u.scheme == "https") && u.host.isSome

end Url

end WarehouseLoader.Http
