import WarehouseLoader.Error
import WarehouseLoader.Json.Writer
import WarehouseLoader.NameMap
import WarehouseLoader.Text.Blank

/-!
# Templates

A property may hold expressions: two opening braces, a dotted name, two closing
braces, with blanks allowed around the name. An expression stands for the value
of its name.

`scan` cuts a template into its expressions and the characters between them,
from the left and without overlap, and nothing is lost by it. What a template
asks for (`names`), whether it asks for anything (`hasExpressions`) and whether
a brace is left over (`check`) are all read off the scan.

`render` replaces one expression after the other, in the order of the scan, and
each time everywhere in the text as it then is. A value that was put in earlier
is part of that text. Where no value holds an expression, and none comes about
where a value meets its neighbours, the outcome is the same as that of one
replacement of all expressions at once, `substituted`.
-/

namespace WarehouseLoader.Template

/-- An expression as it stands in a template: all of its characters, and the
name between the braces. -/
structure Expression where
  chars : List Char
  name : List Char
  deriving DecidableEq, Repr

inductive Segment where
  | literal (c : Char)
  | expression (e : Expression)
  deriving DecidableEq, Repr

def startsName (c : Char) : Bool :=
  ('a' ≤ c && c ≤ 'z') || ('A' ≤ c && c ≤ 'Z') || c == '_'

def continuesName (c : Char) : Bool :=
  startsName c || ('0' ≤ c && c ≤ '9') || c == '-'

/-- The characters that a dotted name may hold. -/
def inName (c : Char) : Bool := continuesName c || c == '.'

/-- Whether every part between the dots starts as a name does. The flag says
whether a part starts here. -/
def isDottedFrom (starting : Bool) : List Char → Bool
  | [] => !starting
  | c :: rest =>
    if starting then startsName c && isDottedFrom false rest
    else if c = '.' then isDottedFrom true rest
    else continuesName c && isDottedFrom false rest

def isDotted (cs : List Char) : Bool := isDottedFrom true cs

def openMark : List Char := ['{', '{']
def closeMark : List Char := ['}', '}']

/-- The expression that the text starts with. -/
def expressionAt? (cs : List Char) : Option Expression :=
  if openMark.isPrefixOf cs then
    let inner := cs.drop 2
    let leading := inner.takeWhile Text.isBlank
    let afterLeading := inner.dropWhile Text.isBlank
    let name := afterLeading.takeWhile inName
    let afterName := afterLeading.dropWhile inName
    let trailing := afterName.takeWhile Text.isBlank
    if isDotted name && closeMark.isPrefixOf (afterName.dropWhile Text.isBlank) then
      some ⟨openMark ++ leading ++ name ++ trailing ++ closeMark, name⟩
    else
      none
  else
    none

/-- The segments of a text whose first `skip` characters belong to an expression
already found. -/
def scanFrom : Nat → List Char → List Segment
  | _, [] => []
  | skip + 1, _ :: rest => scanFrom skip rest
  | 0, c :: rest =>
    match expressionAt? (c :: rest) with
    | some e => .expression e :: scanFrom (e.chars.length - 1) rest
    | none => .literal c :: scanFrom 0 rest

def scan (template : String) : List Segment := scanFrom 0 template.toList

def Segment.expression? : Segment → Option Expression
  | .literal _ => none
  | .expression e => some e

def Segment.literal? : Segment → Option Char
  | .literal c => some c
  | .expression _ => none

def expressions (template : String) : List Expression :=
  (scan template).filterMap Segment.expression?

/-- What is left of a template when its expressions are taken out. -/
def literals (template : String) : List Char :=
  (scan template).filterMap Segment.literal?

/-- The names that a template asks for, in order. -/
def names (template : String) : List String :=
  (expressions template).map fun e => String.ofList e.name

def hasExpressions (template : String) : Bool := !(expressions template).isEmpty

/-- Whether `part` stands somewhere in the text. -/
def holds (part : List Char) : List Char → Bool
  | [] => part.isEmpty
  | c :: rest => part.isPrefixOf (c :: rest) || holds part rest

/-- Refuses a template in which doubled braces are left over: they would be
passed on as they are. -/
def check (template : String) : Except LoadError Unit :=
  if holds openMark (literals template) || holds closeMark (literals template) then
    .error (.template s!"malformed expression in '{template}'")
  else
    .ok ()

/-! ### Values -/

/-- What names stand for: the attributes of a unit, if there is one, and
variables of the driver. -/
structure Context where
  attributes : Option Attributes
  vars : Json

/-- The text of a variable. A null is an empty text, and what is not a scalar is
written as JSON. -/
def textOf : Json → String
  | .text s => s
  | .null => ""
  | v => v.render

/-- Goes down through objects, one name at a time. -/
def descend : Json → List String → Option Json
  | v, [] => some v
  | .object members, name :: rest =>
    match Json.member? members name with
    | some v => descend v rest
    | none => none
  | _, _ :: _ => none

/-- The parts of a text between the points where `separator` stands. -/
def splitAt (separator : Char) : List Char → List (List Char)
  | [] => [[]]
  | c :: rest =>
    if c = separator then [] :: splitAt separator rest
    else
      match splitAt separator rest with
      | [] => [[c]]
      | part :: parts => (c :: part) :: parts

/-- The way to a variable. It may start at the word for all of the variables,
which is then passed over. -/
def variablePath (name : String) : List String :=
  match (splitAt '.' name.toList).map String.ofList with
  | "vars" :: rest => rest
  | path => path

namespace Context

def variableText? (context : Context) (name : String) : Option String :=
  match variablePath name with
  | [] => none
  | path => (descend context.vars path).map textOf

/-- The value of a name: an attribute of exactly this name before a variable. -/
def get? (context : Context) (name : String) : Option String :=
  match context.attributes.bind (·.get? name) with
  | some value => some value
  | none => context.variableText? name

end Context

/-! ### Rendering -/

/-- Replaces a part wherever it stands, from the left and without overlap. The
first `skip` characters belong to a place already replaced. -/
def replaceFrom (part value : List Char) : Nat → List Char → List Char
  | _, [] => []
  | skip + 1, _ :: rest => replaceFrom part value skip rest
  | 0, c :: rest =>
    if part.isPrefixOf (c :: rest) then
      value ++ replaceFrom part value (part.length - 1) rest
    else c :: replaceFrom part value 0 rest

/-- Puts the value of an expression in its place, if its name has one. -/
def replaceExpression (context : Context) (text : List Char) (e : Expression) :
    List Char :=
  match context.get? (String.ofList e.name) with
  | some value => replaceFrom e.chars value.toList 0 text
  | none => text

/-- The names that the context has no value for, in order. -/
def undefinedNames (template : String) (context : Context) : List String :=
  (names template).filter fun name => (context.get? name).isNone

def render (template : String) (context : Context) : Except LoadError String :=
  match undefinedNames template context with
  | [] =>
    .ok (String.ofList ((expressions template).foldl (replaceExpression context)
      template.toList))
  | undefined => .error (.undefinedVariable (", ".intercalate undefined))

/-- The characters that a segment stands for. -/
def Segment.substituted (context : Context) : Segment → List Char
  | .literal c => [c]
  | .expression e => ((context.get? (String.ofList e.name)).getD "").toList

/-- All expressions replaced at once, so that no value is looked into. -/
def substituted (template : String) (context : Context) : String :=
  String.ofList ((scan template).flatMap (Segment.substituted context))

end WarehouseLoader.Template
