import WarehouseLoader.Text.Blank

/-!
# Arguments of the command line

A command line names one of four commands, with options before or behind it and,
for loading, files. An option is known by a long name and most also by a letter;
letters may be run together, and a value may follow an option in the same
argument or be the next one. Two dashes alone end the options.

Arguments are taken one after the other, and the first that is wrong, or that
asks for help or for the version, decides. An option whose value is the next
argument is judged only when what comes behind it is taken. Only then is it
asked whether something is missing.
-/

namespace WarehouseLoader.Command

inductive OutputFormat where
  | json
  | pretty
  deriving DecidableEq, Repr, Inhabited

inductive Action where
  | properties
  | schema (inlineText file : Option String)
  | validate (config : String)
  | load (config : String) (attributes : List (String × String)) (files : List String)
  deriving DecidableEq, Repr

structure Invocation where
  format : OutputFormat
  verbose : Bool
  action : Action
  deriving DecidableEq, Repr

/-- Why a command line asks for nothing that can be run. -/
inductive Refusal where
  | usage
  | help
  | version
  deriving DecidableEq, Repr

/-! ### Options -/

inductive Opt where
  | help
  | version
  | format
  | verbose
  | schema
  | file
  | config
  | attr
  deriving DecidableEq, Repr

namespace Opt

def long : Opt → String
  | help => "help"
  | version => "version"
  | format => "format"
  | verbose => "verbose"
  | schema => "schema"
  | file => "file"
  | config => "config"
  | attr => "attr"

def letter? : Opt → Option Char
  | help => some 'h'
  | version => some 'V'
  | format => some 'f'
  | verbose => some 'v'
  | schema => none
  | file => none
  | config => some 'c'
  | attr => some 'a'

def takesValue : Opt → Bool
  | help | version | verbose => false
  | format | schema | file | config | attr => true

def repeats : Opt → Bool
  | attr => true
  | _ => false

end Opt

/-- The options behind any command. -/
def commonOptions : List Opt := [.help, .format, .verbose]

/-- A name and a value with an equals sign between them. The name has to hold
something to see. -/
def attribute? (s : String) : Option (String × String) :=
  match s.toList.dropWhile (· != '=') with
  | _ :: value =>
    let name := Text.trimBlanks (s.toList.takeWhile (· != '='))
    if name.isEmpty then none else some (String.ofList name, String.ofList value)
  | [] => none

def format? (s : String) : Option OutputFormat :=
  if s = "json" then some .json else if s = "pretty" then some .pretty else none

/-- Whether an option can have a value. -/
def Opt.accepts (o : Opt) (value : String) : Bool :=
  match o with
  | .format => (format? value).isSome
  | .file | .config => !value.isEmpty
  | .attr => (attribute? value).isSome
  | _ => true

/-! ### Taking arguments -/

/-- What was taken: the options with their values, in order, the words, and an
option that is not judged yet. -/
structure Taken where
  options : List (Opt × String)
  words : List String
  pending : Option (Opt × String)

namespace Taken

def none : Taken := ⟨[], [], .none⟩

def settle (t : Taken) : Except Refusal Taken :=
  match t.pending with
  | .none => .ok t
  | some (o, value) =>
    if (t.options.any (·.1 == o) && !o.repeats) || !o.accepts value then .error .usage
    else .ok { t with options := t.options ++ [(o, value)], pending := .none }

/-- Takes an option whose value, if it has one, is in the same argument. -/
def option (t : Taken) (o : Opt) (value : String) : Except Refusal Taken := do
  let t ← t.settle
  match o with
  | .help => throw .help
  | .version => throw .version
  | o => settle { t with pending := some (o, value) }

def later (t : Taken) (o : Opt) (value : String) : Except Refusal Taken := do
  let t ← t.settle
  return { t with pending := some (o, value) }

def word (t : Taken) (w : String) : Except Refusal Taken := do
  let t ← t.settle
  return { t with words := t.words ++ [w] }

def value? (t : Taken) (o : Opt) : Option String := t.options.lookup o

def has (t : Taken) (o : Opt) : Bool := t.options.any (·.1 == o)

end Taken

/-- Whether an argument is no option. -/
def isWord (s : String) : Bool := s.toList.head? != some '-' || s == "-"

/-- An argument that begins with two dashes. Gives what was taken and whether
the next argument is the value. -/
def takeLong (known : List Opt) (t : Taken) (body : List Char) :
    Except Refusal (Taken ⊕ Opt) :=
  let name := String.ofList (body.takeWhile (· != '='))
  match known.find? (·.long == name), body.dropWhile (· != '=') with
  | none, _ => .error .usage
  | some o, _ :: value =>
    if o.takesValue then (t.option o (String.ofList value)).map .inl else .error .usage
  | some o, [] => if o.takesValue then .ok (.inr o) else (t.option o "").map .inl

def dropEquals : List Char → List Char
  | '=' :: rest => rest
  | cs => cs

/-- Letters behind one dash. -/
def takeLetters (known : List Opt) (t : Taken) :
    List Char → Except Refusal (Taken × Option Opt)
  | [] => .ok (t, none)
  | c :: rest =>
    match known.find? (·.letter? == some c) with
    | none => .error .usage
    | some o =>
      if o.takesValue then
        if rest.isEmpty then .ok (t, some o)
        else (t.option o (String.ofList (dropEquals rest))).map (·, none)
      else
        (t.option o "").bind fun t => takeLetters known t rest

/-- One option argument; the second part is an option that still needs its
value. -/
def takeOption (known : List Opt) (t : Taken) (s : String) :
    Except Refusal (Taken × Option Opt) :=
  match s.toList with
  | '-' :: '-' :: body =>
    (takeLong known t body).map fun r =>
      match r with
      | .inl t => (t, none)
      | .inr o => (t, some o)
  | _ :: letters => takeLetters known t letters
  | [] => .error .usage

/-- The arguments of a command. -/
def takeAll (known : List Opt) (words : Bool) (t : Taken) :
    List String → Except Refusal Taken
  | [] => t.settle
  | s :: rest =>
    if s = "--" then do
      if rest.isEmpty then t.settle
      else if words then rest.foldlM Taken.word t
      else throw .usage
    else if isWord s then
      if words then (t.word s).bind fun t => takeAll known words t rest
      else .error .usage
    else
      match takeOption known t s with
      | .error e => .error e
      | .ok (t, none) => takeAll known words t rest
      | .ok (t, some o) =>
        match rest with
        | value :: rest' =>
          if isWord value then
            (t.later o value).bind fun t => takeAll known words t rest'
          else
            .error .usage
        | [] => .error .usage

/-- What the options of a command have to be. -/
def required (o : Option String) : Except Refusal String :=
  match o with
  | some s => .ok s
  | none => .error .usage

def commandNames : List String := ["properties", "schema", "validate", "load"]

/-- The command of a name, from its arguments. -/
def takeCommand (name : String) (args : List String) :
    Except Refusal (Taken × Action) := do
  match name with
  | "properties" =>
    let t ← takeAll commonOptions false .none args
    return (t, .properties)
  | "schema" =>
    let t ← takeAll (commonOptions ++ [.schema, .file]) false .none args
    if t.has .schema && t.has .file then throw .usage
    return (t, .schema (t.value? .schema) (t.value? .file))
  | "validate" =>
    let t ← takeAll (commonOptions ++ [.config]) false .none args
    return (t, .validate (← required (t.value? .config)))
  | "load" =>
    let t ← takeAll (commonOptions ++ [.config, .attr]) true .none args
    let config ← required (t.value? .config)
    if t.words.isEmpty || t.words.any String.isEmpty then throw .usage
    let attributes :=
      t.options.filterMap fun o => if o.1 = .attr then attribute? o.2 else none
    return (t, .load config attributes t.words)
  | _ => throw .usage

/-- The arguments of the request for help with a command. -/
def takeHelp (args : List String) : Refusal :=
  match args with
  | [] => .help
  | name :: rest =>
    if (name ∈ commandNames ∨ name = "help") ∧ rest.isEmpty then .help else .usage

/-- The invocation from what stands before the command and from what stands
behind it, which goes first. -/
def invocation (outer inner : Taken) (action : Action) : Invocation where
  format :=
    (((inner.value? .format).or (outer.value? .format)).bind format?).getD default
  verbose := inner.has .verbose || outer.has .verbose
  action := action

/-- Takes arguments up to the command, and the command's from there. -/
def takeInvocation (t : Taken) : List String → Except Refusal Invocation
  | [] => .error .usage
  | s :: rest =>
    if s = "--" then .error .usage
    else if isWord s then
      if s = "help" then .error (takeHelp rest)
      else (takeCommand s rest).bind fun (inner, action) => t.settle.map fun t =>
        invocation t inner action
    else
      match takeOption (.version :: commonOptions) t s with
      | .error e => .error e
      | .ok (t, none) => takeInvocation t rest
      | .ok (t, some o) =>
        match rest with
        | value :: rest' =>
          if isWord value then (t.later o value).bind fun t => takeInvocation t rest'
          else .error .usage
        | [] => .error .usage

/-- What a command line asks for. -/
def parseArguments (args : List String) : Except Refusal Invocation :=
  takeInvocation .none args

end WarehouseLoader.Command
