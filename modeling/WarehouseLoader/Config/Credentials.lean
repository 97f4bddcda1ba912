import WarehouseLoader.Auth.Credentials
import WarehouseLoader.Config.Files
import WarehouseLoader.Text.Presence
import WarehouseLoader.Yaml.Decode

/-!
# The credentials section

The section names a kind of credentials and the settings of that kind. Its
members may be written in any order, or as a sequence with the kind first. It is
stricter than the rest of a configuration: a text has to be one, and a scalar
that looks like a number is none. In exchange a member may also be called by its
number.

Resolving the section gives the credentials. A service account without a key
file is looked for as if no section were given: by the environment's key file,
and failing that by the metadata server. What else the section says is then not
looked at.
-/

namespace WarehouseLoader.Config

open Auth

inductive CredentialsSection where
  | applicationDefault
  | none
  | bearer (token : String)
  /-- The lifetime is in seconds. -/
  | serviceAccount (keyFile : Option String) (scopes : List String) (lifetime : Nat)
  | metadataServer (url : Option String)
  deriving DecidableEq, Repr

instance : Inhabited CredentialsSection := ⟨.applicationDefault⟩

namespace CredentialsSection

/-! ### Reading -/

open Yaml (Node Scalar Reading)

/-- A text that does not look like anything else. -/
def strictText : Reading String := fun _ n =>
  match n.scalar? with
  | some (.text s) => some s
  | _ => .none

def textOrNull : Reading (Option String) := fun depth n =>
  if n.scalar? = some .null then some .none else (strictText depth n).map some

def lifetime : Reading Nat := fun _ n =>
  match n.scalar? with
  | some (.number (.natural n)) => if n < UInt64.size then some n else .none
  | _ => .none

def scopes : Reading (List String) := fun depth n =>
  match n.target with
  | .sequence _ items =>
    if depth = 0 then .none else items.mapM (strictText (depth - 1))
  | _ => .none

/-- The name that a key calls a member by, directly or by the member's number.
Nothing for a key that is neither. -/
def memberName? (names : List String) (key : Node) : Option String :=
  match key.scalar? with
  | some (.text s) => some s
  | some (.number (.natural n)) => some (names[n]?.getD "")
  | _ => .none

/-- The members that `names` lists, each at most once. -/
def known? (names : List String) : List (Node × Node) → Option (List (String × Node))
  | [] => some []
  | (key, value) :: rest =>
    (memberName? names key).bind fun name => (known? names rest).bind fun found =>
      if name ∈ names then
        if found.any (·.1 == name) then .none else some ((name, value) :: found)
      else
        some found

/-- The settings of a kind, without the member that names the kind. -/
inductive Settings where
  | members (entries : List (Node × Node))
  | items (items : List Node)

def Settings.record {α : Type} (s : Settings) (names : List String)
    (build : List (String × Node) → Option α) : Option α :=
  match s with
  | members entries => (known? names entries).bind build
  | items listed =>
    if names.length < listed.length then .none else build (names.zip listed)

def ofSettings (kind : String) (s : Settings) (depth : Nat) :
    Option CredentialsSection :=
  let unit (c : CredentialsSection) : Option CredentialsSection :=
    match s with
    | .items (_ :: _) => .none
    | _ => some c
  match kind with
  | "application_default" => unit .applicationDefault
  | "none" => unit .none
  | "bearer" => s.record ["token"] fun members =>
    (members.lookup "token").bind fun n => (strictText depth n).map bearer
  | "service_account" =>
    s.record ["key_file", "scopes", "token_lifetime_seconds"] fun members => do
    let keyFile ← Reading.defaulted .none textOrNull depth members "key_file"
    let wanted ← Reading.defaulted [] scopes depth members "scopes"
    let seconds ←
      Reading.defaulted defaultLifetime lifetime depth members "token_lifetime_seconds"
    return serviceAccount keyFile wanted seconds
  | "metadata_server" => s.record ["url"] fun members =>
    (Reading.defaulted .none textOrNull depth members "url").map metadataServer
  | _ => .none

/-- Whether a key is the one that names the kind. -/
def isKindKey (entry : Node × Node) : Bool := entry.1.scalar? == some (.text "type")

/-- Whether a key has a value of any kind. -/
def isReadable (depth : Nat) (n : Node) : Bool := (n.json? depth).isSome

def read : Reading CredentialsSection := fun depth n =>
  match depth, n.target with
  | depth + 1, .mapping tag entries =>
    match entries.filter isKindKey with
    | [(_, kind)] =>
      let others := entries.filter (!isKindKey ·)
      if Yaml.isCustomTag tag ||
        !others.all (fun e => isReadable depth e.1 && isReadable depth e.2) then .none
      else kind.text?.bind fun kind => ofSettings kind (.members others) depth
    | _ => .none
  | depth + 1, .sequence tag (kind :: items) =>
    if Yaml.isCustomTag tag || !items.all (isReadable depth) then .none
    else kind.text?.bind fun kind => ofSettings kind (.items items) depth
  | _, _ => .none

/-! ### Writing -/

def toJson : CredentialsSection → Json
  | applicationDefault => .object [("type", .text "application_default")]
  | none => .object [("type", .text "none")]
  | bearer token => .object [("type", .text "bearer"), ("token", .text token)]
  | serviceAccount keyFile scopes lifetime =>
    .object [("type", .text "service_account"),
      ("key_file", Json.ofOption .text keyFile),
      ("scopes", .array (scopes.map .text)),
      ("token_lifetime_seconds", .ofNat lifetime)]
  | metadataServer url =>
    .object [("type", .text "metadata_server"), ("url", Json.ofOption .text url)]

/-! ### Resolving -/

/-- The service account key of a file. -/
def keyOfFile (m : Machine) (path : String) : Except LoadError ServiceAccountKey :=
  match m.file path with
  | .content bytes =>
    match Text.ofUtf8? bytes with
    | some text => ServiceAccountKey.ofText text
    | .none => .error (.credentials s!"failed to read key file {path}")
  | _ => .error (.credentials s!"failed to read key file {path}")

/-- The credentials that the machine has for everybody. -/
def ofMachine (m : Machine) : Except LoadError Credentials :=
  match m.credentialsPath.bind Text.nonEmpty? with
  | some path => (keyOfFile m path).map Credentials.ofKey
  | .none => .ok (.metadataServer defaultMetadataUrl)

def resolve (m : Machine) : CredentialsSection → Except LoadError Credentials
  | applicationDefault => ofMachine m
  | none => .ok .none
  | bearer token =>
    if token.isEmpty then .error (.credentials "bearer token is empty")
    else .ok (.bearer token)
  | serviceAccount keyFile scopes lifetime =>
    match keyFile.bind Text.nonEmpty? with
    | .none => ofMachine m
    | some path =>
      (keyOfFile m path).map fun key =>
        .serviceAccount key (if scopes.isEmpty then [bigQueryScope] else scopes)
          lifetime
  | metadataServer url =>
    .ok (.metadataServer ((url.bind Text.nonEmpty?).getD defaultMetadataUrl))

end CredentialsSection

end WarehouseLoader.Config
