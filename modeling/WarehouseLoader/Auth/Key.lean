import WarehouseLoader.Error
import WarehouseLoader.Json.Decode

/-!
# Service account keys

A key file holds the private key of a service account, the account's address and
the endpoint that hands out tokens for it. A key of another kind is refused by
name; one without a kind is taken.
-/

namespace WarehouseLoader.Auth

open Json (Reading)

/-- The endpoint of a key that names none. -/
def defaultTokenUri : String := "https://oauth2.googleapis.com/token"

structure ServiceAccountKey where
  kind : Option String
  projectId : Option String
  privateKeyId : Option String
  privateKey : String
  clientEmail : String
  tokenUri : String
  deriving DecidableEq, Repr, Inhabited

namespace ServiceAccountKey

def read : Reading ServiceAccountKey :=
  Reading.record ["type", "project_id", "private_key_id", "private_key", "client_email",
    "token_uri"]
    fun depth members => do
      let kind ←
        Reading.defaulted none (Reading.orNull Reading.text) depth members "type"
      let projectId ←
        Reading.defaulted none (Reading.orNull Reading.text) depth members "project_id"
      let privateKeyId ← Reading.defaulted none (Reading.orNull Reading.text)
        depth members "private_key_id"
      let privateKey ← Reading.required Reading.text depth members "private_key"
      let clientEmail ← Reading.required Reading.text depth members "client_email"
      let tokenUri ←
        Reading.defaulted defaultTokenUri Reading.text depth members "token_uri"
      return ⟨kind, projectId, privateKeyId, privateKey, clientEmail, tokenUri⟩

def ofText (s : String) : Except LoadError ServiceAccountKey :=
  match read.ofText? s with
  | none => .error (.credentials "invalid service account key")
  | some key =>
    match key.kind with
    | none => .ok key
    | some kind =>
      if kind = "service_account" then .ok key
      else .error (.credentials s!"expected a service_account key, found '{kind}'")

end ServiceAccountKey

end WarehouseLoader.Auth
