import WarehouseLoader.Auth.Key

/-!
# Credentials

How requests are authorized: not at all, by a fixed token, by tokens that a
service account asks for, or by tokens that the machine's metadata server hands
out.
-/

namespace WarehouseLoader.Auth

/-- The scope that load jobs need. -/
def bigQueryScope : String := "https://www.googleapis.com/auth/bigquery"

/-- The endpoint of the metadata server on the machines that have one. -/
def defaultMetadataUrl : String :=
  "http://metadata.google.internal/computeMetadata/v1/instance/service-accounts/default/token"

def defaultLifetime : Nat := 3600

inductive Credentials where
  | none
  | bearer (token : String)
  /-- The lifetime is in seconds. -/
  | serviceAccount (key : ServiceAccountKey) (scopes : List String) (lifetime : Nat)
  | metadataServer (url : String)
  deriving DecidableEq, Repr

instance : Inhabited Credentials := ⟨.none⟩

namespace Credentials

/-- A service account that asks for what load jobs need, for an hour at a
time. -/
def ofKey (key : ServiceAccountKey) : Credentials :=
  serviceAccount key [bigQueryScope] defaultLifetime

end Credentials

end WarehouseLoader.Auth
