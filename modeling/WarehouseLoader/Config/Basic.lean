import WarehouseLoader.Config.Credentials
import WarehouseLoader.Property.Context
import WarehouseLoader.Warehouse.Client

/-!
# Configurations

A configuration says where the warehouse is, how requests are authorized, how
patient the loader is, and with which properties it runs. Every part may be left
out.

An endpoint has to be a URL, which is checked when the configuration is read.
That the values of the properties can stand as texts shows only when they are
asked for.
-/

namespace WarehouseLoader.Config

open Http Warehouse
open Yaml (Reading)

structure BackoffSection where
  type : BackoffType
  /-- Milliseconds, like the longest delay. -/
  initial : Nat
  cap : Nat

structure HttpSection where
  /-- Seconds. -/
  timeout : Nat
  maxRetries : Nat
  backoff : BackoffSection

structure PollingSection where
  /-- Milliseconds, like the longest delay. -/
  initial : Nat
  cap : Nat

structure LoaderConfig where
  endpoint : String
  credentials : CredentialsSection
  http : HttpSection
  polling : PollingSection
  /-- The size of chunks that is wanted. -/
  chunkSize : Nat
  vars : Json
  properties : NameMap Json

/-- A whole number of 64 bits. -/
def nat64 : Reading Nat := Reading.natBelow Numeral.bound64

namespace BackoffSection

def standard : BackoffSection := ⟨.exponential, 250, 32000⟩

def read : Reading BackoffSection :=
  Reading.record ["type", "initial_ms", "max_ms"] fun depth members => do
    let type ← Reading.defaulted standard.type (Reading.name BackoffType.ofName?)
      depth members "type"
    let initial ← Reading.defaulted standard.initial nat64 depth members "initial_ms"
    let cap ← Reading.defaulted standard.cap nat64 depth members "max_ms"
    return ⟨type, initial, cap⟩

def toJson (b : BackoffSection) : Json :=
  .object [("type", .text b.type.name), ("initial_ms", .ofNat b.initial),
    ("max_ms", .ofNat b.cap)]

end BackoffSection

namespace HttpSection

def standard : HttpSection := ⟨60, 6, .standard⟩

def read : Reading HttpSection :=
  Reading.record ["timeout_seconds", "max_retries", "backoff"] fun depth members => do
    let timeout ←
      Reading.defaulted standard.timeout nat64 depth members "timeout_seconds"
    let maxRetries ← Reading.defaulted standard.maxRetries
      (Reading.natBelow Numeral.bound32) depth members "max_retries"
    let backoff ←
      Reading.defaulted .standard BackoffSection.read depth members "backoff"
    return ⟨timeout, maxRetries, backoff⟩

def toJson (h : HttpSection) : Json :=
  .object [("timeout_seconds", .ofNat h.timeout), ("max_retries", .ofNat h.maxRetries),
    ("backoff", h.backoff.toJson)]

end HttpSection

namespace PollingSection

def standard : PollingSection := ⟨500, 10000⟩

def read : Reading PollingSection :=
  Reading.record ["initial_ms", "max_ms"] fun depth members => do
    let initial ← Reading.defaulted standard.initial nat64 depth members "initial_ms"
    let cap ← Reading.defaulted standard.cap nat64 depth members "max_ms"
    return ⟨initial, cap⟩

def toJson (p : PollingSection) : Json :=
  .object [("initial_ms", .ofNat p.initial), ("max_ms", .ofNat p.cap)]

end PollingSection

namespace LoaderConfig

def defaultEndpoint : String := "https://bigquery.googleapis.com"

def standard : LoaderConfig where
  endpoint := defaultEndpoint
  credentials := .applicationDefault
  http := .standard
  polling := .standard
  chunkSize := ClientConfig.standard.chunkSize
  vars := .null
  properties := .empty

/-- The upload section, which has one member. -/
def readChunkSize : Reading Nat :=
  Reading.record ["chunk_size_bytes"] fun depth members =>
    Reading.defaulted standard.chunkSize nat64 depth members "chunk_size_bytes"

def read : Reading LoaderConfig :=
  Reading.record ["endpoint", "credentials", "http", "polling", "upload", "variables",
    "properties"]
    fun depth members => do
      let endpoint ←
        Reading.defaulted defaultEndpoint Reading.text depth members "endpoint"
      let credentials ←
        Reading.defaulted default CredentialsSection.read depth members "credentials"
      let http ← Reading.defaulted .standard HttpSection.read depth members "http"
      let polling ←
        Reading.defaulted .standard PollingSection.read depth members "polling"
      let chunkSize ←
        Reading.defaulted standard.chunkSize readChunkSize depth members "upload"
      let vars ← Reading.defaulted .null Reading.json depth members "variables"
      let properties ← Reading.defaulted .empty (Reading.mapping Reading.json)
        depth members "properties"
      return ⟨endpoint, credentials, http, polling, chunkSize, vars, properties⟩

/-- The configuration that a text describes. -/
def ofText (s : String) : Except LoadError LoaderConfig :=
  match read.ofText? s with
  | none => .error .yaml
  | some config =>
    match Url.parse config.endpoint with
    | .ok _ => .ok config
    | .error fault => .error (.invalidUrl fault)

/-- The configuration in a file. -/
def ofFile (m : Machine) (path : String) : Except LoadError LoaderConfig :=
  match m.file path with
  | .missing => .error (.fileNotFound path)
  | .unreadable => .error .io
  | .content bytes =>
    match Text.ofUtf8? bytes with
    | none => .error .io
    | some text =>
      match ofText text with
      | .ok config => .ok config
      | .error e => .error (e.inContext s!"loading {path}")

def toJson (c : LoaderConfig) : Json :=
  .object [("endpoint", .text c.endpoint), ("credentials", c.credentials.toJson),
    ("http", c.http.toJson), ("polling", c.polling.toJson),
    ("upload", .object [("chunk_size_bytes", .ofNat c.chunkSize)]),
    ("variables", c.vars), ("properties", .object c.properties.toList)]

/-- The value of a property as a text. -/
def propertyText (name : String) : Json → Except LoadError String
  | .text s => .ok s
  | .number n => .ok n.text
  | .bool b => .ok (if b then "true" else "false")
  | v =>
    let shown := v.render
    .error (.invalidValue name s!"expected a scalar, found {shown}")

def propertyTexts (c : LoaderConfig) : Except LoadError (List (String × String)) :=
  c.properties.toList.mapM fun (name, value) => (propertyText name value).map (name, ·)

def context (c : LoaderConfig) : Except LoadError ProcessContext :=
  c.propertyTexts.map fun values => ⟨NameMap.ofList values, c.vars⟩

def httpConfig (c : LoaderConfig) : HttpConfig :=
  { HttpConfig.standard with
    baseUrl := some c.endpoint
    timeout := c.http.timeout * 1000
    maxRetries := c.http.maxRetries
    initialBackoff := c.http.backoff.initial
    maxBackoff := c.http.backoff.cap
    backoffType := c.http.backoff.type }

def httpClient (c : LoaderConfig) (m : Machine) : Except LoadError HttpClient :=
  (c.credentials.resolve m).bind fun credentials =>
    HttpClient.create c.httpConfig (some credentials)

def clientConfig (c : LoaderConfig) : Except LoadError ClientConfig :=
  (alignedChunkSize c.chunkSize).map fun size =>
    ⟨size, c.polling.initial, c.polling.cap⟩

/-- The client of the warehouse. -/
def client (c : LoaderConfig) (m : Machine) : Except LoadError Warehouse.Client := do
  let http ← c.httpClient m
  let config ← c.clientConfig
  Client.create http config

end LoaderConfig

end WarehouseLoader.Config
