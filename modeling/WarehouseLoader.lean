import WarehouseLoader.Auth.Assertion
import WarehouseLoader.Auth.Authenticator
import WarehouseLoader.Auth.Credentials
import WarehouseLoader.Auth.Key
import WarehouseLoader.Auth.SigningKey
import WarehouseLoader.Auth.Token
import WarehouseLoader.Command.Arguments
import WarehouseLoader.Command.Message
import WarehouseLoader.Command.Path
import WarehouseLoader.Command.Run
import WarehouseLoader.Config.Basic
import WarehouseLoader.Config.Credentials
import WarehouseLoader.Config.Files
import WarehouseLoader.Error
import WarehouseLoader.Flow.Attribute
import WarehouseLoader.Flow.Session
import WarehouseLoader.Flow.Unit
import WarehouseLoader.Http.Backoff
import WarehouseLoader.Http.Client
import WarehouseLoader.Http.Deadline
import WarehouseLoader.Http.Percent
import WarehouseLoader.Http.Request
import WarehouseLoader.Http.Transport
import WarehouseLoader.Http.Url
import WarehouseLoader.Json.Basic
import WarehouseLoader.Json.Decode
import WarehouseLoader.Json.Document
import WarehouseLoader.Json.Number
import WarehouseLoader.Json.Token
import WarehouseLoader.Json.Writer
import WarehouseLoader.LoadJob.Configuration
import WarehouseLoader.LoadJob.Job
import WarehouseLoader.LoadJob.Options
import WarehouseLoader.Loader.Processor
import WarehouseLoader.Loader.Properties
import WarehouseLoader.Loader.Report
import WarehouseLoader.Loader.Settings
import WarehouseLoader.Loader.Warehouse
import WarehouseLoader.Main
import WarehouseLoader.NameMap
import WarehouseLoader.Number.Double
import WarehouseLoader.Number.Numeral
import WarehouseLoader.Number.Signed
import WarehouseLoader.Property.Context
import WarehouseLoader.Property.Descriptor
import WarehouseLoader.Schema.Basic
import WarehouseLoader.Schema.Translate
import WarehouseLoader.Schema.Wire
import WarehouseLoader.Template
import WarehouseLoader.Text.Base64
import WarehouseLoader.Text.Blank
import WarehouseLoader.Text.Duration
import WarehouseLoader.Text.Lowercase
import WarehouseLoader.Text.Presence
import WarehouseLoader.Text.Utf8
import WarehouseLoader.Upload.Channel
import WarehouseLoader.Upload.Range
import WarehouseLoader.Warehouse.Client
import WarehouseLoader.Yaml.Cursor
import WarehouseLoader.Yaml.Decode
import WarehouseLoader.Yaml.Layout
import WarehouseLoader.Yaml.Node
import WarehouseLoader.Yaml.Scalar
import WarehouseLoader.Yaml.Token
import WarehouseLoader.Yaml.Written
import WarehouseLoader.Proofs.Http.Attempts
import WarehouseLoader.Proofs.Number.Numeral
import WarehouseLoader.Proofs.Http.Record
import WarehouseLoader.Proofs.Upload.ContentRange
import WarehouseLoader.Proofs.Upload.Flush
import WarehouseLoader.Proofs.Upload.Delivery
import WarehouseLoader.Proofs.Upload.Credit
import WarehouseLoader.Proofs.Upload.Overclaim
import WarehouseLoader.Proofs.Loader.Reporting
import WarehouseLoader.Proofs.Loader.Retry
import WarehouseLoader.Proofs.Loader.Calls
import WarehouseLoader.Proofs.Loader.Lifecycle
import WarehouseLoader.Proofs.Loader.Routing
import WarehouseLoader.Proofs.Property.Accepted
import WarehouseLoader.Proofs.Loader.Validation
import WarehouseLoader.Proofs.Http.Log
import WarehouseLoader.Proofs.Upload.Replay
import WarehouseLoader.Proofs.Upload.Representation
import WarehouseLoader.Proofs.Http.Deadline
import WarehouseLoader.Proofs.Warehouse.Client
import WarehouseLoader.Proofs.Loader.Confirmation
import WarehouseLoader.Proofs.Schema.Grammar
import WarehouseLoader.Proofs.Schema.Refusal
import WarehouseLoader.Proofs.Json.RoundTrip
import WarehouseLoader.Proofs.Schema.RoundTrip
import WarehouseLoader.Proofs.Loader.SchemaCache
import WarehouseLoader.Proofs.Loader.Staleness
import WarehouseLoader.Proofs.Template.Expression
import WarehouseLoader.Proofs.Template.Substitution
import WarehouseLoader.Proofs.Template.Simultaneous
import WarehouseLoader.Proofs.Loader.SchemaReport
import WarehouseLoader.Proofs.Command.Preparation
import WarehouseLoader.Proofs.Command.Accounting
import WarehouseLoader.Proofs.Auth.TokenCache
import WarehouseLoader.Proofs.Http.Retries
import WarehouseLoader.Proofs.Http.Transience
import WarehouseLoader.Proofs.Upload.Recovery
import WarehouseLoader.Proofs.Loader.LoadReport
import WarehouseLoader.Proofs.Warehouse.Polling
import WarehouseLoader.Proofs.Template.Cutting
import WarehouseLoader.Proofs.Template.Undefined
import WarehouseLoader.Proofs.Template.Guard
import WarehouseLoader.Proofs.Property.Form
import WarehouseLoader.Proofs.Schema.Lookup
import WarehouseLoader.Proofs.Schema.Path
import WarehouseLoader.Proofs.Upload.Acknowledgement
import WarehouseLoader.Proofs.Text.Pieces
import WarehouseLoader.Proofs.Http.Percent
import WarehouseLoader.Proofs.Http.Segments
import WarehouseLoader.Proofs.Warehouse.Addresses
import WarehouseLoader.Proofs.Http.Whole
import WarehouseLoader.Proofs.Warehouse.Alignment
import WarehouseLoader.Proofs.Auth.Lifetimes
import WarehouseLoader.Proofs.Config.ServiceAccount
import WarehouseLoader.Proofs.Http.Checked
import WarehouseLoader.Proofs.Upload.Checked
import WarehouseLoader.Proofs.Http.Backoff
import WarehouseLoader.Proofs.Flow.Traffic
