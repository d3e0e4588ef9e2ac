import FeedClient.Decimal.Shortest
import FeedClient.Decimal.Text
import FeedClient.Decimal.Nearest
import FeedClient.Json.Value
import FeedClient.Json.Number
import FeedClient.Text.GraphemeExtend
import FeedClient.Text.Printable
import FeedClient.Text.Quote
import FeedClient.Text.Utf8
import FeedClient.Json.Error
import FeedClient.Json.Cursor
import FeedClient.Json.Numeral
import FeedClient.Json.Reader
import FeedClient.Json.Writer
import FeedClient.Text.Percent
import FeedClient.Redact
import FeedClient.Route
import FeedClient.Http.Body
import FeedClient.Http.Header
import FeedClient.Http.Response
import FeedClient.Text.Blank
import FeedClient.Json.Form
import FeedClient.Json.Decode
import FeedClient.Json.Tree
import FeedClient.Session
import FeedClient.Profile
import FeedClient.Alert
import FeedClient.Event
import FeedClient.Snapshot
import FeedClient.Storage.Path
import FeedClient.Storage.Disk
import FeedClient.Storage.Keychain
import FeedClient.Storage.Vault
import FeedClient.Settings
import FeedClient.Http.Method
import FeedClient.Http.Request
import FeedClient.Timer
import FeedClient.Store
import FeedClient.Client.Basic
import FeedClient.Client.Exchange
import FeedClient.Client.Clock
import FeedClient.Client.Flow
import FeedClient.Client.Step
import FeedClient.Main
import FeedClient.Proofs.Json.Run
import FeedClient.Proofs.Requests
import FeedClient.Proofs.AlertClear
import FeedClient.Proofs.Json.Strings
import FeedClient.Proofs.Decimal.Overflow
import FeedClient.Proofs.Decimal.Shortest
import FeedClient.Proofs.Json.Numbers
import FeedClient.Proofs.Json.Frame
import FeedClient.Proofs.Json.Canonical
import FeedClient.Proofs.Json.Reread
import FeedClient.Proofs.Disk
import FeedClient.Proofs.Storage
import FeedClient.Proofs.Session
import FeedClient.Proofs.Flows
import FeedClient.Proofs.Masking
import FeedClient.Proofs.Redaction
import FeedClient.Proofs.TokenScan
import FeedClient.Proofs.StorageFile
import FeedClient.Proofs.Idempotence
import FeedClient.Proofs.Percent
import FeedClient.Proofs.Routes
import FeedClient.Proofs.ByteScan
import FeedClient.Proofs.Json.Records
import FeedClient.Proofs.StoredText
