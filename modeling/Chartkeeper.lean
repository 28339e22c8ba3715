import Chartkeeper.Command
import Chartkeeper.Composition.Basic
import Chartkeeper.Composition.Condition
import Chartkeeper.Composition.Event
import Chartkeeper.Composition.Marks
import Chartkeeper.Composition.Status
import Chartkeeper.Composition.Store
import Chartkeeper.Control.Assembly
import Chartkeeper.Control.Client
import Chartkeeper.Control.Controller
import Chartkeeper.Control.Permissions
import Chartkeeper.Control.Port
import Chartkeeper.Control.Program
import Chartkeeper.Control.Run
import Chartkeeper.Control.World
import Chartkeeper.Decimal.Basic
import Chartkeeper.Decimal.Binary64
import Chartkeeper.Decimal.Word
import Chartkeeper.Digest
import Chartkeeper.Fault
import Chartkeeper.Folder
import Chartkeeper.Json.Basic
import Chartkeeper.Json.Edit
import Chartkeeper.Json.Reader
import Chartkeeper.Json.Row
import Chartkeeper.Json.Text
import Chartkeeper.Main
import Chartkeeper.Manifest.Decode
import Chartkeeper.Manifest.Object
import Chartkeeper.Permission.Bundle
import Chartkeeper.Permission.Cluster
import Chartkeeper.Permission.Need
import Chartkeeper.Permission.Object
import Chartkeeper.Proofs.Composition.Marks
import Chartkeeper.Proofs.Composition.Readiness
import Chartkeeper.Proofs.Composition.Status
import Chartkeeper.Proofs.Control.Calls
import Chartkeeper.Proofs.Control.Changes
import Chartkeeper.Proofs.Control.Convergence
import Chartkeeper.Proofs.Control.Creation
import Chartkeeper.Proofs.Control.Ends
import Chartkeeper.Proofs.Control.Observe
import Chartkeeper.Proofs.Control.Permissions
import Chartkeeper.Proofs.Control.Reach
import Chartkeeper.Proofs.Control.Steps
import Chartkeeper.Proofs.Control.UpToDate
import Chartkeeper.Proofs.Fault
import Chartkeeper.Proofs.Manifest.Edits
import Chartkeeper.Proofs.Release.Backend
import Chartkeeper.Proofs.Release.History
import Chartkeeper.Proofs.Text.Lookup
import Chartkeeper.Release.Action
import Chartkeeper.Release.Backend
import Chartkeeper.Release.Basic
import Chartkeeper.Release.LabelStamp
import Chartkeeper.Release.Package
import Chartkeeper.Release.Template
import Chartkeeper.Release.Values
import Chartkeeper.Resource.Api
import Chartkeeper.Resource.Managed
import Chartkeeper.Resource.Mapper
import Chartkeeper.Settings.Basic
import Chartkeeper.Settings.Source
import Chartkeeper.Text.Assoc
import Chartkeeper.Text.Blank
import Chartkeeper.Text.Cut
import Chartkeeper.Text.Hex
import Chartkeeper.Text.Table
import Chartkeeper.Time.Instant
import Chartkeeper.Time.Rfc3339
import Chartkeeper.Toml.Item.Basic
import Chartkeeper.Toml.Item.Reader
import Chartkeeper.Toml.Scalar
import Chartkeeper.Toml.Text
import Chartkeeper.Yaml.Cursor
import Chartkeeper.Yaml.Node.Basic
import Chartkeeper.Yaml.Node.Decode
import Chartkeeper.Yaml.Node.Reader
import Chartkeeper.Yaml.Plain
import Chartkeeper.Yaml.Text.Block
import Chartkeeper.Yaml.Text.Scalar
import Chartkeeper.Yaml.Token.Lexer
import Chartkeeper.Yaml.Token.Mark
import Chartkeeper.Yaml.Token.Scalar
import Chartkeeper.Proofs.Control.Removal
import Chartkeeper.Proofs.Permission.Need
import Chartkeeper.Proofs.Permission.Overlap
import Chartkeeper.Proofs.Control.Records
import Chartkeeper.Proofs.Control.Orderly
import Chartkeeper.Proofs.Composition.ReleaseName
import Chartkeeper.Proofs.Control.Releases
import Chartkeeper.Proofs.Control.Persistence
import Chartkeeper.Proofs.Control.Drift
import Chartkeeper.Proofs.Control.Grants
import Chartkeeper.Proofs.Control.Quiescence
import Chartkeeper.Proofs.Control.Calm
import Chartkeeper.Proofs.Control.Rerun
import Chartkeeper.Proofs.Control.Traces
import Chartkeeper.Proofs.Control.Brackets
import Chartkeeper.Proofs.Control.Protocol
import Chartkeeper.Proofs.Control.Failures
import Chartkeeper.Proofs.Control.Pausing
import Chartkeeper.Proofs.Control.Deadlines
import Chartkeeper.Proofs.Control.Naming
import Chartkeeper.Proofs.Permission.Reversal
import Chartkeeper.Proofs.Permission.Backing
import Chartkeeper.Proofs.Permission.Coverage
import Chartkeeper.Proofs.Resource.Path
import Chartkeeper.Proofs.Release.LabelStamp
import Chartkeeper.Proofs.Control.Updating
import Chartkeeper.Proofs.Release.Retention
import Chartkeeper.Proofs.Permission.Canonical
import Chartkeeper.Proofs.Text.Cut
import Chartkeeper.Proofs.Release.Template
import Chartkeeper.Proofs.Manifest.Object
import Chartkeeper.Proofs.Release.Values
import Chartkeeper.Proofs.Release.Restamping
import Chartkeeper.Proofs.Json.Records
