import Clearance.Access
import Clearance.Cache
import Clearance.Change
import Clearance.Checked
import Clearance.Closure
import Clearance.Credential
import Clearance.Credential.Name
import Clearance.CredentialSet
import Clearance.Decimal.Binary64
import Clearance.Decimal.Places
import Clearance.Decimal.Reading
import Clearance.Decimal.Shortest
import Clearance.Declaration
import Clearance.Declaration.Document
import Clearance.Declaration.Reading
import Clearance.Entries
import Clearance.Error
import Clearance.Failure
import Clearance.FieldPolicy
import Clearance.Hooks
import Clearance.Issue
import Clearance.Json
import Clearance.Json.Reading
import Clearance.Log.Level
import Clearance.Log.Preview
import Clearance.Log.Record
import Clearance.Log.Setup
import Clearance.Log.Template
import Clearance.Moment
import Clearance.Policy
import Clearance.Principal
import Clearance.Registry
import Clearance.Resolution
import Clearance.Run
import Clearance.Settings
import Clearance.Settings.Reading
import Clearance.Text.Base64
import Clearance.Text.Blank
import Clearance.Text.Digit
import Clearance.Text.Hex
import Clearance.Text.Identifier
import Clearance.Text.Loose
import Clearance.Text.Printable
import Clearance.Text.Quoted
import Clearance.Text.Ranges
import Clearance.Text.Search
import Clearance.Text.Utf8
import Clearance.Value
import Clearance.Value.Attribute
import Clearance.Value.Equality
import Clearance.Value.Item
import Clearance.Value.Order
import Clearance.Value.Text
import Clearance.Value.Uuid
import Clearance.Vocabulary
import Clearance.Yaml.Cursor
import Clearance.Yaml.Document
import Clearance.Yaml.Node
import Clearance.Yaml.ScalarValue
import Clearance.Yaml.Tag
import Clearance.Yaml.Token
import Clearance.Yaml.Token.Scalar
import Clearance.Yaml.Token.Scan
import Clearance.Proofs.Access.Choices
import Clearance.Proofs.Access.Decisions
import Clearance.Proofs.Access.Expansion
import Clearance.Proofs.Access.Fields
import Clearance.Proofs.Access.Grants
import Clearance.Proofs.Access.Isolation
import Clearance.Proofs.Access.Rearranging
import Clearance.Proofs.Access.Requests
import Clearance.Proofs.Access.SoftDeletion
import Clearance.Proofs.Ascending
import Clearance.Proofs.Cache.Transparency
import Clearance.Proofs.Change
import Clearance.Proofs.Checked
import Clearance.Proofs.Compiled
import Clearance.Proofs.Credential.Merging
import Clearance.Proofs.Credential.Name
import Clearance.Proofs.Credential.Splitting
import Clearance.Proofs.Declaration.Build
import Clearance.Proofs.Declaration.Fingerprint
import Clearance.Proofs.Declaration.Keeping
import Clearance.Proofs.Declaration.Loading
import Clearance.Proofs.Declaration.Reading
import Clearance.Proofs.Declaration.Restating
import Clearance.Proofs.Declaration.Section
import Clearance.Proofs.Declared
import Clearance.Proofs.Declared.Closedness
import Clearance.Proofs.Declared.Dangling
import Clearance.Proofs.Declared.Expansion
import Clearance.Proofs.Declared.Passes
import Clearance.Proofs.Entries
import Clearance.Proofs.Expansion
import Clearance.Proofs.Faults
import Clearance.Proofs.FieldPolicy
import Clearance.Proofs.Graph.Doubling
import Clearance.Proofs.Graph.Growing
import Clearance.Proofs.Graph.Merges
import Clearance.Proofs.Graph.Pass
import Clearance.Proofs.Graph.Renaming
import Clearance.Proofs.Graph.Settling
import Clearance.Proofs.Graph.Walks
import Clearance.Proofs.Hooks
import Clearance.Proofs.Json.Keys
import Clearance.Proofs.Json.Reading
import Clearance.Proofs.Listing
import Clearance.Proofs.Log.Preview
import Clearance.Proofs.Log.Record
import Clearance.Proofs.Policy.Acceptance
import Clearance.Proofs.Policy.Build
import Clearance.Proofs.Policy.Formatting
import Clearance.Proofs.Policy.Reordering
import Clearance.Proofs.Policy.Surfacing
import Clearance.Proofs.Principal.Formula
import Clearance.Proofs.Registry.Acceptance
import Clearance.Proofs.Registry.Adding
import Clearance.Proofs.Registry.Batches
import Clearance.Proofs.Registry.Grouping
import Clearance.Proofs.Registry.History
import Clearance.Proofs.Registry.Holding
import Clearance.Proofs.Registry.Surfacing
import Clearance.Proofs.Resolution.Field
import Clearance.Proofs.Resolution.Kind
import Clearance.Proofs.Run
import Clearance.Proofs.Text.Spacing
import Clearance.Proofs.Value.Json
import Clearance.Proofs.Value.Names
import Clearance.Proofs.Yaml.Document
import Clearance.Proofs.Yaml.Node
import Clearance.Proofs.Yaml.Token
