import Provenance.Algorithm
import Provenance.Artifact.Basic
import Provenance.Artifact.Set
import Provenance.Bytes
import Provenance.Cipher.Aes
import Provenance.Cipher.Cbc
import Provenance.Cli.Arguments
import Provenance.Cli.Checking
import Provenance.Cli.Error
import Provenance.Cli.Filter
import Provenance.Cli.Plan
import Provenance.Cli.Program
import Provenance.Cli.Signing
import Provenance.Cli.Surroundings
import Provenance.Config.Effective
import Provenance.Config.Merge
import Provenance.Config.Settings
import Provenance.Config.Source
import Provenance.Curve.Edwards25519
import Provenance.Curve.Field
import Provenance.Curve.P384
import Provenance.Der.Basic
import Provenance.File.Basic
import Provenance.File.Document
import Provenance.File.Hashing
import Provenance.File.Tree
import Provenance.Glob.Basic
import Provenance.Glob.Match
import Provenance.Glob.Reader
import Provenance.Hash.Function
import Provenance.Hash.LineEnding
import Provenance.Hash.Sha256
import Provenance.Hash.Sha512
import Provenance.Hash.Stream
import Provenance.Json.Basic
import Provenance.Json.Canonical
import Provenance.Json.Document
import Provenance.Json.Printer
import Provenance.Json.Reader
import Provenance.Json.Record
import Provenance.Kdf.Pbkdf2
import Provenance.Kdf.Scrypt
import Provenance.Key.Container
import Provenance.Key.Encryption
import Provenance.Key.PrivateKey
import Provenance.Key.PublicKey
import Provenance.Key.Ring
import Provenance.Layout.Approval
import Provenance.Layout.Basic
import Provenance.Link
import Provenance.Main
import Provenance.Number.Binary64
import Provenance.Number.Shortest
import Provenance.Rule.Basic
import Provenance.Rule.Context
import Provenance.Rule.Destination
import Provenance.Rule.Evaluation
import Provenance.Rule.Pattern
import Provenance.Signature.Basic
import Provenance.Signature.Ecdsa
import Provenance.Signature.Ed25519
import Provenance.Signature.Error
import Provenance.Signature.Registry
import Provenance.Signature.Scheme
import Provenance.Text.Alphanumeric
import Provenance.Text.Base64
import Provenance.Text.Blank
import Provenance.Text.Hex
import Provenance.Text.Printable
import Provenance.Text.Quoted
import Provenance.Time.Instant
import Provenance.Time.Text
import Provenance.Toml.Item
import Provenance.Toml.Lexical
import Provenance.Toml.Reader
import Provenance.Verification.Admission
import Provenance.Verification.Error
import Provenance.Verification.Release
import Provenance.Verification.Report
import Provenance.Verification.Run
import Provenance.Verification.Violation
import Provenance.Proofs.Rule.FirstMatch
import Provenance.Proofs.Checks
import Provenance.Proofs.Key.Ring
import Provenance.Proofs.Verification.Gate
import Provenance.Proofs.Layout.WellFormed
import Provenance.Proofs.Verification.Support
import Provenance.Proofs.Verification.Step
import Provenance.Proofs.Verification.Fatal
import Provenance.Proofs.Verification.Selection
import Provenance.Proofs.Json.Canonical
import Provenance.Proofs.Link.Document
import Provenance.Proofs.Layout.Document
import Provenance.Proofs.Layout.Similar
import Provenance.Proofs.Link.Similar
import Provenance.Proofs.Payload
import Provenance.Proofs.Layout.Walk
import Provenance.Proofs.Verification.Order
import Provenance.Proofs.Verification.Links
import Provenance.Proofs.Verification.Contents
import Provenance.Proofs.Verification.Minority
import Provenance.Proofs.Verification.Tracing
import Provenance.Proofs.Hash.Stream
import Provenance.Proofs.Verification.Trail
import Provenance.Proofs.Json.Printing
import Provenance.Proofs.Json.Record
import Provenance.Proofs.Stored.Blocks
import Provenance.Proofs.Stored.Releases
import Provenance.Proofs.Stored.Survival
import Provenance.Proofs.Signature.Signing
import Provenance.Proofs.Cipher.Aes
import Provenance.Proofs.Cipher.Cbc
import Provenance.Proofs.Der
import Provenance.Proofs.Key.Encryption
import Provenance.Proofs.Rule.Consumption
import Provenance.Proofs.Rule.WholePaths
import Provenance.Proofs.Verification.Reordering
import Provenance.Proofs.Verification.Counts
import Provenance.Proofs.Verification.Recount
import Provenance.Proofs.Verification.Discards
import Provenance.Proofs.Glob.Acceptance
import Provenance.Proofs.Rule.Translation
import Provenance.Proofs.Rule.Duality
import Provenance.Proofs.Rule.Shrinking
import Provenance.Proofs.Rule.CatchAll
import Provenance.Proofs.Verification.Quorum
import Provenance.Proofs.Rule.Usable
import Provenance.Proofs.Layout.Usable
import Provenance.Proofs.Verification.Releases
import Provenance.Proofs.Verification.Approvals
import Provenance.Proofs.Json.Paths
import Provenance.Proofs.Config.Precedence
import Provenance.Proofs.Config.Defaults
import Provenance.Proofs.Config.Effective
import Provenance.Proofs.Signature.Slots
import Provenance.Proofs.Signature.Answers
import Provenance.Proofs.Curve.Neutral
import Provenance.Proofs.Verification.Unusable
import Provenance.Proofs.Hash.LineEnding
import Provenance.Proofs.Json.Sorting
import Provenance.Proofs.Json.Arrangement
import Provenance.Proofs.Json.Spacing
import Provenance.Proofs.Stored.NormalForm
import Provenance.Proofs.Rule.Rehashing
import Provenance.Proofs.Verification.Chains
import Provenance.Proofs.Text.Utf8
import Provenance.Proofs.Glob.Segments
import Provenance.Proofs.Verification.Fallbacks
import Provenance.Proofs.File.Tree
import Provenance.Proofs.File.Document
import Provenance.Proofs.Cli.Program
import Provenance.Proofs.Cli.Signing
import Provenance.Proofs.Stored.Reports
import Provenance.Proofs.Cli.Verdict
import Provenance.Proofs.Link.Repeats
import Provenance.Proofs.Verification.Grouping
import Provenance.Proofs.Key.Insertion
