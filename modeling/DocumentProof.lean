import DocumentProof.Bytes.Basic
import DocumentProof.Bytes.Hex
import DocumentProof.Command.Arguments
import DocumentProof.Command.Document
import DocumentProof.Command.Error
import DocumentProof.Command.Files
import DocumentProof.Command.Output
import DocumentProof.Command.Run
import DocumentProof.Config.Basic
import DocumentProof.Config.Json
import DocumentProof.Config.Yaml
import DocumentProof.Curve.Ecdsa
import DocumentProof.Curve.Secp256k1
import DocumentProof.Decimal.Binary64
import DocumentProof.Hash.Keccak
import DocumentProof.Hash.Sha256
import DocumentProof.Identity
import DocumentProof.Json.Basic
import DocumentProof.Json.Canonical
import DocumentProof.Json.Decode
import DocumentProof.Json.Reader
import DocumentProof.Json.Writer
import DocumentProof.Keyed
import DocumentProof.Proof.Basic
import DocumentProof.Proof.Error
import DocumentProof.Proof.Loader
import DocumentProof.Proof.Purpose
import DocumentProof.Proof.Suite
import DocumentProof.Proofs.Bytes
import DocumentProof.Proofs.Json.Structure
import DocumentProof.Proofs.Keyed
import DocumentProof.Proofs.Outcome
import DocumentProof.Proofs.Proof.RoundTrip
import DocumentProof.Proofs.Proof.Steps
import DocumentProof.Proofs.Schema.Derived
import DocumentProof.Proofs.Schema.DocumentHash
import DocumentProof.Proofs.Schema.FieldText
import DocumentProof.Proofs.TypedData.Binding
import DocumentProof.Proofs.TypedData.Encoder
import DocumentProof.Proofs.TypedData.Envelope
import DocumentProof.Proofs.TypedData.References
import DocumentProof.Proofs.TypedData.TypeText
import DocumentProof.Proofs.TypedData.TypedValue
import DocumentProof.Proofs.Wallet.Text
import DocumentProof.Schema.Basic
import DocumentProof.Schema.Derive
import DocumentProof.Schema.FieldType
import DocumentProof.Schema.Registry
import DocumentProof.Store.FileLoader
import DocumentProof.Store.FileStore
import DocumentProof.Store.FileUrl
import DocumentProof.Store.Host
import DocumentProof.Store.Path
import DocumentProof.Text.Blank
import DocumentProof.Text.Printable
import DocumentProof.Text.Quoted
import DocumentProof.Text.Upper
import DocumentProof.Time.Calendar
import DocumentProof.Time.Instant
import DocumentProof.Time.Json
import DocumentProof.Time.Timestamp
import DocumentProof.TypedData.Domain
import DocumentProof.TypedData.EncodeData
import DocumentProof.TypedData.EncodeType
import DocumentProof.TypedData.Envelope
import DocumentProof.TypedData.Error
import DocumentProof.TypedData.FixedHex
import DocumentProof.Wallet.Basic
import DocumentProof.Wallet.Checksum
import DocumentProof.Wallet.Wire
import DocumentProof.Yaml.Mark
import DocumentProof.Yaml.Node
import DocumentProof.Yaml.Plain
import DocumentProof.Yaml.Scalar
import DocumentProof.Yaml.Token
import DocumentProof.Yaml.Value
import DocumentProof.Main
import DocumentProof.Proofs.Json.Order
import DocumentProof.Proofs.Schema.Nodes
import DocumentProof.Proofs.Schema.Walk
import DocumentProof.Proofs.Schema.Exact
import DocumentProof.Proofs.Json.Canonical
import DocumentProof.Proofs.Schema.Reserved
import DocumentProof.Proofs.Proof.Signable
import DocumentProof.Proofs.Schema.Respelled
import DocumentProof.Proofs.Proof.Embedded
import DocumentProof.Proofs.Json.Record
import DocumentProof.Proofs.Proof.Wire
import DocumentProof.Proofs.Command.Document
import DocumentProof.Proofs.Json.NormalForm
import DocumentProof.Proofs.Proof.Verdict
import DocumentProof.Proofs.Proof.Metadata
import DocumentProof.Proofs.Proof.Tampered
import DocumentProof.Proofs.Json.NameOrder
import DocumentProof.Proofs.Json.MemberOrder
import DocumentProof.Proofs.TypedData.Walk
import DocumentProof.Proofs.TypedData.Notation
import DocumentProof.Proofs.TypedData.Evaluation
import DocumentProof.Proofs.TypedData.Conforms
import DocumentProof.Proofs.TypedData.Atoms
import DocumentProof.Proofs.TypedData.SameValue
import DocumentProof.Proofs.Schema.Acyclic
import DocumentProof.Proofs.TypedData.Integer
import DocumentProof.Proofs.TypedData.DomainHash
import DocumentProof.Proofs.TypedData.DomainSeparation
import DocumentProof.Proofs.TypedData.Locality
import DocumentProof.Proofs.Proof.CanonicalText
import DocumentProof.Proofs.Proof.Reference
import DocumentProof.Proofs.Time.Rendering
import DocumentProof.Proofs.Schema.Spelling
import DocumentProof.Proofs.Wallet.WireForm
import DocumentProof.Proofs.Schema.ReadBack
import DocumentProof.Proofs.Schema.Registration
import DocumentProof.Proofs.Proof.Naming
import DocumentProof.Proofs.Wallet.Keys
