import ClassLayout.Access
import ClassLayout.Artifact
import ClassLayout.Command.Arguments
import ClassLayout.Command.Help
import ClassLayout.Command.Run
import ClassLayout.Command.Usage
import ClassLayout.Decimal.Binary64
import ClassLayout.Decimal.Shortest
import ClassLayout.Digest.Blake3
import ClassLayout.Error
import ClassLayout.Hierarchy.Declaration
import ClassLayout.Hierarchy.Dispatch
import ClassLayout.Hierarchy.Error
import ClassLayout.Hierarchy.FieldLayout
import ClassLayout.Hierarchy.Order
import ClassLayout.Json.Mismatch
import ClassLayout.Json.Number
import ClassLayout.Json.Shape
import ClassLayout.Json.Token
import ClassLayout.Json.Tree
import ClassLayout.Json.Value
import ClassLayout.Listing
import ClassLayout.Log.Event
import ClassLayout.Log.Lowering
import ClassLayout.Log.Settings
import ClassLayout.Lowering
import ClassLayout.Main
import ClassLayout.Member
import ClassLayout.Program
import ClassLayout.Proofs.Artifact
import ClassLayout.Proofs.Builder
import ClassLayout.Proofs.CommandLine
import ClassLayout.Proofs.Cycle
import ClassLayout.Proofs.Declaration
import ClassLayout.Proofs.Dispatch
import ClassLayout.Proofs.Emission
import ClassLayout.Proofs.EntryPolicy
import ClassLayout.Proofs.FieldNames
import ClassLayout.Proofs.Fingerprint
import ClassLayout.Proofs.Focus
import ClassLayout.Proofs.Identity
import ClassLayout.Proofs.Json.AnyOrder
import ClassLayout.Proofs.Json.Document
import ClassLayout.Proofs.Json.Reading
import ClassLayout.Proofs.Json.Spelling
import ClassLayout.Proofs.Layout
import ClassLayout.Proofs.Locality
import ClassLayout.Proofs.LooseMembers
import ClassLayout.Proofs.MemberSpelling
import ClassLayout.Proofs.NameIndex
import ClassLayout.Proofs.Names
import ClassLayout.Proofs.Order
import ClassLayout.Proofs.Outcome
import ClassLayout.Proofs.Positional
import ClassLayout.Proofs.Provenance
import ClassLayout.Proofs.Rank
import ClassLayout.Proofs.Registry
import ClassLayout.Proofs.Resolved
import ClassLayout.Proofs.RoundTrip
import ClassLayout.Proofs.Shape
import ClassLayout.Proofs.Silent
import ClassLayout.Proofs.SlotBytes
import ClassLayout.Proofs.Table
import ClassLayout.Proofs.TableEvents
import ClassLayout.Proofs.Targets
import ClassLayout.Registry
import ClassLayout.Roots
import ClassLayout.Signature
import ClassLayout.Slot
import ClassLayout.Source.Basic
import ClassLayout.Source.Builder
import ClassLayout.Source.Decode
import ClassLayout.Source.Encode
import ClassLayout.Storage
import ClassLayout.Storage.Disk
import ClassLayout.Storage.Path
import ClassLayout.Table
import ClassLayout.Text.Blank
import ClassLayout.Text.Hidden
import ClassLayout.Text.Quoted
import ClassLayout.TypeName
