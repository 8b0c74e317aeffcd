import TrustStore.Administration.Handling
import TrustStore.Administration.Request
import TrustStore.Administration.Response
import TrustStore.Bytes
import TrustStore.Certificate.Body
import TrustStore.Certificate.DistinguishedName
import TrustStore.Certificate.Element
import TrustStore.Certificate.Extension
import TrustStore.Certificate.KeyUsage
import TrustStore.Certificate.ObjectId
import TrustStore.Certificate.Profile
import TrustStore.Certificate.ShortName
import TrustStore.Certificate.Validity
import TrustStore.CommandLine.Argument
import TrustStore.CommandLine.Invocation
import TrustStore.CommandLine.Parameter
import TrustStore.CommandLine.Program
import TrustStore.Entry.Acceptance
import TrustStore.Entry.Basic
import TrustStore.Entry.Draft
import TrustStore.Entry.Name
import TrustStore.Fault
import TrustStore.FileTree.Basic
import TrustStore.FileTree.Calls
import TrustStore.FileTree.Error
import TrustStore.FileTree.Path
import TrustStore.Json.Basic
import TrustStore.Json.Decoder
import TrustStore.Json.Numeral
import TrustStore.Json.Printer
import TrustStore.Json.Problem
import TrustStore.Json.Reader
import TrustStore.Json.Source
import TrustStore.Lease.Ceilings
import TrustStore.Lease.Duration
import TrustStore.Lease.Term
import TrustStore.Main
import TrustStore.Numeric.Binary64
import TrustStore.Numeric.Shortest
import TrustStore.Operation
import TrustStore.Pem.Base64
import TrustStore.Pem.Block
import TrustStore.Policies
import TrustStore.Policies.Choice
import TrustStore.Proofs.Bytes
import TrustStore.Proofs.Certificate.KeyUsage
import TrustStore.Proofs.Chain
import TrustStore.Proofs.CommandLine.Agreement
import TrustStore.Proofs.CommandLine.Rendering
import TrustStore.Proofs.Entry.Draft
import TrustStore.Proofs.Entry.Name
import TrustStore.Proofs.Entry.NamePattern
import TrustStore.Proofs.Entry.Record
import TrustStore.Proofs.Entry.Restatement
import TrustStore.Proofs.Entry.Rules
import TrustStore.Proofs.Entry.Soundness
import TrustStore.Proofs.FileTree.Agreement
import TrustStore.Proofs.FileTree.Changes
import TrustStore.Proofs.FileTree.Closed
import TrustStore.Proofs.FileTree.Debris
import TrustStore.Proofs.FileTree.Path
import TrustStore.Proofs.FileTree.Reach
import TrustStore.Proofs.FileTree.Walk
import TrustStore.Proofs.Json.CompactText
import TrustStore.Proofs.Json.Depth
import TrustStore.Proofs.Json.Grammar
import TrustStore.Proofs.Json.NumberText
import TrustStore.Proofs.Json.PrettyText
import TrustStore.Proofs.Json.Record
import TrustStore.Proofs.Json.SpelledText
import TrustStore.Proofs.Json.StringText
import TrustStore.Proofs.Lease.Ceilings
import TrustStore.Proofs.Lease.Duration
import TrustStore.Proofs.Lease.Grammar
import TrustStore.Proofs.Lease.Range
import TrustStore.Proofs.Lease.Rounding
import TrustStore.Proofs.Lease.Signs
import TrustStore.Proofs.Lease.Spelling
import TrustStore.Proofs.Lease.WholeCounts
import TrustStore.Proofs.Numeric.Binary64
import TrustStore.Proofs.Numeric.LowerBound
import TrustStore.Proofs.Pem.Grammar
import TrustStore.Proofs.Policies
import TrustStore.Proofs.Registry.Access
import TrustStore.Proofs.Registry.Blame
import TrustStore.Proofs.Registry.Bundles
import TrustStore.Proofs.Registry.CallerFaults
import TrustStore.Proofs.Registry.Confinement
import TrustStore.Proofs.Registry.Excess
import TrustStore.Proofs.Registry.Failures
import TrustStore.Proofs.Registry.Interchange
import TrustStore.Proofs.Registry.Keys
import TrustStore.Proofs.Registry.Map
import TrustStore.Proofs.Registry.NameGates
import TrustStore.Proofs.Registry.NameLengths
import TrustStore.Proofs.Registry.Refinement
import TrustStore.Proofs.Registry.RenderedResponses
import TrustStore.Proofs.Registry.ResolvedPolicies
import TrustStore.Proofs.Registry.Restatement
import TrustStore.Proofs.Registry.Run
import TrustStore.Proofs.Registry.Spellings
import TrustStore.Proofs.Registry.UpdateData
import TrustStore.Proofs.Registry.Writes
import TrustStore.Proofs.Settings
import TrustStore.Proofs.Storage.Containment
import TrustStore.Proofs.Storage.Directory
import TrustStore.Proofs.Storage.EntryFiles
import TrustStore.Proofs.Storage.FailedPuts
import TrustStore.Proofs.Storage.FailedWrites
import TrustStore.Proofs.Storage.Footprint
import TrustStore.Proofs.Storage.KeyFiles
import TrustStore.Proofs.Storage.KeyTable
import TrustStore.Proofs.Storage.Keys
import TrustStore.Proofs.Storage.Leftovers
import TrustStore.Proofs.Storage.Listing
import TrustStore.Proofs.Storage.OtherKeys
import TrustStore.Proofs.Storage.PrivateFiles
import TrustStore.Proofs.Storage.Puts
import TrustStore.Proofs.Storage.Queries
import TrustStore.Proofs.Storage.SavedRecords
import TrustStore.Proofs.Text.Ascending
import TrustStore.Proofs.Text.CaseVariants
import TrustStore.Proofs.Text.Decimal
import TrustStore.Proofs.Text.Lowercase
import TrustStore.Proofs.Text.Pattern
import TrustStore.Proofs.Text.Ranges
import TrustStore.Proofs.Text.Split
import TrustStore.Proofs.Text.WordCase
import TrustStore.Proofs.WireTypes
import TrustStore.Registry
import TrustStore.Settings
import TrustStore.Storage.Basic
import TrustStore.Storage.Directory
import TrustStore.Storage.KeyTable
import TrustStore.Text.Ascii
import TrustStore.Text.Blank
import TrustStore.Text.CaseTable
import TrustStore.Text.Lowercase
import TrustStore.Text.Order
import TrustStore.Text.PrintTable
import TrustStore.Text.Quoted
import TrustStore.Text.Ranges
import TrustStore.Text.Split
import TrustStore.Text.WordChar
import TrustStore.Text.WordTable
