import GolombSet.Bits
import GolombSet.Bits.Buffer
import GolombSet.Bits.Cursor
import GolombSet.Builder.Action
import GolombSet.Builder.Basic
import GolombSet.Builder.Build
import GolombSet.Bytes
import GolombSet.Command.Arguments
import GolombSet.Command.Basic
import GolombSet.Command.Help
import GolombSet.Command.Libraries
import GolombSet.Command.Plan
import GolombSet.Command.Run
import GolombSet.CompactSize
import GolombSet.Decimal
import GolombSet.Digest
import GolombSet.Files
import GolombSet.Filter.Basic
import GolombSet.Filter.Encoding
import GolombSet.Filter.Header
import GolombSet.Filter.Query
import GolombSet.Filter.Values
import GolombSet.Filter.Wire
import GolombSet.Hex
import GolombSet.Key
import GolombSet.Lines
import GolombSet.Main
import GolombSet.Proofs.Bits.Codes
import GolombSet.Proofs.Bits.Packing
import GolombSet.Proofs.Bits.Padding
import GolombSet.Proofs.Bits.Positions
import GolombSet.Proofs.Bits.Reading
import GolombSet.Proofs.Bits.RoundTrip
import GolombSet.Proofs.Buckets
import GolombSet.Proofs.Builder.Assembly
import GolombSet.Proofs.Builder.Canonical
import GolombSet.Proofs.Builder.Determinism
import GolombSet.Proofs.Builder.Distinct
import GolombSet.Proofs.Builder.FalsePositives
import GolombSet.Proofs.Builder.History
import GolombSet.Proofs.Builder.Log
import GolombSet.Proofs.Builder.Runs
import GolombSet.Proofs.Builder.Size
import GolombSet.Proofs.Builder.Truncation
import GolombSet.Proofs.Bytes
import GolombSet.Proofs.Command.Answers
import GolombSet.Proofs.Command.Building
import GolombSet.Proofs.Command.Sources
import GolombSet.Proofs.Command.Storing
import GolombSet.Proofs.CompactSize
import GolombSet.Proofs.CompactSize.Canonical
import GolombSet.Proofs.Digest
import GolombSet.Proofs.Files
import GolombSet.Proofs.Filter.Batch
import GolombSet.Proofs.Filter.Chain
import GolombSet.Proofs.Filter.Decoding
import GolombSet.Proofs.Filter.Extension
import GolombSet.Proofs.Filter.Iteration
import GolombSet.Proofs.Filter.Reencoding
import GolombSet.Proofs.Filter.Refusal
import GolombSet.Proofs.Filter.Search
import GolombSet.Proofs.Filter.Size
import GolombSet.Proofs.Filter.Truncation
import GolombSet.Proofs.Filter.Wire
import GolombSet.Proofs.Hex
import GolombSet.Proofs.Lines
import GolombSet.Proofs.Lines.Segments
import GolombSet.Proofs.Places
import GolombSet.Proofs.Rice
import GolombSet.Proofs.SipHash
import GolombSet.Proofs.Words
import GolombSet.Rice
import GolombSet.Sha256
import GolombSet.SipHash
import GolombSet.SipHash.Hasher
import GolombSet.Symbol
import GolombSet.Terminal
