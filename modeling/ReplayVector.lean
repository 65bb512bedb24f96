import ReplayVector.Archive.Writer
import ReplayVector.Chain.Node
import ReplayVector.CommandLine
import ReplayVector.Endpoint
import ReplayVector.Endpoint.Domain
import ReplayVector.Endpoint.Domain.Composition
import ReplayVector.Endpoint.Domain.Mapping
import ReplayVector.Endpoint.Domain.Properties
import ReplayVector.Endpoint.Ip
import ReplayVector.Endpoint.Multiaddr
import ReplayVector.Endpoint.Url
import ReplayVector.Execution.Environment
import ReplayVector.Execution.Probe
import ReplayVector.Extraction
import ReplayVector.Extraction.Delivery
import ReplayVector.Extraction.Fault
import ReplayVector.Extraction.Precursors
import ReplayVector.Extraction.Resolution
import ReplayVector.Extraction.Retention
import ReplayVector.Extraction.Verification
import ReplayVector.Files.Tree
import ReplayVector.Fixture.Chain
import ReplayVector.Fixture.State
import ReplayVector.Fixture.Transfers
import ReplayVector.Fixture.Watch
import ReplayVector.Gzip
import ReplayVector.Machine
import ReplayVector.Main
import ReplayVector.Program
import ReplayVector.Rpc.Connection
import ReplayVector.Rpc.Http
import ReplayVector.Rpc.Method
import ReplayVector.Rpc.Server
import ReplayVector.Rpc.WebSocket
import ReplayVector.State.Mask
import ReplayVector.State.Tree
import ReplayVector.Store.Memory
import ReplayVector.Store.Tracing
import ReplayVector.TestVector
import ReplayVector.Text.CodePointTable
import ReplayVector.Text.Fields
import ReplayVector.Text.Percent
import ReplayVector.Text.Punycode
import ReplayVector.Proofs.Bytes.Text
import ReplayVector.Proofs.Bytes.Varint
import ReplayVector.Proofs.Cid.Bytes
import ReplayVector.Proofs.Cbor.RoundTrip
import ReplayVector.Proofs.Cbor.Links
import ReplayVector.Proofs.Chain.Message
import ReplayVector.Proofs.Cid.Text
import ReplayVector.Proofs.State.Allocation
import ReplayVector.Proofs.State.Roots
import ReplayVector.Proofs.Extraction.Gate
import ReplayVector.Proofs.Extraction.Selection
import ReplayVector.Proofs.Extraction.Replay
import ReplayVector.Proofs.Gzip.RoundTrip
import ReplayVector.Proofs.Archive.RoundTrip
import ReplayVector.Proofs.Archive.Walk
import ReplayVector.Proofs.Archive.Preorder
import ReplayVector.Proofs.Archive.Reload
import ReplayVector.Proofs.Execution.Transfer
import ReplayVector.Proofs.Extraction.Traced
import ReplayVector.Proofs.Execution.Settlement
import ReplayVector.Proofs.Execution.Touched
import ReplayVector.Proofs.Extraction.Masked
import ReplayVector.Proofs.Execution.Sequences
import ReplayVector.Proofs.Execution.Buffered
import ReplayVector.Proofs.Execution.Conserved
import ReplayVector.Proofs.Extraction.Complete
import ReplayVector.Proofs.Archive.Load
import ReplayVector.Proofs.Archive.Truncated
import ReplayVector.Proofs.Archive.Packed
import ReplayVector.Proofs.Extraction.Located
import ReplayVector.Proofs.Extraction.Precursors
import ReplayVector.Proofs.Extraction.Retained
import ReplayVector.Proofs.Extraction.Projected
import ReplayVector.Proofs.Extraction.Crashes
import ReplayVector.Proofs.Extraction.Delivery
import ReplayVector.Proofs.Address.Text
import ReplayVector.Proofs.Json.Spelling
import ReplayVector.Proofs.Json.Nesting
import ReplayVector.Proofs.Chain.Forms
import ReplayVector.Proofs.Rpc.Serving
import ReplayVector.Proofs.Endpoint.Token
import ReplayVector.Proofs.Store.Calls
import ReplayVector.Proofs.Store.Coherence
import ReplayVector.Proofs.Store.Recording
import ReplayVector.Proofs.Extraction.Recording
import ReplayVector.Proofs.Documents
import ReplayVector.Proofs.Chain.Tipset
import ReplayVector.Proofs.Extraction.Accessed
