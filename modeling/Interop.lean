import Interop.Diagnostic
import Interop.Main
import Interop.Proofs.Validation.Walk
import Interop.Proofs.Validation.Verdict
import Interop.Proofs.Validation.Session
import Interop.Proofs.Validation.Stranger
import Interop.Proofs.Binding.Known
import Interop.Proofs.Crossing
import Interop.Proofs.Generation.Accepted
import Interop.Proofs.Files.Disk
import Interop.Proofs.Files.Stream
import Interop.Proofs.Outputs.Delivery
import Interop.Proofs.Outputs.Closing
import Interop.Proofs.Binding.Emitted
import Interop.Proofs.Generation.Delivered
import Interop.Proofs.Run.Loading
import Interop.Proofs.Run.Files
import Interop.Proofs.Binding.Shape
import Interop.Proofs.Binding.Call
import Interop.Proofs.Binding.Pairing
import Interop.Proofs.Binding.Untouched
import Interop.Proofs.Binding.Grammar
import Interop.Proofs.Binding.Classes
import Interop.Proofs.Binding.Supplied
import Interop.Proofs.Binding.Thunk
import Interop.Proofs.Binding.Members
import Interop.Proofs.Binding.Layout
import Interop.Proofs.Agreement
import Interop.Proofs.Binding.Agreement
import Interop.Proofs.Validation.Agreement
import Interop.Proofs.Generation.Refused
import Interop.Proofs.Locality
import Interop.Proofs.Run.Refused
import Interop.Proofs.Outputs.Refusal
import Interop.Proofs.Outputs.Session
import Interop.Proofs.Outputs.Settled
import Interop.Proofs.Registration
import Interop.Proofs.Dispatch.Lineage
import Interop.Proofs.Dispatch.Slots
import Interop.Proofs.Dispatch.Registered
import Interop.Proofs.Order
import Interop.Proofs.Files.Parallel
import Interop.Proofs.Outputs.Parallel
import Interop.Proofs.Generation.Alike
import Interop.Proofs.Run.Declared
import Interop.Proofs.Run.Repeated
import Interop.Proofs.Generation.Rehearsal
import Interop.Proofs.Binding.Imports
import Interop.Proofs.Binding.Glue
import Interop.Proofs.Binding.Symbols
import Interop.Proofs.Generation.GlueFile
import Interop.Proofs.Outputs.Reach
import Interop.Proofs.Binding.Locals
import Interop.Proofs.Binding.Packing
import Interop.Proofs.Files.Path
import Interop.Proofs.Generation.Clash
import Interop.Proofs.Validation.Evidence
import Interop.Proofs.Validation.Effort
import Interop.Proofs.Binding.Visible
import Interop.Proofs.Binding.Constructors
import Interop.Proofs.Binding.Handles
import Interop.Proofs.Binding.BodyScope
import Interop.Proofs.Crossing.Coherence
import Interop.Proofs.Crossing.Rendering
import Interop.Proofs.Binding.Names
import Interop.Proofs.Binding.Apart
import Interop.Proofs.Reference
import Interop.Proofs.Registration.History
import Interop.Proofs.Registration.Found
import Interop.Proofs.Dispatch.Ancestors
import Interop.Proofs.Text.Distance
import Interop.Proofs.Generation.Counted
import Interop.Proofs.Outputs.Ending
import Interop.Proofs.Declaration.Checked
