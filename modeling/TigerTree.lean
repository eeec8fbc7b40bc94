import TigerTree.Builder
import TigerTree.Interchange.Reading
import TigerTree.Interchange.Writing
import TigerTree.Journal
import TigerTree.Proofs.Evaluation.Meaning
import TigerTree.Proofs.Rendering.Layout
import TigerTree.Rendering.Sink
import TigerTree.StackBudget
import TigerTree.Proofs.Rendering.Sketch
import TigerTree.Proofs.Unfolding.Intact
import TigerTree.Proofs.Rendering.Vocabulary
import TigerTree.Proofs.Building.Growth
import TigerTree.Proofs.Rendering.Comments
import TigerTree.Proofs.Building.Soundness
import TigerTree.Proofs.Rendering.Nesting
import TigerTree.Proofs.Building.Nodes
import TigerTree.Proofs.Building.Calls
import TigerTree.Proofs.Reading.Tokens
import TigerTree.Proofs.Reading.Surface
import TigerTree.Proofs.Reading.Legible
import TigerTree.Proofs.Reading.RoundTrip
import TigerTree.Proofs.Reading.Spelled
import TigerTree.Proofs.Reading.Unambiguous
import TigerTree.Proofs.Evaluation.Folding
import TigerTree.Proofs.Rendering.Violations
import TigerTree.Proofs.Rendering.Position
import TigerTree.Proofs.Building.Store
import TigerTree.Proofs.Building.Refinement
import TigerTree.Proofs.Building.Runs
import TigerTree.Proofs.Rendering.Objections
import TigerTree.Proofs.Rendering.Decorations
import TigerTree.Proofs.Names.Interning
import TigerTree.Proofs.Rendering.Sharing
import TigerTree.Proofs.Interchange.Schema
import TigerTree.Proofs.Interchange.Fidelity
import TigerTree.Proofs.Interchange.Restoration
import TigerTree.Proofs.Rendering.Delivery
import TigerTree.Proofs.Names.History
import TigerTree.Proofs.Evaluation.Agreement
import TigerTree.Proofs.Reading.Precedence
import TigerTree.Proofs.Reading.Arithmetic
import TigerTree.Proofs.Rendering.Diagnostics
import TigerTree.Proofs.Reading.Literals
import TigerTree.Proofs.Evaluation.Wrapping
import TigerTree.Proofs.Evaluation.Asking
import TigerTree.Proofs.Evaluation.Locality
import TigerTree.Proofs.Rendering.Places
import TigerTree.Proofs.Rendering.Interruption
import TigerTree.Proofs.Rendering.Completion
import TigerTree.Proofs.Rendering.Lines
import TigerTree.Proofs.Rendering.Breaks
import TigerTree.Proofs.Rendering.Alignment
import TigerTree.Proofs.Rendering.Renumbering
import TigerTree.Proofs.Building.Targets
import TigerTree.Proofs.Building.Setters
import TigerTree.Proofs.Building.Naming
import TigerTree.Proofs.Building.Independence
import TigerTree.Proofs.Names.Capacity
import TigerTree.Proofs.Building.Amendments
import TigerTree.Proofs.Rendering.Rows
import TigerTree.Proofs.Rendering.Containment
import TigerTree.Proofs.Building.Hiding
import TigerTree.Proofs.Building.Refusals
