import Rebind.Main
import Rebind.Session
import Rebind.Proofs.Courses
import Rebind.Proofs.Reports
import Rebind.Proofs.Attempt
import Rebind.Proofs.Peg
import Rebind.Proofs.PegRuns
import Rebind.Proofs.Constructions
import Rebind.Proofs.Soundness
import Rebind.Proofs.Likeness
import Rebind.Proofs.Identities
import Rebind.Proofs.Transparency
import Rebind.Proofs.Extension
import Rebind.Proofs.LateBinding
import Rebind.Proofs.Translation
import Rebind.Proofs.Provenance
import Rebind.Proofs.Roundtrip
import Rebind.Proofs.LastRun
import Rebind.Proofs.Termination
import Rebind.Proofs.Frame
import Rebind.Proofs.FrameTracing
import Rebind.Proofs.Replacement
import Rebind.Proofs.Caret
import Rebind.Proofs.Choices
import Rebind.Proofs.Flattening
import Rebind.Proofs.Repetition
import Rebind.Proofs.EndOfInput
import Rebind.Proofs.Memoryless
import Rebind.Proofs.Unmarking
import Rebind.Proofs.Renumbering
import Rebind.Proofs.TraceLines
import Rebind.Proofs.Retracing
import Rebind.Proofs.Scripts
import Rebind.Proofs.Styling
import Rebind.Proofs.RetracedRuns
import Rebind.Proofs.ParseCommand
import Rebind.Proofs.References
import Rebind.Proofs.Containment
import Rebind.Proofs.ScriptReferences
import Rebind.Proofs.Depths
import Rebind.Proofs.Counterparts
import Rebind.Proofs.Scoping
import Rebind.Proofs.Binding
import Rebind.Proofs.PlainLines
import Rebind.Proofs.CallTrees
import Rebind.Proofs.RecitedRuns
import Rebind.Proofs.Coordinates
import Rebind.Proofs.Colorless
import Rebind.Proofs.FileTrees
import Rebind.Proofs.NearestConfig
import Rebind.Proofs.Windows
