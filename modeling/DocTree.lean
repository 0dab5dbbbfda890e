import DocTree.Expectation
import DocTree.Main
import DocTree.Workbench
import DocTree.Proofs.Links
import DocTree.Proofs.WellFormed
import DocTree.Proofs.Absorption
import DocTree.Proofs.Assembly
import DocTree.Proofs.Checked
import DocTree.Proofs.CheckedBuilding
import DocTree.Proofs.Conservation
import DocTree.Proofs.Operations
import DocTree.Proofs.PrunedIntake
import DocTree.Proofs.Resumption
import DocTree.Proofs.Confinement
import DocTree.Proofs.Splicing
import DocTree.Proofs.Exhaustion
import DocTree.Proofs.Toplevel
import DocTree.Proofs.Nesting
import DocTree.Proofs.Layout
import DocTree.Proofs.Sources
import DocTree.Proofs.ListView
import DocTree.Proofs.Surroundings
import DocTree.Proofs.PlainIntake
import DocTree.Proofs.Validity
import DocTree.Proofs.Leaves
import DocTree.Proofs.Rendering
import DocTree.Proofs.Printing
import DocTree.Proofs.Sentinel
import DocTree.Proofs.LineMarkers
import DocTree.Proofs.Blocks
import DocTree.Proofs.Paragraphs
import DocTree.Proofs.Slots
import DocTree.Proofs.Constructors
import DocTree.Proofs.TokenReading
import DocTree.Proofs.Listing
import DocTree.Proofs.Containment
import DocTree.Proofs.ViewFields
import DocTree.Proofs.SettingLayers
