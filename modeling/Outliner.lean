import Outliner.CommandLine.Perform
import Outliner.Forest.Lemmas
import Outliner.Proofs.AppendedText
import Outliner.Proofs.ArgumentReading
import Outliner.Proofs.Attachment
import Outliner.Proofs.Bucketing
import Outliner.Proofs.Choices
import Outliner.Proofs.ClosedBlocks
import Outliner.Proofs.Collapsing
import Outliner.Proofs.CommandSteps
import Outliner.Proofs.Descent
import Outliner.Proofs.Enclosing
import Outliner.Proofs.IndentOrder
import Outliner.Proofs.Legible
import Outliner.Proofs.LineForms
import Outliner.Proofs.Navbar
import Outliner.Proofs.Nesting
import Outliner.Proofs.Outline
import Outliner.Proofs.Rerendering
import Outliner.Proofs.Runs
import Outliner.Proofs.Siblings
import Outliner.Proofs.NavbarRows
import Outliner.Proofs.RowSearch
import Outliner.Proofs.NearestRow
import Outliner.Proofs.JsonText
import Outliner.Proofs.Toggling
import Outliner.Proofs.Refusals
import Outliner.Proofs.Replay
import Outliner.Proofs.SafeAccess
import Outliner.Proofs.SavedPreferences
import Outliner.Proofs.Utf8
import Outliner.Proofs.StoredText
import Outliner.Proofs.FileLines
import Outliner.Proofs.Terminal
import Outliner.Proofs.Relabelling
import Outliner.Proofs.Colour
import Outliner.Proofs.SiblingOrder
import Outliner.Proofs.Levels
import Outliner.Proofs.DrawnRows
import Outliner.Proofs.LevelsShown
import Outliner.Proofs.BucketPartition
import Outliner.Proofs.SurroundingBlanks
import Outliner.Proofs.SubtreeSort
import Outliner.Proofs.LabelColumns
import Outliner.Proofs.Stepping
import Outliner.Proofs.AttachmentLog
import Outliner.Proofs.Lineage
