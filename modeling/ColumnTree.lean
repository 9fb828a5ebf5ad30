import ColumnTree.Cell.Stored
import ColumnTree.Formula.Printer
import ColumnTree.Formula.Stored
import ColumnTree.Main
import ColumnTree.Proofs.Formula.Canonical
import ColumnTree.Proofs.Formula.GeneratedValue
import ColumnTree.Proofs.Outline.Acceptance
import ColumnTree.Proofs.Outline.Upkeep
import ColumnTree.Proofs.Outline.Scope
import ColumnTree.Proofs.Formula.Declared
import ColumnTree.Proofs.Formula.Locality
import ColumnTree.Proofs.Formula.Mentioned
import ColumnTree.Proofs.Session.Conduct
import ColumnTree.Proofs.Outline.Exact
import ColumnTree.Proofs.Outline.Exported
import ColumnTree.Proofs.Outline.Followed
import ColumnTree.Proofs.Outline.ByHand
import ColumnTree.Proofs.Outline.Viewed
import ColumnTree.Proofs.Outline.Effective
import ColumnTree.Proofs.Outline.Moved
import ColumnTree.Proofs.Outline.Added
import ColumnTree.Proofs.Outline.Logged
import ColumnTree.Proofs.Outline.Removed
import ColumnTree.Proofs.Outline.Refused
import ColumnTree.Proofs.Outline.Shown
import ColumnTree.Proofs.Outline.Frontier
import ColumnTree.Proofs.Formula.Combined
import ColumnTree.Proofs.Formula.Literal
import ColumnTree.Proofs.Cell.Stored
import ColumnTree.Proofs.Outline.Allocated
import ColumnTree.Proofs.Library.Search
import ColumnTree.Proofs.Library.Pieces
import ColumnTree.Proofs.Library.Leading
import ColumnTree.Proofs.Formula.Rescanned
import ColumnTree.Proofs.Outline.WalkUp
import ColumnTree.Proofs.Formula.TextLiteral
