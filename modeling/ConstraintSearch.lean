import ConstraintSearch.Main
import ConstraintSearch.Proofs.Branching.Agreement
import ConstraintSearch.Proofs.Branching.Choices
import ConstraintSearch.Proofs.Branching.Drawing
import ConstraintSearch.Proofs.Branching.Preference
import ConstraintSearch.Proofs.Domain.FiniteSets
import ConstraintSearch.Proofs.Domain.Products
import ConstraintSearch.Proofs.Domain.Sums
import ConstraintSearch.Proofs.Model.Preparable
import ConstraintSearch.Proofs.Model.Sharing
import ConstraintSearch.Proofs.Model.Unbroken
import ConstraintSearch.Proofs.Network.Exact
import ConstraintSearch.Proofs.Network.Layout
import ConstraintSearch.Proofs.Propagation.ArcConsistency
import ConstraintSearch.Proofs.Propagation.Epochs
import ConstraintSearch.Proofs.Propagation.Step
import ConstraintSearch.Proofs.Puzzle.Queens
import ConstraintSearch.Proofs.Puzzle.Squares
import ConstraintSearch.Proofs.Search.Census
import ConstraintSearch.Proofs.Search.Completeness
import ConstraintSearch.Proofs.Search.Created
import ConstraintSearch.Proofs.Search.Favoured
import ConstraintSearch.Proofs.Search.Greatest
import ConstraintSearch.Proofs.Search.Ordered
import ConstraintSearch.Proofs.Search.Readers
import ConstraintSearch.Proofs.Search.Safety
import ConstraintSearch.Proofs.Search.Termination
import ConstraintSearch.Proofs.Search.Weighted
