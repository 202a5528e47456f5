import JoinGraph.Main
import JoinGraph.Proofs.App.JsonMode
import JoinGraph.Proofs.Comment.LineEnds
import JoinGraph.Proofs.Condition.Identifiers
import JoinGraph.Proofs.Excerpt.Carets
import JoinGraph.Proofs.Extraction.Comments
import JoinGraph.Proofs.Extraction.Diagnostics
import JoinGraph.Proofs.Extraction.Kept
import JoinGraph.Proofs.Extraction.Overlap
import JoinGraph.Proofs.Extraction.Shift
import JoinGraph.Proofs.Extraction.Silence
import JoinGraph.Proofs.Extraction.Spelling
import JoinGraph.Proofs.Graph.Wire
import JoinGraph.Proofs.Network.Document
import JoinGraph.Proofs.Network.Groups
import JoinGraph.Proofs.Network.Queries
import JoinGraph.Proofs.Network.Upstream
import JoinGraph.Proofs.Paren.Partner
import JoinGraph.Proofs.Reference.SharedWords
import JoinGraph.Proofs.Scope.Settled
import JoinGraph.Proofs.Scope.Sides
import JoinGraph.Proofs.Script.Highlighted
import JoinGraph.Version
