import WideGraph.Proofs.Order.LawfulOn
import WideGraph.Main
import WideGraph.GraphTable.Reading
import WideGraph.GraphTable.Writing
import WideGraph.ScriptedSession
import WideGraph.Store.World
import WideGraph.Proofs.Order.StorableValue
import WideGraph.Proofs.Store.Commit
import WideGraph.Proofs.Store.Reachable
import WideGraph.Proofs.Store.Coherence
import WideGraph.Proofs.Store.Answer
import WideGraph.Proofs.GraphTable.Answer
import WideGraph.Proofs.Text.WordLiteral
import WideGraph.Proofs.TokenRing
import WideGraph.Proofs.GraphTable.Creation
import WideGraph.Proofs.GraphTable.Merging
import WideGraph.Proofs.GraphTable.RangeReading
import WideGraph.Proofs.Query.Reading
import WideGraph.Proofs.GraphTable.QueryReading
import WideGraph.Proofs.GraphTable.IndexMap
import WideGraph.Proofs.GraphTable.IndexRows
import WideGraph.Proofs.GraphTable.IndexPlans
import WideGraph.Proofs.GraphTable.IndexRefinement
import WideGraph.Proofs.Store.Turns
import WideGraph.Proofs.Store.CommitLog
import WideGraph.Proofs.Store.Deletion
import WideGraph.Proofs.Store.Insertion
import WideGraph.Proofs.GraphTable.LabelDeletion
import WideGraph.Proofs.Identifier
import WideGraph.Proofs.GraphTable.IdLookup
import WideGraph.Proofs.GraphTable.InsertedElement
import WideGraph.Proofs.GraphTable.QueryLimit
import WideGraph.Proofs.GraphTable.IdDeletion
import WideGraph.Proofs.GraphTable.RefusedChange
import WideGraph.Proofs.Store.Representation
import WideGraph.Proofs.Store.Origins
import WideGraph.Proofs.Store.WholeKeys
import WideGraph.Proofs.Order.AnyValue
import WideGraph.Proofs.Store.CellTypes
import WideGraph.Proofs.Store.EmptyCollections
import WideGraph.Proofs.Statement.Reading
import WideGraph.Proofs.Store.Alternatives
import WideGraph.Proofs.Store.Equalities
import WideGraph.Proofs.Store.UpdatedRow
import WideGraph.Proofs.GraphTable.PropertyChanges
import WideGraph.Proofs.FirstFault
import WideGraph.Proofs.Store.Nesting
import WideGraph.Proofs.Query.Compilation
import WideGraph.Proofs.GraphTable.FanOut
import WideGraph.Proofs.GraphTable.JoinedConditions
import WideGraph.Proofs.Store.Refusal
import WideGraph.Proofs.RingDivision
import WideGraph.Proofs.Store.StableSort
import WideGraph.Proofs.Store.OrderedAnswer
import WideGraph.Proofs.EdgeIdentifier
import WideGraph.Proofs.GraphTable.OwnerGroups
import WideGraph.Proofs.GraphTable.DeclaredIndexes
import WideGraph.Proofs.Query.Sameness
import WideGraph.Proofs.GraphTable.RepeatedConditions
import WideGraph.Proofs.NamedColumns
