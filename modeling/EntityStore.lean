import EntityStore.Entity.Allocator
import EntityStore.ChangeFlags
import EntityStore.Component.Record
import EntityStore.Component.Catalogue
import EntityStore.Schema
import EntityStore.SparseSet
import EntityStore.Storage
import EntityStore.Registry
import EntityStore.Store
import EntityStore.Access
import EntityStore.Pattern
import EntityStore.Pattern.Aliasing
import EntityStore.Pattern.Layout
import EntityStore.Payload
import EntityStore.Query.Match
import EntityStore.Query
import EntityStore.Query.Traversal
import EntityStore.BatchView
import EntityStore.Query.Untyped
import EntityStore.Query.Untyped.Cursor
import EntityStore.SlotTuple
import EntityStore.Decimal.Numeral
import EntityStore.Decimal.Shortest
import EntityStore.Schema.Text
import EntityStore.Value.Bits
import EntityStore.Proofs.SparseSet
import EntityStore.Proofs.Storage
import EntityStore.Proofs.Agreement
import EntityStore.Proofs.Exclusive
import EntityStore.Proofs.FixedMatches
import EntityStore.Proofs.ChangeFlags
import EntityStore.Proofs.DenseStorage
import EntityStore.Proofs.CleanSlots
import EntityStore.Proofs.Rollback
import EntityStore.Proofs.Reporting
import EntityStore.Proofs.Commutation
import EntityStore.Proofs.BatchStorage
import EntityStore.Proofs.RowLayout
import EntityStore.Proofs.Registration
import EntityStore.Proofs.SlotTable
import EntityStore.Proofs.FailedRemoval
import EntityStore.Proofs.Schemas
import EntityStore.Proofs.SideEffects
import EntityStore.Proofs.TracingSwitches
import EntityStore.Proofs.Winners
import EntityStore.Proofs.Accessors
import EntityStore.Proofs.Fields
import EntityStore.Proofs.FieldWrites
import EntityStore.Proofs.NamedValues
import EntityStore.Proofs.Conflicts
import EntityStore.Proofs.Shortcuts
import EntityStore.Proofs.Counting
import EntityStore.Proofs.FewestCandidates
