import RelQuery.Text.Identifier
import RelQuery.Text.Lowercase
import RelQuery.Value.Tagged
import RelQuery.Hook
import RelQuery.Fragment
import RelQuery.Aliases
import RelQuery.JoinTree
import RelQuery.OrderTerm
import RelQuery.Relationship.Template
import RelQuery.Relationship.Declaration
import RelQuery.Storage.Script
import RelQuery.ResultSet.Column
import RelQuery.Proofs.ExprValues
import RelQuery.Proofs.Chains
import RelQuery.Proofs.AliasRuns
import RelQuery.Proofs.AliasCalls
import RelQuery.Proofs.SubSelects
import RelQuery.Proofs.BindOrder
import RelQuery.Proofs.JoinPlans
import RelQuery.Proofs.JoinSites
import RelQuery.Proofs.DerivedTables
import RelQuery.Proofs.Restrictions
import RelQuery.Proofs.SearchRuns
import RelQuery.Proofs.Selections
import RelQuery.Proofs.Compiling
import RelQuery.Proofs.Aggregates
import RelQuery.Proofs.SearchedConditions
import RelQuery.Proofs.DeletePlans
import RelQuery.Proofs.CascadePlans
import RelQuery.Proofs.Merging
import RelQuery.Proofs.JoinPaths
import RelQuery.Proofs.Restyling
import RelQuery.Proofs.Spelling
import RelQuery.Proofs.SpelledStatements
import RelQuery.Proofs.Tokens
import RelQuery.Proofs.ReadBack
import RelQuery.Proofs.OwnDeletes
import RelQuery.Proofs.KeyConditions
import RelQuery.Proofs.ColumnMaps
import RelQuery.Proofs.SchemaConsistency
import RelQuery.Proofs.KnownSources
import RelQuery.Proofs.SuppressedSteps
import RelQuery.Proofs.ExposedColumns
import RelQuery.Proofs.SentStatements
import RelQuery.Proofs.HookedOperations
import RelQuery.Proofs.TextReader
import RelQuery.Proofs.Rooting
import RelQuery.Proofs.Grouping
import RelQuery.Proofs.Comments
import RelQuery.Proofs.OuterJoins
import RelQuery.Proofs.LevelScopes
import RelQuery.Proofs.Counting
import RelQuery.Proofs.Renumbering
import RelQuery.Proofs.ColumnNames
import RelQuery.Proofs.RecordSets
import RelQuery.Proofs.GuardedCalls
import RelQuery.Proofs.Paging
import RelQuery.Proofs.DeclarationOrder
import RelQuery.Proofs.RowReading
import RelQuery.Proofs.QuotedNames
