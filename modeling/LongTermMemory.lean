import LongTermMemory.Ascending
import LongTermMemory.Binary
import LongTermMemory.Classification
import LongTermMemory.CommandLine.Argument
import LongTermMemory.CommandLine.Command
import LongTermMemory.CommandLine.Run
import LongTermMemory.CommandLine.Use
import LongTermMemory.Config
import LongTermMemory.ContextBlock
import LongTermMemory.Decimal
import LongTermMemory.Digest
import LongTermMemory.Document
import LongTermMemory.Document.Json
import LongTermMemory.Document.Toml
import LongTermMemory.Engine
import LongTermMemory.Engine.Consolidate
import LongTermMemory.Engine.Guarded
import LongTermMemory.Engine.Learn
import LongTermMemory.Engine.Lifecycle
import LongTermMemory.Engine.Maintain
import LongTermMemory.Engine.Page
import LongTermMemory.Engine.Retrieve
import LongTermMemory.Error
import LongTermMemory.Instant
import LongTermMemory.Learning
import LongTermMemory.Main
import LongTermMemory.Memory
import LongTermMemory.Memory.Group
import LongTermMemory.Memory.Type
import LongTermMemory.Merging
import LongTermMemory.Partition
import LongTermMemory.Printed
import LongTermMemory.Relevance
import LongTermMemory.Request
import LongTermMemory.Similarity
import LongTermMemory.Single
import LongTermMemory.Storage.Address
import LongTermMemory.Storage.Database
import LongTermMemory.Storage.Opening
import LongTermMemory.Storage.Saved
import LongTermMemory.Storage.Unusable
import LongTermMemory.Store
import LongTermMemory.Store.Query
import LongTermMemory.Store.Saved
import LongTermMemory.Text.Case
import LongTermMemory.Text.Index
import LongTermMemory.Text.NoCase
import LongTermMemory.Text.Phrase
import LongTermMemory.Text.Property
import LongTermMemory.Text.Stem
import LongTermMemory.Text.Words
import LongTermMemory.Validation
import LongTermMemory.Version
import LongTermMemory.Vocabulary
import LongTermMemory.Proofs.Ascending
import LongTermMemory.Proofs.Text.NameOrder
import LongTermMemory.Proofs.Text.Trim
import LongTermMemory.Proofs.Text.Lower
import LongTermMemory.Proofs.Vocabulary
import LongTermMemory.Integer
import LongTermMemory.Proofs.Outcome
import LongTermMemory.Proofs.Configuration
import LongTermMemory.Proofs.Run
import LongTermMemory.Proofs.Store.Writing
import LongTermMemory.Proofs.Preparation
import LongTermMemory.Proofs.Write
import LongTermMemory.Proofs.Binary
import LongTermMemory.Proofs.Single
import LongTermMemory.Proofs.Store.Sound
import LongTermMemory.Proofs.Operations
import LongTermMemory.Proofs.Store.Tags
import LongTermMemory.Proofs.Validity
import LongTermMemory.Proofs.OptimisticLock
import LongTermMemory.Proofs.Page
import LongTermMemory.Proofs.Store.Altering
import LongTermMemory.Proofs.Survivor
import LongTermMemory.Proofs.Distinct
import LongTermMemory.Proofs.Lifecycle
import LongTermMemory.Proofs.Calendar
import LongTermMemory.Proofs.Stamp
import LongTermMemory.Proofs.Stamped
import LongTermMemory.Proofs.Partition
import LongTermMemory.Proofs.DisjointSets
import LongTermMemory.Proofs.Components
import LongTermMemory.Proofs.Consolidation
import LongTermMemory.Proofs.Supersession
import LongTermMemory.Proofs.Store.Referential
import LongTermMemory.Proofs.Store.AccessLog
import LongTermMemory.Proofs.Integrity
import LongTermMemory.Proofs.Groups
import LongTermMemory.Proofs.Store.Holdings
import LongTermMemory.Proofs.Store.Indexed
import LongTermMemory.Proofs.Learning
import LongTermMemory.Proofs.Drafts
import LongTermMemory.Proofs.Workable
import LongTermMemory.Proofs.ContextBlock.Gathering
import LongTermMemory.Proofs.ContextBlock.Ends
import LongTermMemory.Proofs.ContextBlock.Layout
import LongTermMemory.Proofs.ContextBlock.Truncation
import LongTermMemory.Proofs.Found
import LongTermMemory.Proofs.Isolation
import LongTermMemory.Proofs.Idempotence
import LongTermMemory.Proofs.Aging
import LongTermMemory.Proofs.Sorting
import LongTermMemory.Proofs.Ranking
import LongTermMemory.Proofs.Retrieval
import LongTermMemory.Proofs.Precedence
import LongTermMemory.Engine.Serve
import LongTermMemory.Proofs.Store.Statement
import LongTermMemory.Proofs.Store.Prepared
import LongTermMemory.Proofs.Transaction
import LongTermMemory.Proofs.Merging
import LongTermMemory.Proofs.Passes
import LongTermMemory.Proofs.Convergence
import LongTermMemory.Proofs.Text.Runs
import LongTermMemory.Proofs.Store.Spelling
import LongTermMemory.Proofs.Search
import LongTermMemory.Proofs.Gist
import LongTermMemory.Proofs.StaleGroup
import LongTermMemory.Proofs.Store.Commuting
import LongTermMemory.Proofs.Independence
import LongTermMemory.Proofs.View
import LongTermMemory.Proofs.Commutation
import LongTermMemory.Proofs.Maintenance
import LongTermMemory.Proofs.ContextBlock.Growth
import LongTermMemory.Proofs.ContextBlock.Sections
import LongTermMemory.Proofs.Creation
import LongTermMemory.Proofs.Listing
import LongTermMemory.Proofs.Updating
import LongTermMemory.Proofs.Reading
import LongTermMemory.Store.Prepared
import LongTermMemory.Proofs.Figures
import LongTermMemory.Proofs.Text.Shortening
import LongTermMemory.Proofs.Regrouping
import LongTermMemory.Proofs.Teaching
import LongTermMemory.Proofs.Text.ShortForm
import LongTermMemory.Proofs.Retention
import LongTermMemory.Proofs.Text.Property
import LongTermMemory.Proofs.Text.ByteOrder
import LongTermMemory.Proofs.Text.Folding
import LongTermMemory.Proofs.Text.Phrase
import LongTermMemory.Proofs.Text.Recasing
import LongTermMemory.Proofs.Tagging
import LongTermMemory.Proofs.Summary
import LongTermMemory.Proofs.Ranks
import LongTermMemory.Proofs.Duplicates
import LongTermMemory.Proofs.Classification
import LongTermMemory.Proofs.Exactness
import LongTermMemory.Proofs.Documents
import LongTermMemory.Proofs.Reasons
