import Curation.Failure.Message
import Curation.Settings.File
import Curation.Staleness.Cache
import Curation.Store.Files
import Curation.Store.Memory
import Curation.Store.Repository
import Curation.Proofs.Query.RoundTrip
import Curation.Proofs.Query.Meaning
import Curation.Proofs.Staleness.Invalidation
import Curation.Proofs.Rule.Filters
import Curation.Proofs.Store.FileName
import Curation.Proofs.Store.FileTree
import Curation.Proofs.Store.Memory
import Curation.Proofs.Store.Refinement
import Curation.Proofs.Json.RoundTrip
import Curation.Proofs.Record.Reading
import Curation.Proofs.Settings.RoundTrip
import Curation.Proofs.Settings.Files
import Curation.Proofs.Record.Staleness
import Curation.Proofs.Store.Repository
import Curation.Proofs.Staleness.Persistence
import Curation.Proofs.Record.Rules
import Curation.Proofs.Store.Records
import Curation.Proofs.Staleness.History
import Curation.Proofs.Search.Ranking
import Curation.Proofs.Text.Phrase
import Curation.Proofs.Sort.Batches
import Curation.Proofs.Catalog.Candidates
import Curation.Proofs.Time.LocalDay
import Curation.Proofs.Time.Period
import Curation.Proofs.Rule.Table
import Curation.Proofs.Rule.Dates
import Curation.Proofs.Rule.Opposite
import Curation.Proofs.Query.Grouping
import Curation.Proofs.Time.Trailing
import Curation.Proofs.Store.Logic
import Curation.Proofs.Sort.Arrangement
import Curation.Proofs.Query.Highlights
import Curation.Proofs.Query.HighlightTerms
import Curation.Proofs.Store.FailedPut
import Curation.Proofs.Store.Restoring
import Curation.Proofs.Staleness.Expiry
import Curation.Proofs.Time.Token
import Curation.Proofs.Time.Layouts
import Curation.Proofs.Query.Spans
