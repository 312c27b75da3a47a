import WriteLatch.Main
import WriteLatch.Context.Timeline
import WriteLatch.Key.Json
import WriteLatch.Key.Order
import WriteLatch.Value.Document
import WriteLatch.Value.Json
import WriteLatch.Proofs.Encoding.Paths
import WriteLatch.Proofs.Interleaving.Sessions
import WriteLatch.Proofs.Locks.Coverage
import WriteLatch.Proofs.Locks.Leaks
import WriteLatch.Proofs.Locks.Quiescence
import WriteLatch.Proofs.Locks.Release
import WriteLatch.Proofs.Locks.Stale
import WriteLatch.Proofs.Protocol.Followed
import WriteLatch.Proofs.Store.Numbers
import WriteLatch.Proofs.Batch.Cover
import WriteLatch.Proofs.Batch.Outcome
import WriteLatch.Proofs.Interleaving.Answers
import WriteLatch.Proofs.Interleaving.Journal
import WriteLatch.Proofs.Interleaving.Progress
import WriteLatch.Proofs.Interleaving.Ledger
import WriteLatch.Proofs.Batch.LastWrite
import WriteLatch.Proofs.Interleaving.Sharing
import WriteLatch.Proofs.Batch.Transparency
import WriteLatch.Proofs.Batch.Single
import WriteLatch.Proofs.Batch.Faultless
import WriteLatch.Proofs.Batch.Partition
import WriteLatch.Proofs.Interleaving.Books
import WriteLatch.Proofs.Protocol.Reports
import WriteLatch.Proofs.Protocol.Promptness
import WriteLatch.Proofs.Batch.Refusals
import WriteLatch.Proofs.Batch.Lateness
import WriteLatch.Proofs.Locks.Expiry
import WriteLatch.Proofs.Locks.Overflow
import WriteLatch.Proofs.Batch.Crashes
import WriteLatch.Proofs.Batch.Tiling
import WriteLatch.Proofs.Batch.Merging
import WriteLatch.Proofs.Store.Overlay
import WriteLatch.Proofs.Batch.Counts
import WriteLatch.Proofs.Requests.Defects
import WriteLatch.Proofs.Cache.Lookups
import WriteLatch.Proofs.Context.Descent
import WriteLatch.Proofs.Context.Race
import WriteLatch.Proofs.Keys.Validity
import WriteLatch.Proofs.Documents.Keys
import WriteLatch.Proofs.Documents.Values
