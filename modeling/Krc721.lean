import Krc721.Store.Bytes
import Krc721.Store.Fields
import Krc721.Store.Partition
import Krc721.Store.Threshold
import Krc721.Store.KeyList
import Krc721.Store.Encoding
import Krc721.Store.MixedRadix
import Krc721.Store.Sum
import Krc721.Store.Fill
import Krc721.Store.IntervalPool
import Krc721.Store.PoolDraws
import Krc721.Store.Numbered
import Krc721.Model.Operation
import Krc721.Model.NotificationCodec
import Krc721.Model.Script
import Krc721.Model.Keys
import Krc721.Model.Database
import Krc721.Model.KeyBytes
import Krc721.Model.StoredRows
import Krc721.Processor.TokenId
import Krc721.Processor.TokenIdProperties
import Krc721.Processor.TokenIdUndo
import Krc721.Processor.Operations
import Krc721.Processor.Removal
import Krc721.Processor.Chain
import Krc721.Processor.QueueFrame
import Krc721.Processor.OwnershipProperties
import Krc721.Processor.SupplyProperties
import Krc721.Processor.OperationProperties
import Krc721.Processor.LedgerProperties
import Krc721.Processor.ExtensionProperties
import Krc721.Processor.LogRemovalProperties
import Krc721.Processor.RemovalProperties
import Krc721.Processor.RunProperties
import Krc721.Processor.ChainProperties
import Krc721.Processor.MergesetProperties
import Krc721.Processor.Reorg
import Krc721.Processor.Reachability
import Krc721.Processor.GuardedRun
import Krc721.Processor.ReachableInvariants
import Krc721.Processor.ChainIndex
import Krc721.Processor.ScoreOrder
import Krc721.Processor.ChainFrame
import Krc721.Processor.Discounts
import Krc721.Processor.References
import Krc721.Processor.Processing
import Krc721.Processor.Authority
import Krc721.Processor.Rejection
import Krc721.Processor.Escrow
import Krc721.Processor.Counters
import Krc721.Processor.Delivery
import Krc721.Processor.CountedLog
import Krc721.Processor.StatsReorg
import Krc721.Processor.LedgerFrame
import Krc721.Processor.MergesetRuns
import Krc721.Processor.Convergence
import Krc721.Processor.Executed
import Krc721.Codec.Decimal
import Krc721.View.Listings
import Krc721.View.ListingProperties
import Krc721.View.AvailableRanges
import Krc721.View.NextMint
import Krc721.View.RangesText
import Krc721.View.Tokens
import Krc721.View.TokenProperties
import Krc721.View.Records
import Krc721.View.Lookups
import Krc721.Stream.Reader
import Krc721.Paging.Walk
import Krc721.Paging.Jumps
import Krc721.Codec.CaseMapping
import Krc721.Analyzer.TickText
import Krc721.Analyzer.Inscription
import Krc721.Analyzer.Envelope
import Krc721.Analyzer.ListingScript
import Krc721.Analyzer.Detect
import Krc721.Analyzer.DetectProperties
import Krc721.Analyzer.Ascii
import Krc721.Analyzer.Reveal
import Krc721.Analyzer.Inscribe
import Krc721.Analyzer.Sender
import Krc721.Analyzer.DeployBudget
import Krc721.Analyzer.Settlement
import Krc721.Analyzer.Addresses
import Krc721.Analyzer.TickCanonical
import Krc721.Market.ListingUtxo
import Krc721.Market.EffectiveRoyalty
import Krc721.Market.Owners
import Krc721.Accessor.Pages
import Krc721.Accessor.PageProperties
import Krc721.Accessor.Walks
import Krc721.Accessor.StoredRecords
import Krc721.Accessor.AddressViews
import Krc721.Accessor.TickMetadata
import Krc721.Accessor.ActiveListings
import Krc721.Accessor.Lookups
import Krc721.Transition.Reach
import Krc721.Transition.Program
import Krc721.Ingest.Threads
import Krc721.Ingest.Deadlock
import Krc721.Ingest.Failure
import Krc721.Ingest.SyncTask
import Krc721.Ingest.WakeUp
import Krc721.Ingest.SelectedChain
import Krc721.Ingest.ChainSync
import Krc721.Ingest.RejectionLog
import Krc721.Ingest.Reconstruction
import Krc721.Ingest.QueueReplay
import Krc721.Ingest.Handover
import Krc721.Ingest.ChainLedger
import Krc721.Storage.BytePartition
import Krc721.Storage.Keyspace
import Krc721.Storage.Scans
import Krc721.Codec.Borsh
import Krc721.Snapshot.Format
import Krc721.Snapshot.Archive
import Krc721.Snapshot.ArchiveProperties
import Krc721.Snapshot.RoundTrip
import Krc721.Snapshot.Integrity
import Krc721.Snapshot.RestoreFailure
import Krc721.Snapshot.Generator
import Krc721.Snapshot.ReadyArchives
import Krc721.Registry.Tokens
import Krc721.Registry.View
import Krc721.Registry.Simulation
import Krc721.Registry.Answers
import Krc721.Registry.Inscribed
import Krc721.Registry.Provenance
