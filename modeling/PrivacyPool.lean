import PrivacyPool.Base.AddressMap
import PrivacyPool.Base.Budget
import PrivacyPool.Base.Bytes
import PrivacyPool.Base.Codec
import PrivacyPool.Base.Eip712
import PrivacyPool.Base.Erc20
import PrivacyPool.Base.Fallible
import PrivacyPool.Base.FixedWindow
import PrivacyPool.Base.HashMap
import PrivacyPool.Base.Hex
import PrivacyPool.Base.History
import PrivacyPool.Base.Json
import PrivacyPool.Base.Loop
import PrivacyPool.Base.Lru
import PrivacyPool.Base.Metered
import PrivacyPool.Base.Promise
import PrivacyPool.Base.Spelling
import PrivacyPool.Base.Streams
import PrivacyPool.Base.Task
import PrivacyPool.Base.Trace
import PrivacyPool.Base.Tracker
import PrivacyPool.Base.WriteOnce
import PrivacyPool.Cairo.Serde
import PrivacyPool.Cairo.Types
import PrivacyPool.Client.ViewingKey
import PrivacyPool.Contract.Actions
import PrivacyPool.Contract.Admin
import PrivacyPool.Contract.Client
import PrivacyPool.Contract.ClientSerde
import PrivacyPool.Contract.Errors
import PrivacyPool.Contract.Hashes
import PrivacyPool.Contract.Message
import PrivacyPool.Contract.Objects
import PrivacyPool.Contract.Panic
import PrivacyPool.Contract.Platform
import PrivacyPool.Contract.Server
import PrivacyPool.Contract.Snip12
import PrivacyPool.Contract.Storage
import PrivacyPool.Contract.Utils
import PrivacyPool.Discovery.Account
import PrivacyPool.Discovery.Accounting
import PrivacyPool.Discovery.Boundary
import PrivacyPool.Discovery.Capacity
import PrivacyPool.Discovery.Channels
import PrivacyPool.Discovery.Cursor
import PrivacyPool.Discovery.CursorGrowth
import PrivacyPool.Discovery.Decryption
import PrivacyPool.Discovery.Growth
import PrivacyPool.Discovery.Incoming
import PrivacyPool.Discovery.Lagging
import PrivacyPool.Discovery.Notes
import PrivacyPool.Discovery.Outgoing
import PrivacyPool.Discovery.PageCapacity
import PrivacyPool.Discovery.PageProgress
import PrivacyPool.Discovery.Progress
import PrivacyPool.Discovery.Resume
import PrivacyPool.Discovery.Scans
import PrivacyPool.Discovery.Service
import PrivacyPool.Discovery.Settled
import PrivacyPool.Discovery.Sync
import PrivacyPool.EllipticProxy.Handler
import PrivacyPool.EllipticProxy.RateLimit
import PrivacyPool.EllipticProxy.Run
import PrivacyPool.EllipticProxy.Scoring
import PrivacyPool.History.BlockMerge
import PrivacyPool.History.Collected
import PrivacyPool.History.Grouping
import PrivacyPool.History.Iteration
import PrivacyPool.History.Notes
import PrivacyPool.History.Pages
import PrivacyPool.History.ReadCosts
import PrivacyPool.History.Runs
import PrivacyPool.History.Transactions
import PrivacyPool.Interceptor.Live
import PrivacyPool.Interceptor.Order
import PrivacyPool.Interceptor.PoolTransaction
import PrivacyPool.Interceptor.RunInterceptors
import PrivacyPool.Interceptor.ScreenedAddress
import PrivacyPool.Interceptor.Screening
import PrivacyPool.Interceptor.ScreeningPolicy
import PrivacyPool.Interceptor.Typed
import PrivacyPool.Ledger.Block
import PrivacyPool.Ledger.Book
import PrivacyPool.Ledger.OpenNotes
import PrivacyPool.Ledger.Preservation
import PrivacyPool.Ledger.Solvency
import PrivacyPool.Ledger.Structure
import PrivacyPool.Properties.Agreement
import PrivacyPool.Properties.AnonymizerCollection
import PrivacyPool.Properties.BoundarySearch
import PrivacyPool.Properties.CallSetHash
import PrivacyPool.Properties.ChannelRefresh
import PrivacyPool.Properties.Codecs
import PrivacyPool.Properties.CompileSoundness
import PrivacyPool.Properties.CompiledBalance
import PrivacyPool.Properties.CompiledIndices
import PrivacyPool.Properties.ConcurrencyLimit
import PrivacyPool.Properties.ContractDiscovery
import PrivacyPool.Properties.ContractViews
import PrivacyPool.Properties.CursorClosure
import PrivacyPool.Properties.Governance
import PrivacyPool.Properties.HistoryMerge
import PrivacyPool.Properties.HistoryPages
import PrivacyPool.Properties.HistoryWithdrawals
import PrivacyPool.Properties.IncomingSync
import PrivacyPool.Properties.IncrementalSync
import PrivacyPool.Properties.InterceptorRace
import PrivacyPool.Properties.KnownChannels
import PrivacyPool.Properties.Message
import PrivacyPool.Properties.NoteReuse
import PrivacyPool.Properties.NotesCalls
import PrivacyPool.Properties.OpenNotes
import PrivacyPool.Properties.OutgoingSync
import PrivacyPool.Properties.PanicChannel
import PrivacyPool.Properties.PolicyFreshness
import PrivacyPool.Properties.ReadBudget
import PrivacyPool.Properties.Records
import PrivacyPool.Properties.RegistryNotes
import PrivacyPool.Properties.RequestLimits
import PrivacyPool.Properties.ResumedCalls
import PrivacyPool.Properties.ResumedLoops
import PrivacyPool.Properties.ScanVisits
import PrivacyPool.Properties.ScreenedSubjects
import PrivacyPool.Properties.Screening
import PrivacyPool.Properties.ScreeningPipeline
import PrivacyPool.Properties.ShadowAccounts
import PrivacyPool.Properties.Solvency
import PrivacyPool.Properties.Spending
import PrivacyPool.Properties.StoredValues
import PrivacyPool.Properties.SyncLoops
import PrivacyPool.Properties.TokenFilter
import PrivacyPool.Properties.TypedDataDigest
import PrivacyPool.Properties.ViewingKeys
import PrivacyPool.Properties.Withdrawal
import PrivacyPool.Refinement.Apply
import PrivacyPool.Refinement.Compile
import PrivacyPool.Refinement.Invariant
import PrivacyPool.Refinement.Simulation
import PrivacyPool.Refinement.View
import PrivacyPool.Sdk.ChannelMap
import PrivacyPool.Sdk.ChannelSerde
import PrivacyPool.Sdk.Compiler
import PrivacyPool.Sdk.CompilerOutput
import PrivacyPool.Sdk.ContractAnswers
import PrivacyPool.Sdk.ContractCalls
import PrivacyPool.Sdk.ContractNotes
import PrivacyPool.Sdk.ContractTotals
import PrivacyPool.Sdk.Encryptions
import PrivacyPool.Sdk.IndexTracking
import PrivacyPool.Sdk.IndexerDiscovery
import PrivacyPool.Sdk.Json
import PrivacyPool.Sdk.NoteId
import PrivacyPool.Sdk.NoteSelection
import PrivacyPool.Sdk.NotesCursor
import PrivacyPool.Sdk.NotesPage
import PrivacyPool.Sdk.PoolSimulator
import PrivacyPool.Sdk.Pruning
import PrivacyPool.Sdk.RateLimiter
import PrivacyPool.Sdk.Scan
import PrivacyPool.Sdk.Selections
import PrivacyPool.ShadowAccount.Accounts
import PrivacyPool.ShadowAccount.Anonymizer
import PrivacyPool.ShadowAccount.SharedRun
import PrivacyPool.Signers.Eip712CallSetSigner
import PrivacyPool.Signers.Numbers
import PrivacyPool.Signers.Snip12CallSetSigner
import PrivacyPool.System.Assumptions
import PrivacyPool.System.Domain
import PrivacyPool.System.Run
