import Aevia.Auth.Did
import Aevia.Auth.PlaceholderCid
import Aevia.Auth.RegisterContent
import Aevia.Auth.Sessions
import Aevia.Contracts.BoostRouter
import Aevia.Contracts.BoostSplit
import Aevia.Contracts.ContentRegistry
import Aevia.Contracts.ContestLock
import Aevia.Contracts.Evm
import Aevia.Contracts.OracleSteps
import Aevia.Contracts.PersistencePool
import Aevia.Contracts.PoolAccounting
import Aevia.Contracts.PoolSolvency
import Aevia.Contracts.PoolSteps
import Aevia.Contracts.ProportionalShares
import Aevia.Contracts.RegistryForest
import Aevia.Contracts.RegistryReplay
import Aevia.Contracts.RiskGate
import Aevia.Contracts.RiskOracle
import Aevia.Contracts.ScoreFreshness
import Aevia.Coordinator.Chain
import Aevia.Coordinator.Driver
import Aevia.Coordinator.EndToEnd
import Aevia.Coordinator.ExactTotals
import Aevia.Coordinator.ExactlyOnce
import Aevia.Coordinator.PayoutArrays
import Aevia.Coordinator.ReceiptCoverage
import Aevia.Coordinator.Rotation
import Aevia.Coordinator.Settler
import Aevia.Coordinator.WindowTiling
import Aevia.Foundation.Abi
import Aevia.Foundation.Apportion
import Aevia.Foundation.BaseEncoding
import Aevia.Foundation.ByteReader
import Aevia.Foundation.Bytes
import Aevia.Foundation.Chunking
import Aevia.Foundation.Delimiter
import Aevia.Foundation.Fallible
import Aevia.Foundation.Forest
import Aevia.Foundation.Framing
import Aevia.Foundation.GoError
import Aevia.Foundation.HashPath
import Aevia.Foundation.HashTree
import Aevia.Foundation.JsJson
import Aevia.Foundation.JsNumber
import Aevia.Foundation.JsText
import Aevia.Foundation.Json
import Aevia.Foundation.JsonText
import Aevia.Foundation.Keccak
import Aevia.Foundation.KeyValue
import Aevia.Foundation.Landings
import Aevia.Foundation.LazyExpiry
import Aevia.Foundation.MergeWrite
import Aevia.Foundation.Paired
import Aevia.Foundation.Quantiles
import Aevia.Foundation.Ranking
import Aevia.Foundation.RingBuffer
import Aevia.Foundation.Run
import Aevia.Foundation.Runs
import Aevia.Foundation.Sha256
import Aevia.Foundation.StoreProgram
import Aevia.Foundation.StructCodec
import Aevia.Foundation.TextFields
import Aevia.Foundation.Totals
import Aevia.Foundation.Tracking
import Aevia.Foundation.TypedData
import Aevia.Foundation.Utf8
import Aevia.Foundation.WebUrl
import Aevia.Provider.AccessUnits
import Aevia.Provider.AckServer
import Aevia.Provider.ActiveSessions
import Aevia.Provider.CidText
import Aevia.Provider.ContentClient
import Aevia.Provider.ContentRoutes
import Aevia.Provider.Cooldowns
import Aevia.Provider.Depacketizer
import Aevia.Provider.DhtProxy
import Aevia.Provider.DriftWatch
import Aevia.Provider.EchoPercentiles
import Aevia.Provider.FragmentLoss
import Aevia.Provider.Frames
import Aevia.Provider.HlsMuxer
import Aevia.Provider.HonestContent
import Aevia.Provider.ImmutableRoutes
import Aevia.Provider.IngestAuth
import Aevia.Provider.IngestSignature
import Aevia.Provider.LiveFinality
import Aevia.Provider.LivePin
import Aevia.Provider.LiveRoutes
import Aevia.Provider.LossDrop
import Aevia.Provider.Manifest
import Aevia.Provider.ManifestBinding
import Aevia.Provider.ManifestCodec
import Aevia.Provider.MerkleProof
import Aevia.Provider.MirrorCandidates
import Aevia.Provider.MirrorFanout
import Aevia.Provider.MirrorFeed
import Aevia.Provider.MirrorFrames
import Aevia.Provider.MirrorHeader
import Aevia.Provider.MirrorRouting
import Aevia.Provider.MirrorSelection
import Aevia.Provider.MirrorSink
import Aevia.Provider.MirrorStream
import Aevia.Provider.MirrorTruncation
import Aevia.Provider.NalUnits
import Aevia.Provider.NodeFetch
import Aevia.Provider.ParameterSets
import Aevia.Provider.PartTiling
import Aevia.Provider.PinCalls
import Aevia.Provider.PinConcurrency
import Aevia.Provider.PinConsistency
import Aevia.Provider.PinInvariant
import Aevia.Provider.PinStore
import Aevia.Provider.PlaylistReads
import Aevia.Provider.PoolFetcher
import Aevia.Provider.PresentationTimes
import Aevia.Provider.ProbeAccounting
import Aevia.Provider.Probes
import Aevia.Provider.QuotaDecision
import Aevia.Provider.RankOrder
import Aevia.Provider.Ranker
import Aevia.Provider.Receipt
import Aevia.Provider.ReceiptIssuer
import Aevia.Provider.ReceiptOrder
import Aevia.Provider.ReceiptStore
import Aevia.Provider.RegistryIsolation
import Aevia.Provider.SegmentDurations
import Aevia.Provider.SegmentRoots
import Aevia.Provider.SegmentTiling
import Aevia.Provider.Segmenter
import Aevia.Provider.ServedContent
import Aevia.Provider.SessionAnnounce
import Aevia.Provider.SessionRegistry
import Aevia.Provider.SettleableReceipts
import Aevia.Provider.Settlement
import Aevia.Provider.SettlementCalldata
import Aevia.Provider.SettlementOrder
import Aevia.Provider.SpropParameterSets
import Aevia.Provider.Storage
import Aevia.Provider.ViewerIsolation
import Aevia.Provider.Viewers
import Aevia.Provider.VodManifest
import Aevia.Video.FailoverDials
import Aevia.Video.FailoverSessions
import Aevia.Video.FailoverStop
import Aevia.Video.LiveInputs
import Aevia.Video.LiveOwnership
import Aevia.Video.MetaUpdates
import Aevia.Video.OneManifest
import Aevia.Video.ProviderRanking
import Aevia.Video.PublisherTokens
import Aevia.Video.Registration
import Aevia.Video.RegistrationInvariant
import Aevia.Video.RegistrationRequests
import Aevia.Video.SafeNext
import Aevia.Video.SessionDiscovery
import Aevia.Video.SessionResolution
import Aevia.Video.SignInGate
import Aevia.Video.SponsorshipCap
import Aevia.Video.VodShape
import Aevia.Video.WhepFailover
