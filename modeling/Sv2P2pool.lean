import Sv2P2pool.Framework.Codec
import Sv2P2pool.Framework.DashMap
import Sv2P2pool.Framework.Channel
import Sv2P2pool.Framework.Merkle
import Sv2P2pool.Framework.Trace
import Sv2P2pool.Framework.Prog
import Sv2P2pool.Framework.Sha256
import Sv2P2pool.Framework.Tasks
import Sv2P2pool.Framework.Tickets
import Sv2P2pool.Framework.Normalization
import Sv2P2pool.Framework.Machine
import Sv2P2pool.Framework.Linearizable
import Sv2P2pool.Framework.Clients
import Sv2P2pool.Bitcoin.CompactSize
import Sv2P2pool.Bitcoin.Transaction
import Sv2P2pool.Crates
import Sv2P2pool.Messages
import Sv2P2pool.Coinbase
import Sv2P2pool.Block
import Sv2P2pool.Engine
import Sv2P2pool.Handlers
import Sv2P2pool.Frames
import Sv2P2pool.Calls
import Sv2P2pool.Solutions
import Sv2P2pool.Reorg
import Sv2P2pool.Runs
import Sv2P2pool.MerklePath
import Sv2P2pool.BuiltBlock
import Sv2P2pool.StaleTip
import Sv2P2pool.DeclaredTxs
import Sv2P2pool.Ambiguity
import Sv2P2pool.Delivery
import Sv2P2pool.TokenIsolation
import Sv2P2pool.Payout
import Sv2P2pool.PayoutMaps
import Sv2P2pool.CoinbaseLayout
import Sv2P2pool.Preflight
import Sv2P2pool.Waiters
import Sv2P2pool.Fetch
import Sv2P2pool.ReorgRace
import Sv2P2pool.RecentSolutions
import Sv2P2pool.Templates
import Sv2P2pool.Merge
import Sv2P2pool.Watcher
import Sv2P2pool.CachedJobs
import Sv2P2pool.CreditKeys
import Sv2P2pool.CustomCoinbase
import Sv2P2pool.Overlap
import Sv2P2pool.SingleUse
import Sv2P2pool.CacheRaces
import Sv2P2pool.TokenRaces
import Sv2P2pool.PayoutRaces
import Sv2P2pool.Invalidation
import Sv2P2pool.BufferGrowth
import Sv2P2pool.TokenBooks
import Sv2P2pool.Accounting
import Sv2P2pool.Backends
import Sv2P2pool.ReorgPaths
import Sv2P2pool.Tee
import Sv2P2pool.TipActor
import Sv2P2pool.Hangup
import Sv2P2pool.Shutdown
import Sv2P2pool.CoinbaseBytes
import Sv2P2pool.Detector
import Sv2P2pool.CustomAccounting
import Sv2P2pool.MerkleBinding
import Sv2P2pool.Sweeper
import Sv2P2pool.Identifiers
import Sv2P2pool.Desk
import Sv2P2pool.Session
import Sv2P2pool.Provenance
import Sv2P2pool.TipSnapshot
import Sv2P2pool.RequestLoop
import Sv2P2pool.JobLedger
import Sv2P2pool.Teardown
import Sv2P2pool.Submissions
import Sv2P2pool.ChainClients
import Sv2P2pool.TipPipeline
