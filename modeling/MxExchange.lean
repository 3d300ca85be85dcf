import MxExchange.AutoRouter.GraphInstance
import MxExchange.AutoRouter.EgldCoverage
import MxExchange.AutoRouter.HopCoverage
import MxExchange.Collections.Bridges
import MxExchange.Tokens.PriceOrder
import MxExchange.Cache.WriteThrough
import MxExchange.Governance.ProposalVotes
import MxExchange.Collections.EventFed
import MxExchange.RabbitMq.CounterHandlers
import MxExchange.Auth.Guards
import MxExchange.History.DeepHistory
import MxExchange.RabbitMq.Consumer
import MxExchange.Pair.PairCompute
import MxExchange.Tokens.PriceChains
import MxExchange.Collections.ClosedSearch
import MxExchange.Tokens.PriceCompleteness
import MxExchange.RabbitMq.PairHandlers
import MxExchange.RabbitMq.RouterHandler
import MxExchange.Analytics.LogsProcessor
import MxExchange.Collections.Pages
import MxExchange.User.MetaEsdt
import MxExchange.Analytics.FeeBurned
import MxExchange.Energy.EnergyCompute
import MxExchange.ElasticSearch.EsLogs
import MxExchange.Tokens.PriceExpansions
import MxExchange.Crons.TransactionProcessor
import MxExchange.WeeklyRewards.Payments
import MxExchange.FeesCollector.Compute
import MxExchange.FeesCollector.Service
import MxExchange.Farm.BoostedRewards
import MxExchange.Collections.Memo
import MxExchange.Farm.RewardsCache
import MxExchange.Pair.Quotes
import MxExchange.RabbitMq.IngestData
import MxExchange.Farm.FarmCompute
import MxExchange.User.EnergyOutdated
import MxExchange.Collections.GroupBest
import MxExchange.Farm.BatchRewards
import MxExchange.Staking.StakingCompute
import MxExchange.Energy.Penalty
import MxExchange.LockedAsset.LockedAssetService
import MxExchange.FeesCollector.ClaimableWeeks
import MxExchange.Num.Percentages
import MxExchange.WeeklyRewards.Valuation
import MxExchange.WeeklyRewards.WeekTimekeeping
import MxExchange.Pair.PairTransactions
import MxExchange.Proxy.MergeTransactions
import MxExchange.Escrow.EscrowAbi
import MxExchange.Farm.ExitFarm
import MxExchange.StakingProxy.Unstake
import MxExchange.Farm.FarmComputeV12
import MxExchange.Farm.OptimalEnergy
import MxExchange.Utils.PendingExecutor
import MxExchange.Utils.TokenConverters
import MxExchange.Governance.VotingPower
import MxExchange.Collections.ArraySort
import MxExchange.Router.Sorting
import MxExchange.Router.PairListings
import MxExchange.Router.SortedListings
import MxExchange.AutoRouter.SpreadCheck
import MxExchange.Num.RoundedSums
import MxExchange.Pair.LockedValue
import MxExchange.Pair.PairAbi
import MxExchange.Cache.KeyCollisions
import MxExchange.Context.BlockCounts
import MxExchange.SimpleLock.SimpleLockService
import MxExchange.Tokens.TokenListing
import MxExchange.Utils.GuestCaching
import MxExchange.WeeklyRewards.EnergyReads
import MxExchange.Collections.HashTree
import MxExchange.Text.Sha256
import MxExchange.Num.Valleys
import MxExchange.Num.Compounding
import MxExchange.Collections.HillClimb
import MxExchange.Staking.CompoundFrequency
import MxExchange.Utils.MerkleTree
import MxExchange.Cache.Invalidation
import MxExchange.Common.ConnectionArgs
import MxExchange.Common.PageResponse
import MxExchange.Governance.UserVotes
import MxExchange.Analytics.PriceCandles
import MxExchange.Collections.Wallets
import MxExchange.Pair.PairBatches
import MxExchange.Analytics.HistoricValues
import MxExchange.Tokens.TokenHistory
import MxExchange.Collections.Kinds
import MxExchange.User.NftTokens
