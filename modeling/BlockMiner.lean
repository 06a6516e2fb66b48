import BlockMiner.Run
import BlockMiner.Table
import BlockMiner.OrdMap
import BlockMiner.Units
import BlockMiner.Engine
import BlockMiner.EngineFacts
import BlockMiner.EngineBlock
import BlockMiner.EngineDistribute
import BlockMiner.EngineLedger
import BlockMiner.EnginePersist
import BlockMiner.EngineRollback
import BlockMiner.Service
import BlockMiner.Transactions
import BlockMiner.Deposit
import BlockMiner.DepositOnce
import BlockMiner.Withdrawal
import BlockMiner.WithdrawalSettled
import BlockMiner.WithdrawalSent
import BlockMiner.Spending
import BlockMiner.SpendingCovered
import BlockMiner.Conversion
import BlockMiner.ConversionLimits
import BlockMiner.Machines
import BlockMiner.MachineFloor
import BlockMiner.MachineSteps
import BlockMiner.MachineEffect
import BlockMiner.MachineSlots
import BlockMiner.MachineRacks
import BlockMiner.Registry
import BlockMiner.MachineRegistry
import BlockMiner.MachineOwned
import BlockMiner.MachineAttributes
import BlockMiner.RoomInstalls
import BlockMiner.RoomInstallsKept
import BlockMiner.Minigame
import BlockMiner.MinigameOnce
import BlockMiner.BlkCycle
import BlockMiner.BlkCyclePaid
import BlockMiner.PayoutPools
import BlockMiner.AutoMining
import BlockMiner.AutoMiningLimits
import BlockMiner.Missions
import BlockMiner.MissionsIndependent
import BlockMiner.Offerwall
import BlockMiner.OfferwallPaidOnce
import BlockMiner.Json
import BlockMiner.StableStringify
import BlockMiner.Swap
import BlockMiner.SwapValue
import BlockMiner.WithdrawalRequests
import BlockMiner.WithdrawalReserved
import BlockMiner.Audit
import BlockMiner.AuditDelivery
import BlockMiner.AuditMasking
import BlockMiner.HashChain
import BlockMiner.AuditChain
import BlockMiner.TransactionRules
import BlockMiner.LevelRewards
import BlockMiner.MiniPass
import BlockMiner.MiniPassLedger
import BlockMiner.MiniPassPurchases
import BlockMiner.MiniPassClaims
import BlockMiner.DailyTasks
import BlockMiner.DailyTasksExact
import BlockMiner.EventStock
import BlockMiner.EventStockSold
import BlockMiner.Checkin
import BlockMiner.CheckinPayments
import BlockMiner.WatchTime
import BlockMiner.WatchTimeBacked
import BlockMiner.Faucet
import BlockMiner.FaucetSpaced
import BlockMiner.Shortlink
import BlockMiner.ShortlinkRuns
import BlockMiner.ReadEarn
import BlockMiner.ReadEarnLimits
import BlockMiner.SocketGames
import BlockMiner.SocketGamesCooldown
import BlockMiner.StreamRunner
import BlockMiner.StreamRunnerSteps
import BlockMiner.StreamRunnerSingle
import BlockMiner.StreamRestarts
import BlockMiner.Calculator
import BlockMiner.EngineSpending
import BlockMiner.HashRate
import BlockMiner.HashRateFollowed
import BlockMiner.DepositBacked
import BlockMiner.OnePayment
import BlockMiner.ContractSync
import BlockMiner.ContractSyncComplete
import BlockMiner.Referrals
import BlockMiner.BlockRewards
import BlockMiner.Script
import BlockMiner.SpendingScripts
import BlockMiner.MachineTrail
import BlockMiner.AutoMiningGpus
import BlockMiner.AutoMiningGpusOnce
import BlockMiner.JsText
import BlockMiner.RewardDefinitions
import BlockMiner.RewardsPaid
import BlockMiner.Base64
import BlockMiner.IsoDate
import BlockMiner.JsonSyntax
import BlockMiner.Keyset
import BlockMiner.AuditPages
import BlockMiner.AuditPagesExact
import BlockMiner.AuditPayloads
import BlockMiner.Csrf
import BlockMiner.CspSource
import BlockMiner.IframeHosts
import BlockMiner.CronRunner
import BlockMiner.MinigameWindow
import BlockMiner.MiniPassSeasons
import BlockMiner.MiniPassSeasonsConfigured
import BlockMiner.KeysApart
import BlockMiner.Identifiers
import BlockMiner.IdentifiersUnambiguous
import BlockMiner.DepositTickets
import BlockMiner.EventMinerAdmin
import BlockMiner.EventMinersBuyable
import BlockMiner.DepositContract
import BlockMiner.DepositContractAccounts
import BlockMiner.Authentication
import BlockMiner.AuthenticationSound
import BlockMiner.DepositCredited
import BlockMiner.RateLimit
import BlockMiner.ConversionAmounts
import BlockMiner.NetworkHashrate
import BlockMiner.AuditPageFlags
import BlockMiner.MiniPassPurchaseKeys
import BlockMiner.MiniPassLevels
import BlockMiner.RoomOccupancy
import BlockMiner.JsonSame
import BlockMiner.AuditRecords
import BlockMiner.AuditSignatures
import BlockMiner.SupportPayload
import BlockMiner.OfferMetadata
import BlockMiner.OfferParsed
import BlockMiner.OfferEdits
import BlockMiner.SidebarRegistry
import BlockMiner.SidebarNav
import BlockMiner.DailyTaskPeriod
import BlockMiner.Calendar
import BlockMiner.MiniPassPeriod
import BlockMiner.CheckinStreak
import BlockMiner.CheckinMilestones
import BlockMiner.PrivateMessages
import BlockMiner.MatchThree
import BlockMiner.JsArray
import BlockMiner.MatchThreeActions
import BlockMiner.MemoryGame
import BlockMiner.SidebarValid
import BlockMiner.SidebarMenu
import BlockMiner.SidebarGate
import BlockMiner.SidebarRepair
import BlockMiner.SidebarRequests
import BlockMiner.SidebarClient
import BlockMiner.SlidingWindow
import BlockMiner.Support
import BlockMiner.SupportThreads
import BlockMiner.EngineBoard
import BlockMiner.ServicePairs
import BlockMiner.StreamDestinations
import BlockMiner.StreamKeys
import BlockMiner.DailyTaskDashboard
import BlockMiner.History
import BlockMiner.WithdrawalAuthorised
