import PearlAlgo.Tradovate.Client
import PearlAlgo.Tradovate.Adapter
import PearlAlgo.Tradovate.EventLoop
import PearlAlgo.Tradovate.Segments
import PearlAlgo.Tradovate.Disarm
import PearlAlgo.Tradovate.SignalDedup
import PearlAlgo.Tradovate.DailyOrderCap
import PearlAlgo.Tradovate.PositionCap
import PearlAlgo.Tradovate.BracketDirection
import PearlAlgo.Tradovate.Flatten
import PearlAlgo.Tradovate.Reversal
import PearlAlgo.MarketAgent.CircuitBreaker
import PearlAlgo.MarketAgent.PerformanceTracker
import PearlAlgo.MarketAgent.VirtualTradeManager
import PearlAlgo.MarketAgent.Service
import PearlAlgo.MarketAgent.DailyLoss
import PearlAlgo.MarketAgent.LossStreak
import PearlAlgo.MarketAgent.ExecutionFlags
import PearlAlgo.MarketAgent.Reconciliation
import PearlAlgo.MarketAgent.FillsFile
import PearlAlgo.MarketAgent.ControlDominance
import PearlAlgo.MarketAgent.BreakerRuns
import PearlAlgo.MarketAgent.ProfitLock
import PearlAlgo.MarketAgent.Cooldown
import PearlAlgo.MarketAgent.BreakerPersistence
import PearlAlgo.MarketAgent.SignalLifecycle
import PearlAlgo.Storage.AsyncSQLiteQueue
import PearlAlgo.Storage.QueueShutdown
import PearlAlgo.Storage.QueueOrder
import PearlAlgo.MarketAgent.SignalsFile
import PearlAlgo.MarketAgent.RecentSignals
import PearlAlgo.MarketAgent.ActiveTrades
import PearlAlgo.Tradovate.AccountSummary
import PearlAlgo.MarketAgent.ProtectionGuard
import PearlAlgo.MarketAgent.SignalExport
import PearlAlgo.MarketAgent.SignalHandler
import PearlAlgo.MarketAgent.SignalPaths
import PearlAlgo.MarketAgent.SessionReset
import PearlAlgo.MarketAgent.CloseRequests
import PearlAlgo.Tradovate.TrailingStop
import PearlAlgo.MarketAgent.PositionMonitor
import PearlAlgo.MarketAgent.StopRatchet
import PearlAlgo.Tradovate.TrailingRuns
import PearlAlgo.MarketAgent.SignalStores
import PearlAlgo.MarketAgent.PositionTracker
import PearlAlgo.MarketAgent.BrokerSync
import PearlAlgo.Coop.Server
import PearlAlgo.Tradovate.OrphanedStops
import PearlAlgo.Tradovate.OrphanedStopRuns
import PearlAlgo.Py.RecentKeys
import PearlAlgo.Alerts.TvToDiscord
import PearlAlgo.MarketAgent.TvPaperEvalTracker
import PearlAlgo.MarketAgent.EvalAttempts
import PearlAlgo.MarketAgent.EvalFloor
import PearlAlgo.MarketAgent.EvalRestart
import PearlAlgo.MarketAgent.VirtualExitRuns
import PearlAlgo.MarketAgent.SignalRotation
import PearlAlgo.MarketAgent.SignalReplay
import PearlAlgo.MarketAgent.MetricsCache
import PearlAlgo.Backtesting.TrailingStep
import PearlAlgo.MarketAgent.DailyLimits
import PearlAlgo.MarketAgent.BreakerDecision
import PearlAlgo.MarketAgent.CircuitBreakerFilters
import PearlAlgo.Backtesting.BacktestCircuitBreaker
import PearlAlgo.Backtesting.BreakerAgreement
import PearlAlgo.Book.Slots
import PearlAlgo.Backtesting.BacktestEngine
import PearlAlgo.Backtesting.TradeConservation
import PearlAlgo.Backtesting.Resampling
import PearlAlgo.Backtesting.LookAhead
import PearlAlgo.MarketAgent.KillFlagPaths
import PearlAlgo.TradingBots.Indicators
import PearlAlgo.TradingBots.Strategy
import PearlAlgo.TradingBots.SmcSignals
import PearlAlgo.TradingBots.SignalGenerator
import PearlAlgo.TradingBots.BracketGeometry
import PearlAlgo.TradingBots.VwapSide
import PearlAlgo.TradingBots.OrbTracking
import PearlAlgo.MarketAgent.SignalPruning
import PearlAlgo.Py.IsoFormat
import PearlAlgo.MarketAgent.TradingDayPnl
import PearlAlgo.Api.PairedTrades
import PearlAlgo.Py.TtlCache
import PearlAlgo.MarketAgent.AutoFlat
import PearlAlgo.MarketAgent.OrderManager
import PearlAlgo.MarketAgent.EvalCap
import PearlAlgo.Py.LatestKeys
import PearlAlgo.Py.MemoCache
import PearlAlgo.Backtesting.GeneratorGlobals
import PearlAlgo.Backtesting.KeyLevels
import PearlAlgo.Backtesting.RunIndependence
import PearlAlgo.Backtesting.SessionRanges
import PearlAlgo.Py.Lines
import PearlAlgo.Api.SignalsPages
import PearlAlgo.Sql.Select
import PearlAlgo.Persistence.CandleArchive
import PearlAlgo.Yaml.Datum
import PearlAlgo.Pydantic.Schema
import PearlAlgo.Config.Migration
import PearlAlgo.Config.SchemaV2
import PearlAlgo.Config.RuntimeValidation
import PearlAlgo.Config.ServiceConfig
import PearlAlgo.Config.StrategyConfig
import PearlAlgo.Config.ReplayConfig
import PearlAlgo.Config.ConfigFile
import PearlAlgo.Config.ServiceCache
import PearlAlgo.Yaml.Objects
import PearlAlgo.Api.ConfigUpdate
import PearlAlgo.DataProviders.IbkrProvider
import PearlAlgo.DataProviders.IbkrExecutor
import PearlAlgo.Py.Ordinal
import PearlAlgo.DataProviders.ContractSelection
import PearlAlgo.Backtesting.ReplayHarness
import PearlAlgo.Maintenance.RebuildSqlite
import PearlAlgo.Storage.TradeDatabase
import PearlAlgo.MarketAgent.ExitAtomicity
import PearlAlgo.Py.Arrays
import PearlAlgo.MarketAgent.VirtualExits
import PearlAlgo.RunnerRuns
import PearlAlgo.Tradovate.RateLimit
import PearlAlgo.Tradovate.PartialFills
import PearlAlgo.Coop.Lock
import PearlAlgo.Tradovate.InFlight
import PearlAlgo.Tradovate.CancelCoverage
import PearlAlgo.Tradovate.WorkingOrders
import PearlAlgo.Ops.BackfillPerformance
import PearlAlgo.Py.StableSort
import PearlAlgo.Equity.Drawdown
import PearlAlgo.Backtesting.DrawdownAgreement
import PearlAlgo.MarketAgent.SignalGuards
import PearlAlgo.MarketAgent.FillMatching
import PearlAlgo.MarketAgent.ForceClose
import PearlAlgo.Backtesting.Feasibility
import PearlAlgo.Backtesting.ScorecardLedgers
import PearlAlgo.Backtesting.ForwardScan
import PearlAlgo.Py.While
import PearlAlgo.Utils.Cadence
import PearlAlgo.Py.Text
import PearlAlgo.Py.Json
import PearlAlgo.Utils.StateIo
import PearlAlgo.Py.NewYork
import PearlAlgo.Validation.SignalFns
import PearlAlgo.Validation.SessionEvents
import PearlAlgo.Validation.HtfBars
import PearlAlgo.Api.TradeAttribution
import PearlAlgo.Py.Clock
import PearlAlgo.Utils.Holidays
import PearlAlgo.Utils.MarketHours
import PearlAlgo.Config.MarketHoursOverrides
import PearlAlgo.Py.LocalTime
import PearlAlgo.Utils.NextOpen
import PearlAlgo.DataProviders.BreakerProbes
import PearlAlgo.Py.JsonDumps
import PearlAlgo.Fs.Disk
import PearlAlgo.Fs.LockedUpdate
import PearlAlgo.Lts.Components
import PearlAlgo.Py.SlidingWindow
import PearlAlgo.MarketAgent.ServiceLoop
import PearlAlgo.MarketAgent.LoopGuards
import PearlAlgo.MarketAgent.FlagChecks
import PearlAlgo.Utils.JsonlRoundTrip
import PearlAlgo.MarketAgent.PerformanceFile
import PearlAlgo.MarketAgent.AuditLogger
import PearlAlgo.MarketAgent.AuditWorker
import PearlAlgo.MarketAgent.AuditRuns
import PearlAlgo.Api.OperatorAccess
import PearlAlgo.DataProviders.Executor
import PearlAlgo.DataProviders.ExecutorFutures
import PearlAlgo.DataProviders.ExecutorLine
import PearlAlgo.MarketAgent.DataFetcher
import PearlAlgo.Tradovate.Connection
import PearlAlgo.Tradovate.Reconnect
import PearlAlgo.Tradovate.Session
import PearlAlgo.Tradovate.OrderPoll
import PearlAlgo.MarketAgent.EmergencyStops
import PearlAlgo.Py.Sweep
import PearlAlgo.Analytics.IncidentExposure
import PearlAlgo.Fs.RotatingLog
import PearlAlgo.MarketAgent.SignalAuditLogger
import PearlAlgo.MarketAgent.EventLog
import PearlAlgo.Api.VolumeProfile
import PearlAlgo.Api.IndicatorService
