import TraderStack.Lib.Dict
import TraderStack.Lib.Machine
import TraderStack.Lib.CostBasis
import TraderStack.Lib.Text
import TraderStack.Lib.Cursor
import TraderStack.Models
import TraderStack.Portfolio.Book
import TraderStack.Portfolio.BookTheory
import TraderStack.Portfolio.Accounting
import TraderStack.Portfolio.HighWater
import TraderStack.Risk.Policy
import TraderStack.Risk.Engine
import TraderStack.Risk.Limits
import TraderStack.Execution.Planner
import TraderStack.Execution.Ledger
import TraderStack.Execution.Accounts
import TraderStack.Execution.PaperFill
import TraderStack.Execution.VenueRows
import TraderStack.Execution.Reconcile
import TraderStack.Execution.Atomicity
import TraderStack.Lib.Proc
import TraderStack.Execution.Hummingbot
import TraderStack.Execution.Submitter
import TraderStack.Execution.VenueRecords
import TraderStack.Execution.SubmitOnce
import TraderStack.Execution.SubmitRuns
import TraderStack.Execution.SubmitEffects
import TraderStack.Execution.Passes
import TraderStack.Execution.Provenance
import TraderStack.Execution.ProvenanceRuns
import TraderStack.Execution.Adoption
import TraderStack.Service.Exits
import TraderStack.Service.Pipeline
import TraderStack.Service.Cycle
import TraderStack.Service.OrderLimits
import TraderStack.Execution.Tally
import TraderStack.Service.Durability
import TraderStack.Agents.Review
import TraderStack.Service.ExitIsolation
import TraderStack.Audit.Trail
import TraderStack.Audit.Anchors
import TraderStack.Service.ExitFills
import TraderStack.Execution.PaperPerp
import TraderStack.Service.HedgedCycle
import TraderStack.Service.ClosedGates
import TraderStack.Risk.Breaker
import TraderStack.Service.Breaker
import TraderStack.Risk.Polling
import TraderStack.Execution.PerpAtomicity
import TraderStack.Execution.PlanSizing
import TraderStack.Execution.Lifecycle
import TraderStack.Execution.FixedPoint
import TraderStack.Acceptance.Report
import TraderStack.Acceptance.FillTimes
import TraderStack.Service.Funding
import TraderStack.Service.EntryFills
import TraderStack.Execution.ReduceOnly
import TraderStack.Execution.FillOnce
import TraderStack.Portfolio.DailyLoss
import TraderStack.Portfolio.HoldingPeriod
import TraderStack.Service.BookRuns
import TraderStack.Service.HedgeCover
import TraderStack.Lib.Drawdown
import TraderStack.Research.Backtest
import TraderStack.Research.BacktestLedger
import TraderStack.Research.RealisedDrawdown
import TraderStack.Research.Benchmark
import TraderStack.Research.CostMonotone
import TraderStack.Research.WalkForward
import TraderStack.Lib.Ranking
import TraderStack.Research.Selection
import TraderStack.Research.Ensemble
import TraderStack.Research.Search
import TraderStack.Research.MilesSearch
import TraderStack.Research.FeeStress
import TraderStack.Lib.Quota
import TraderStack.Market.Registry
import TraderStack.Market.Quotas
import TraderStack.Acceptance.Replay
import TraderStack.Lib.Fifo
import TraderStack.Acceptance.TradeReturns
import TraderStack.Lib.Bisect
import TraderStack.Research.Garch
import TraderStack.Research.TradeFloor
import TraderStack.Lib.Grid
import TraderStack.Lib.Groups
import TraderStack.Research.CandleArchives
import TraderStack.Lib.AbiWord
import TraderStack.Research.RollUp
import TraderStack.Market.SwapLog
import TraderStack.Market.Liquidations
import TraderStack.Lib.TopLevels
import TraderStack.Market.LocalBook
import TraderStack.Research.Universe
import TraderStack.Research.Pbo
import TraderStack.Lib.Json
import TraderStack.Lib.JsonText
import TraderStack.Lib.JsonLines
import TraderStack.Polymarket.Tape
import TraderStack.Execution.Shadow
import TraderStack.Polymarket.Edge
import TraderStack.Polymarket.WeatherEval
import TraderStack.Polymarket.WedgeEval
import TraderStack.Research.Basket
import TraderStack.Lib.Stacks
import TraderStack.Research.SelectionEvidence
import TraderStack.Research.Consensus
import TraderStack.Lib.SortedList
import TraderStack.Lib.Trailing
import TraderStack.Market.OnchainRegime
import TraderStack.Research.RegimeVoter
import TraderStack.Service.RegimeGate
import TraderStack.Lib.MonotoneDeque
import TraderStack.Research.EnsembleTrend
import TraderStack.Research.EnsembleVoter
import TraderStack.Lib.Prefixes
import TraderStack.Risk.Tripping
import TraderStack.Lib.Spells
import TraderStack.Research.HedgedCarry
import TraderStack.Research.FlipCost
import TraderStack.Research.CarrySpells
import TraderStack.Research.DualPrint
import TraderStack.Research.CarryGates
import TraderStack.Research.FundingCarry
import TraderStack.Research.CarryPromotion
import TraderStack.Lib.LaterRows
import TraderStack.Research.Assignments
import TraderStack.Research.EnsembleUniverse
import TraderStack.Research.VolumeBreakout
import TraderStack.Research.BollingerFade
import TraderStack.Research.AlignedDays
import TraderStack.Research.CrossSectional
import TraderStack.Research.LeadLag
import TraderStack.Research.SignalsInTime
