import TradePlatform.PaperOmsAccounts
import TradePlatform.PaperOmsStatus
import TradePlatform.PaperOmsRefinement
import TradePlatform.PostgresConcurrency
import TradePlatform.BrokerAccounting
import TradePlatform.BrokerSyncCrash
import TradePlatform.BrokerSyncStores
import TradePlatform.BrokerCancellation
import TradePlatform.FillRedelivery
import TradePlatform.SubmissionRetry
import TradePlatform.WalkForwardSplits
import TradePlatform.T4NormalizerBars
import TradePlatform.LiveSignalChain
import TradePlatform.StrategySdkAgreement
import TradePlatform.PostgresRiskStore
import TradePlatform.KillSwitches
import TradePlatform.ReconciledAccounts
import TradePlatform.PaperAccountLookAhead
import TradePlatform.JobPolicyHashes
import TradePlatform.PostgresPretrade
import TradePlatform.Scheduler
import TradePlatform.LiquidityLookAhead
import TradePlatform.ResearchFrameRoundTrip
import TradePlatform.ScheduledAcquisitionRuns
import TradePlatform.AuthorityRerunSelection
import TradePlatform.ForwardFundingStores
import TradePlatform.OffsiteBudget
import TradePlatform.KnowledgeTimeRestored
import TradePlatform.EventBacktestPrices
import TradePlatform.EventBacktestIsolation
import TradePlatform.ExternalIdentityPolicies
import TradePlatform.BybitKlineRuns
import TradePlatform.CryptoBasisStreams
import TradePlatform.DatasetCompositionRuns
import TradePlatform.PaperAccountPeak
import TradePlatform.RunnerLivenessIntervals
import TradePlatform.PaperIncubationChain
import TradePlatform.OperationalAlerts
import TradePlatform.ClockIntervals
import TradePlatform.T4ExactSum
import TradePlatform.BybitTradeBarsAsOf
import TradePlatform.PortfolioRiskWeights
import TradePlatform.PortfolioSafeScale
import TradePlatform.PortfolioStress
import TradePlatform.FundingSchedule
import TradePlatform.WebSocketMessages
import TradePlatform.LiquidityCapacityEnvelope
import TradePlatform.HourFactsBetween
import TradePlatform.SealedMembers
import TradePlatform.StrategySdkExtremeRuns
import TradePlatform.OffsiteExtraction
import TradePlatform.CscvPboPermutation
import TradePlatform.T4MarkResolution
import TradePlatform.FundingSteps
import TradePlatform.StrategyLabLedgerRuns
import TradePlatform.CaptureCompaction
