import InvestmentPlatform.Proofs.Auth.LifecycleRuns
import InvestmentPlatform.Proofs.Auth.RoleAdmin
import InvestmentPlatform.Proofs.Backtest.NoLookahead
import InvestmentPlatform.Proofs.Broker.Kubernetes
import InvestmentPlatform.Proofs.Broker.Recovery
import InvestmentPlatform.Proofs.Connector.LoginProxy
import InvestmentPlatform.Proofs.Connector.Routes
import InvestmentPlatform.Proofs.Connector.Runtime
import InvestmentPlatform.Proofs.Cycle.Attempts
import InvestmentPlatform.Proofs.Cycle.ExactlyOnce
import InvestmentPlatform.Proofs.Cycle.Snapshot
import InvestmentPlatform.Proofs.Discovery.Discover
import InvestmentPlatform.Proofs.Etf.HistoricalCoverage
import InvestmentPlatform.Proofs.Etf.Recommendation
import InvestmentPlatform.Proofs.Evidence.Dispatcher
import InvestmentPlatform.Proofs.Evidence.EtfStore
import InvestmentPlatform.Proofs.Evidence.EventStore
import InvestmentPlatform.Proofs.Evidence.FactPrecedence
import InvestmentPlatform.Proofs.Evidence.FetchCaches
import InvestmentPlatform.Proofs.Evidence.FinancialFacts
import InvestmentPlatform.Proofs.Evidence.Flights
import InvestmentPlatform.Proofs.Evidence.Investigation
import InvestmentPlatform.Proofs.Evidence.Overlays
import InvestmentPlatform.Proofs.Evidence.PdfExtraction
import InvestmentPlatform.Proofs.Evidence.ReadinessCache
import InvestmentPlatform.Proofs.Evidence.RefreshFlights
import InvestmentPlatform.Proofs.Evidence.StatementHistory
import InvestmentPlatform.Proofs.Market.Backfill
import InvestmentPlatform.Proofs.Market.DailyCloses
import InvestmentPlatform.Proofs.Market.Lookups
import InvestmentPlatform.Proofs.Market.Screening
import InvestmentPlatform.Proofs.Market.StructuredSnapshots
import InvestmentPlatform.Proofs.Market.YahooBackoff
import InvestmentPlatform.Proofs.Market.YahooThreads
import InvestmentPlatform.Proofs.News.Acquisition
import InvestmentPlatform.Proofs.Opportunity.Cards
import InvestmentPlatform.Proofs.Opportunity.Ranges
import InvestmentPlatform.Proofs.Opportunity.Scheduler
import InvestmentPlatform.Proofs.Opportunity.Unchanged
import InvestmentPlatform.Proofs.Persistence.Adapter
import InvestmentPlatform.Proofs.Portfolio.Breakdown
import InvestmentPlatform.Proofs.Portfolio.ImportRuns
import InvestmentPlatform.Proofs.Portfolio.InstrumentMaster
import InvestmentPlatform.Proofs.Portfolio.Reconciled
import InvestmentPlatform.Proofs.Ranker.Order
import InvestmentPlatform.Proofs.Readiness.Blockers
import InvestmentPlatform.Proofs.Rules.Cache
import InvestmentPlatform.Proofs.Rules.Decay
import InvestmentPlatform.Proofs.Rules.GrowthMetrics
import InvestmentPlatform.Proofs.Rules.Piecewise
import InvestmentPlatform.Proofs.Stage2.Accounting
import InvestmentPlatform.Proofs.Suggestions.Projection
