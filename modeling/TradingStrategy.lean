import TradingStrategy.Text.Blank
import TradingStrategy.Number.Notation
import TradingStrategy.Number.Reader
import TradingStrategy.Text.Quoted
import TradingStrategy.Json.Reader
import TradingStrategy.Json.Printer
import TradingStrategy.Expr.Printer
import TradingStrategy.Expr.Parser
import TradingStrategy.Expr.Codec
import TradingStrategy.Calendar.Reader
import TradingStrategy.Market.Bar
import TradingStrategy.Market.Timeframe
import TradingStrategy.Market.Session
import TradingStrategy.Expr.Eval
import TradingStrategy.Expr.Scope
import TradingStrategy.Feature.Plan
import TradingStrategy.Feature.Codec
import TradingStrategy.Document.Validate
import TradingStrategy.Document.Codec
import TradingStrategy.Strategy.Codec
import TradingStrategy.Strategy.Compile
import TradingStrategy.Order.Codec
import TradingStrategy.Order.Risk
import TradingStrategy.Order.Resolve
import TradingStrategy.Venue.Paper
import TradingStrategy.Venue.Cached
import TradingStrategy.Engine.Step
import TradingStrategy.Run.Report
import TradingStrategy.Text.Lowercase
import TradingStrategy.Settings.Basic
import TradingStrategy.Market.BarFile
import TradingStrategy.Main
import TradingStrategy.Proofs.Run.Lookups
import TradingStrategy.Proofs.Run.Submission
import TradingStrategy.Proofs.Run.Exposure
import TradingStrategy.Proofs.Engine.Turns
import TradingStrategy.Proofs.Number.Sums
import TradingStrategy.Proofs.Order.Prices
import TradingStrategy.Proofs.Run.Rounds
import TradingStrategy.Proofs.Run.Stays
import TradingStrategy.Proofs.Run.Waiting
import TradingStrategy.Proofs.Run.Lifecycle
import TradingStrategy.Proofs.Run.Consistency
import TradingStrategy.Proofs.Expr.Grammar
import TradingStrategy.Proofs.Expr.Spelling
import TradingStrategy.Proofs.Expr.Acceptance
import TradingStrategy.Proofs.Feature.Locality
import TradingStrategy.Proofs.Feature.Independence
import TradingStrategy.Proofs.Number.Nearest
import TradingStrategy.Proofs.Number.Packing
import TradingStrategy.Proofs.Number.Reading
import TradingStrategy.Proofs.Number.Plain
import TradingStrategy.Proofs.Expr.RoundTrip
import TradingStrategy.Proofs.Feature.Eviction
import TradingStrategy.Proofs.Venue.Caching
import TradingStrategy.Proofs.Venue.Interleaving
import TradingStrategy.Proofs.Venue.Staleness
import TradingStrategy.Proofs.Number.Portion
import TradingStrategy.Proofs.Order.Legs
import TradingStrategy.Proofs.Engine.Unique
import TradingStrategy.Proofs.Engine.Renaming
import TradingStrategy.Proofs.Venue.Plain
import TradingStrategy.Proofs.Run.DryRun
import TradingStrategy.Proofs.Venue.Mirrors
import TradingStrategy.Proofs.Engine.Mirrored
import TradingStrategy.Proofs.Run.Desk
import TradingStrategy.Proofs.Run.Lane
import TradingStrategy.Proofs.Run.Runner
import TradingStrategy.Proofs.Number.Document
import TradingStrategy.Proofs.Json.Scalars
import TradingStrategy.Proofs.Json.Pretty
import TradingStrategy.Proofs.Json.Recovery
import TradingStrategy.Proofs.Json.Reading
import TradingStrategy.Proofs.Expr.Recovery
import TradingStrategy.Proofs.Strategy.Recovery
import TradingStrategy.Proofs.Strategy.Replay
import TradingStrategy.Proofs.Document.Soundness
import TradingStrategy.Proofs.Document.Values
import TradingStrategy.Proofs.Strategy.Persistence
import TradingStrategy.Proofs.Run.Hours
import TradingStrategy.Proofs.Run.Audit
import TradingStrategy.Proofs.Venue.Exchanges
import TradingStrategy.Proofs.Run.Cancellation
import TradingStrategy.Proofs.Json.Stored
import TradingStrategy.Proofs.Document.Places
import TradingStrategy.Proofs.Document.Serialization
import TradingStrategy.Proofs.Document.Image
import TradingStrategy.Proofs.Number.Undefined
import TradingStrategy.Proofs.Number.Differences
import TradingStrategy.Proofs.Expr.Propagation
import TradingStrategy.Proofs.Run.Memory
import TradingStrategy.Proofs.Run.Gate
import TradingStrategy.Proofs.Run.Shadowing
import TradingStrategy.Proofs.Run.Limit
import TradingStrategy.Proofs.Number.Monotone
import TradingStrategy.Proofs.Order.Brackets
import TradingStrategy.Proofs.Expr.Agreement
import TradingStrategy.Proofs.Run.Frozen
import TradingStrategy.Proofs.Order.Fixed
import TradingStrategy.Proofs.Run.Preview
import TradingStrategy.Proofs.Expr.Footprint
import TradingStrategy.Proofs.Expr.Disjunction
import TradingStrategy.Proofs.Feature.Defects
import TradingStrategy.Proofs.Document.Evidence
import TradingStrategy.Proofs.Document.Readers
import TradingStrategy.Proofs.Document.Refusals
import TradingStrategy.Proofs.Feature.Rows
import TradingStrategy.Proofs.Feature.WarmUp
import TradingStrategy.Proofs.Feature.DaySums
import TradingStrategy.Proofs.Feature.Twins
import TradingStrategy.Proofs.Json.Paths
import TradingStrategy.Proofs.Strategy.Pointers
import TradingStrategy.Proofs.Calendar.Instants
import TradingStrategy.Proofs.Expr.Positions
import TradingStrategy.Proofs.Expr.Caret
import TradingStrategy.Proofs.Venue.Settlement
import TradingStrategy.Proofs.Market.Rows
import TradingStrategy.Proofs.Run.Files
import TradingStrategy.Proofs.Text.Blanks
import TradingStrategy.Proofs.Text.Lowercase
import TradingStrategy.Proofs.Calendar.Clock
import TradingStrategy.Proofs.Number.Whole
import TradingStrategy.Proofs.Settings.Values
import TradingStrategy.Proofs.Settings.Reading
