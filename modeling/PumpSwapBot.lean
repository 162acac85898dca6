import PumpSwapBot.Library.KeyValue
import PumpSwapBot.Library.Ledger
import PumpSwapBot.Library.Prefixes
import PumpSwapBot.Sdk.FeeTable
import PumpSwapBot.Sdk.Quotes
import PumpSwapBot.Sdk.Landing
import PumpSwapBot.Sdk.Caches
import PumpSwapBot.Sdk.Astralane
import PumpSwapBot.Sdk.Node1
import PumpSwapBot.Rust.Store
import PumpSwapBot.Rust.Orders
import PumpSwapBot.Rust.Slippage
import PumpSwapBot.Rust.Prices
import PumpSwapBot.Rust.Runs
import PumpSwapBot.Rust.Freshness
import PumpSwapBot.Rust.Signals
import PumpSwapBot.Rust.Arrivals
import PumpSwapBot.Rust.Pipeline
import PumpSwapBot.Rust.TimeWindow
import PumpSwapBot.Rust.Isolation
import PumpSwapBot.Rust.Failures
import PumpSwapBot.Rust.Bounds
import PumpSwapBot.Rust.RoundTrip
import PumpSwapBot.Rust.Settlement
import PumpSwapBot.Node.Records
import PumpSwapBot.Node.Disk
import PumpSwapBot.Node.Statistics
import PumpSwapBot.Node.Daily
import PumpSwapBot.Node.Runs
import PumpSwapBot.Node.Iterations
import PumpSwapBot.Node.Decisions
import PumpSwapBot.Node.Holdings
import PumpSwapBot.Node.Transactions
import PumpSwapBot.Node.Subscription
import PumpSwapBot.Node.Window
import PumpSwapBot.Node.Redelivery
import PumpSwapBot.Node.TradeData
