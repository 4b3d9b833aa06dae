import TonTrace.Action
import TonTrace.Action.Codec
import TonTrace.Action.Summary
import TonTrace.Action.Template
import TonTrace.Address
import TonTrace.AddressMap
import TonTrace.Amount
import TonTrace.Analysis
import TonTrace.Body
import TonTrace.Catalog
import TonTrace.Catalog.Billing
import TonTrace.Catalog.Market
import TonTrace.Catalog.Plain
import TonTrace.Catalog.Staking
import TonTrace.Catalog.Transfer
import TonTrace.Config
import TonTrace.Decimal
import TonTrace.Error
import TonTrace.Event
import TonTrace.EventKind
import TonTrace.Flow
import TonTrace.Flow.Codec
import TonTrace.Hex
import TonTrace.Json
import TonTrace.Json.Reader
import TonTrace.Json.Record
import TonTrace.Json.Scalar
import TonTrace.Json.Token
import TonTrace.Json.Writer
import TonTrace.Operation
import TonTrace.Pattern
import TonTrace.Pattern.Check
import TonTrace.Payload
import TonTrace.Ranged
import TonTrace.Reading
import TonTrace.Report
import TonTrace.Rewriting
import TonTrace.Trace
import TonTrace.Trace.Codec
import TonTrace.Transaction
import TonTrace.Tree
import TonTrace.Proofs.Matching
import TonTrace.Proofs.Rewriting
import TonTrace.Proofs.AddressMap
import TonTrace.Proofs.Conservation
import TonTrace.Proofs.Ledger
import TonTrace.Proofs.Report
import TonTrace.Proofs.Catalog
import TonTrace.Proofs.Validation
import TonTrace.Proofs.Seeding
import TonTrace.Proofs.Balance
import TonTrace.Proofs.Totals
import TonTrace.Proofs.Explained
import TonTrace.Proofs.Deployments
import TonTrace.Proofs.Sites
import TonTrace.Proofs.Placement
import TonTrace.Proofs.Making
import TonTrace.Proofs.Termination
import TonTrace.Proofs.Retelling
import TonTrace.Proofs.Jettons
import TonTrace.Proofs.Merging
import TonTrace.Proofs.Settling
import TonTrace.Proofs.JettonLedger
import TonTrace.Proofs.Idempotence
import TonTrace.Proofs.NftCounts
import TonTrace.Proofs.Siblings
import TonTrace.Proofs.Named
import TonTrace.Proofs.Calls
import TonTrace.Proofs.Json
import TonTrace.Proofs.RoundTrip
import TonTrace.Proofs.Batch
import TonTrace.Proofs.InPlace
import TonTrace.Proofs.Consumption
import TonTrace.Proofs.Limits
import TonTrace.Proofs.Journal
import TonTrace.Proofs.Arrival
import TonTrace.Proofs.Swaps
import TonTrace.Proofs.Purchases
import TonTrace.Proofs.Checked
import TonTrace.Proofs.Overflow
import TonTrace.Proofs.Template
import TonTrace.Proofs.Numeral
import TonTrace.Proofs.Spelling
import TonTrace.Proofs.Amount
import TonTrace.Proofs.Literal
import TonTrace.Proofs.Denotation
import TonTrace.Proofs.Sweep
import TonTrace.Proofs.Counters
