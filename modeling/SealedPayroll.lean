import SealedPayroll.Payment.Attempt
import SealedPayroll.Session.Setup
import SealedPayroll.Session.Summary
import SealedPayroll.Proofs.Groth16.Inputs
import SealedPayroll.Proofs.Host.Answers
import SealedPayroll.Proofs.Ledger.Rows
import SealedPayroll.Proofs.Session.Public
import SealedPayroll.Proofs.Payment.Books
import SealedPayroll.Proofs.Payment.Settle
import SealedPayroll.Proofs.Payment.Batch
import SealedPayroll.Proofs.Payment.BatchEffect
import SealedPayroll.Proofs.Host.Mutations
import SealedPayroll.Proofs.Session.Atomicity
import SealedPayroll.Proofs.Payment.PayBatch
import SealedPayroll.Proofs.Payment.Scalars
import SealedPayroll.Proofs.Payment.Callbacks
import SealedPayroll.Proofs.Payment.Reentrancy
import SealedPayroll.Proofs.Audit.Presented
import SealedPayroll.Proofs.Audit.Scoped
import SealedPayroll.Proofs.Operation.Components
import SealedPayroll.Proofs.Session.Upheld
import SealedPayroll.Proofs.Payment.Linked
import SealedPayroll.Proofs.Operation.Early
import SealedPayroll.Proofs.Operation.Named
import SealedPayroll.Proofs.Payment.Unsigned
import SealedPayroll.Proofs.Audit.Trace
import SealedPayroll.Proofs.Audit.Lifetime
import SealedPayroll.Proofs.Host.History
import SealedPayroll.Proofs.Operation.Affair
import SealedPayroll.Proofs.Session.Regime
import SealedPayroll.Proofs.Registry.Effects
import SealedPayroll.Proofs.Registry.InStep
import SealedPayroll.Proofs.Payment.InStep
import SealedPayroll.Proofs.Payment.Totals
import SealedPayroll.Proofs.Registry.Companies
import SealedPayroll.Proofs.Registry.Holdings
import SealedPayroll.Proofs.Audit.Granted
import SealedPayroll.Proofs.Payment.Spending
import SealedPayroll.Proofs.Session.Consent
import SealedPayroll.Proofs.Token.Effects
import SealedPayroll.Proofs.Token.Supply
import SealedPayroll.Proofs.Token.Conservation
import SealedPayroll.Proofs.Session.Permanence
import SealedPayroll.Proofs.Groth16.Lawful
import SealedPayroll.Proofs.Groth16.Decision
import SealedPayroll.Proofs.Host.Beside
import SealedPayroll.Proofs.Payment.Alone
import SealedPayroll.Proofs.Payment.Sequence
import SealedPayroll.Proofs.Host.Published
import SealedPayroll.Proofs.Operation.Silent
import SealedPayroll.Proofs.Host.Caught
import SealedPayroll.Proofs.Payment.Feed
import SealedPayroll.Proofs.Registry.Staffing
import SealedPayroll.Proofs.Audit.Keyring
import SealedPayroll.Proofs.Audit.Report
import SealedPayroll.Proofs.Host.Steady
import SealedPayroll.Proofs.Payment.Commute
import SealedPayroll.Proofs.Groth16.Range
import SealedPayroll.Proofs.Hash.Preimages
import SealedPayroll.Proofs.Ledger.Listing
import SealedPayroll.Proofs.Session.Listings
import SealedPayroll.Proofs.Commitment.Records
import SealedPayroll.Proofs.Commitment.Batch
import SealedPayroll.Proofs.Groth16.Shape
import SealedPayroll.Proofs.Scalar.Sampling
