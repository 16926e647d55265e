import DealDesk.Backlog.Parking
import DealDesk.Broker.Fragile
import DealDesk.Broker.Scripted
import DealDesk.Main
import DealDesk.Proofs.Backlog.Answers
import DealDesk.Proofs.Broker.Conservation
import DealDesk.Proofs.Desk.Accounting
import DealDesk.Proofs.Desk.Attempts
import DealDesk.Proofs.Desk.Blame
import DealDesk.Proofs.Desk.Ledger
import DealDesk.Proofs.Desk.OneRegister
import DealDesk.Proofs.Desk.Overtaking
import DealDesk.Proofs.Desk.Pauses
import DealDesk.Proofs.Desk.Pool
import DealDesk.Proofs.Desk.Protocol
import DealDesk.Proofs.Desk.Standoff
import DealDesk.Proofs.Gate.Decisions
import DealDesk.Proofs.Profile.Settled
import DealDesk.Proofs.Record.RoundTrip
import DealDesk.Proofs.Register.Listed
import DealDesk.Proofs.Settings.Amounts
import DealDesk.Proofs.Settings.Delays
import DealDesk.Proofs.Summary
