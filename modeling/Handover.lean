import Handover.Files
import Handover.Ledger.Chain
import Handover.Main
import Handover.Proofs.Code.Idempotence
import Handover.Proofs.Command.Migrate
import Handover.Proofs.Ledger.Families
import Handover.Proofs.Ledger.Ownership
import Handover.Proofs.Migration.Authorization
import Handover.Proofs.Migration.Budget
import Handover.Proofs.Migration.Dealers
import Handover.Proofs.Migration.EndToEnd
import Handover.Proofs.Migration.Interleaving
import Handover.Proofs.Migration.LateTotal
import Handover.Proofs.Migration.Lockdown
import Handover.Proofs.Migration.Stripping
import Handover.Proofs.Migration.Trace
import Handover.Proofs.Permit.Binding
import Handover.Proofs.Migration.Equivalence
import Handover.Proofs.Ledger.Purchases
import Handover.Proofs.Migration.History
import Handover.Proofs.Migration.Range
import Handover.Proofs.Migration.Wording
import Handover.Proofs.ServiceAddress
import Handover.Proofs.Wire.Canonical
