import BusinessApproval.Lib.Prog
import BusinessApproval.Lib.Keyed
import BusinessApproval.Lib.Ascii
import BusinessApproval.Lib.Decimal
import BusinessApproval.Lib.Json
import BusinessApproval.Lib.Rfc3339
import BusinessApproval.Model.Backend
import BusinessApproval.Spec.Life
import BusinessApproval.Proof.Equivalence
import BusinessApproval.Proof.Monotone
import BusinessApproval.Proof.Retry
import BusinessApproval.Proof.Origin
import BusinessApproval.Proof.Isolation
import BusinessApproval.Proof.Constraints
import BusinessApproval.Proof.Faults
import BusinessApproval.Proof.ExactlyOnce
import BusinessApproval.Proof.Fields
import BusinessApproval.Proof.Resolution
import BusinessApproval.Proof.Outcomes
import BusinessApproval.Proof.Calendar
import BusinessApproval.Proof.Commute
import BusinessApproval.Proof.Deadlines
import BusinessApproval.Proof.Serial
import BusinessApproval.Proof.Receipts
import BusinessApproval.Proof.Precedence
import BusinessApproval.Proof.ReasonLimit
import BusinessApproval.Proof.Setup
import BusinessApproval.Proof.Codec
import BusinessApproval.Proof.Configuration
import BusinessApproval.Proof.Deadlock
import BusinessApproval.Proof.Conform
import BusinessApproval.Proof.Beyond
import BusinessApproval.Proof.Atomic
import BusinessApproval.Proof.Unstuck
import BusinessApproval.Proof.ConfigWire
import BusinessApproval.Proof.Deployment
import BusinessApproval.Proof.Upgrade
import BusinessApproval.Proof.Hosting
