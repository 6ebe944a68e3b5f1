import BusinessApproval.Lib.Rfc3339
import BusinessApproval.Proof.Refinement

/-!
# An instance of what is relied on

The theorems assume of other packages what `Deps.Lawful` lists. Here are packages
that have it: the RFC 3339 codec of `Lib/Rfc3339.lean`, a column codec that counts
microseconds, and contexts that say who calls and whether a human is denied. The
concrete calls the examples use are made with them.
-/

namespace BusinessApproval.Standard

/-- The `time` crate, over the calendar of `Lib/Rfc3339.lean`. -/
def time : TimeCrate where
  parse := Rfc3339.parse
  format := Rfc3339.format
  fromUnixTimestampNanos n :=
    if -377705116800000000000 ≤ n ∧ n < 253402300800000000000 then some n else none

/-- A context: its caller, and whether it carries a human assertion that is denied. -/
structure Context where
  caller : Option String
  denied : Bool

def deps : Deps Context where
  callerInstance := Context.caller
  deniesHumanContext := Context.denied
  time := time
  timestamptz t := t / 1000

theorem time_lawful : time.Lawful where
  parse_format _ ht := Rfc3339.parse_format ht.1 ht.2
  fromNanos _ := rfl

theorem deps_lawful : deps.Lawful where
  time := time_lawful
  iso ms hms := by
    obtain ⟨h0, h1⟩ := hms
    exact Rfc3339.parse_isoMillis (by omega) (by omega)
  timestamptz t ht := by
    have := ht.2
    change t / 1000 * 1000 = t
    omega

/-- One caller for each of the three roles. -/
def policy : ApprovalPolicy where
  requesterInstances := ["approval-client"]
  deciderInstances := ["approval-console"]
  expirationExecutorInstances := ["approval-expirer"]

def client : Context := ⟨some "approval-client", false⟩

def console : Context := ⟨some "approval-console", false⟩

def expirer : Context := ⟨some "approval-expirer", false⟩

/-- A request that may be decided until the given time. -/
def expense (expiresAt : String) : RequestRequest where
  requestId := "apr_expense"
  idempotencyKey := "expense:42"
  requestedBy := "usr_requester"
  approvalKind := "expense.review"
  subject := ⟨"expense", "exp_42"⟩
  expiresAt := expiresAt
  intentDigest := none

def approve : DecideRequest := ⟨"apr_expense", .approved, "usr_manager", "email-1", none⟩

/-! ## The year 10000 -/

/-- The first millisecond that has no RFC 3339 text, on both clocks of D1. -/
def year10000 : D1.Clock := ⟨253402300800000, 253402300800000⟩

section Late

variable (config : ApprovalPolicy)

/-- A D1 table with a request. -/
def requested : D1.Table :=
  ((D1.backend deps).run deps config
    [(⟨0, 0⟩, .request client (expense "1970-01-01T00:00:10Z"))] []).2

/-- The table after a decision in the year 10000, which no reader can decode. -/
def decidedTooLate : D1.Table :=
  ((D1.backend deps).run deps config
    [(⟨0, 0⟩, .request client (expense "1970-01-01T00:00:10Z")),
      (year10000, .decide console approve)] []).2

theorem requested_reachable :
    (D1.backend deps).anytime.Reachable deps config (requested config) :=
  ⟨_, fun _ _ => trivial, rfl⟩

theorem decidedTooLate_reachable :
    (D1.backend deps).anytime.Reachable deps config (decidedTooLate config) :=
  ⟨_, fun _ _ => trivial, rfl⟩

end Late

end BusinessApproval.Standard
