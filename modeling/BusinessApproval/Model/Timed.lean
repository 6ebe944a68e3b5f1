import BusinessApproval.Lib.Timed
import BusinessApproval.Model.Batches
import BusinessApproval.Model.Concurrent

/-!
# Concurrent service calls under one clock

Clients of either store, all of whose timestamps are reads of one clock that never goes
back. It counts nanoseconds, and each read gives as much of it as its type holds:
`now_utc()` all of it, `transaction_timestamp()` the microsecond, and `new Date()` and
`Date.now()` the millisecond. Every read is a step of its own, but for
`transaction_timestamp()`, which is read once when the transaction begins.

The D1 clients are those of `Model/Batches.lean`. The PostgreSQL clients make service calls,
where those of `Model/Concurrent.lean` call the storage functions.
-/

namespace BusinessApproval

open Concurrent

variable {Ctx : Type} (deps : Deps Ctx) (config : ApprovalPolicy)

namespace Postgres

/-- What a call of the service does to PostgreSQL. -/
def body (call : ServiceCall Ctx) : Prog SqlRes Response :=
  Prog.subst (PostgresStore deps.timestamptz true) (serve deps config call)

/-- The clock reads agree with the clock. -/
def shows (t : Nat) (clock : Int) : (o : SqlOp) → SqlRes o → Database → Prop
  | .nowUtc, now, _ => now = clock ∧ InYears now
  | .begin, answer, d => answer = .ok () → d.begun t = some (clock / 1000)
  | _, _, _ => True

abbrev TimedWorld (Ctx : Type) :=
  Concurrent.World SqlRes (ServiceCall Ctx) Response (Timed SqlOp Database)

/-- The worlds that service calls under one clock lead to from an empty table. -/
def TimedRunning (w : TimedWorld Ctx) : Prop :=
  ∃ clock, Reachable (machine.timed shows) (body deps config) ⟨.empty, clock, []⟩ w

end Postgres

namespace D1

/-- The clock reads agree with the clock. -/
def shows (_ : Nat) (clock : Int) : (o : D1Op) → D1Res o → Database → Prop
  | .newDate, ms, _ => ms = clock / 1000000
  | .dateNow, ms, _ => ms = clock / 1000000
  | _, _, _ => True

abbrev TimedWorld (Ctx : Type) :=
  Concurrent.World D1Res (ServiceCall Ctx) Response (Timed D1Op Database)

/-- The worlds that service calls under one clock lead to from an empty table. -/
def TimedRunning (w : TimedWorld Ctx) : Prop :=
  ∃ clock, Reachable (machine.timed shows) (body deps config) ⟨.empty, clock, []⟩ w

end D1

end BusinessApproval
