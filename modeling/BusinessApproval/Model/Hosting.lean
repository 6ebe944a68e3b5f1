import BusinessApproval.Lib.Projection
import BusinessApproval.Model.Batches
import BusinessApproval.Model.Lifecycle

/-!
# A D1 database with many clients

Setups, preparations and calls of the service, side by side on one database. Each
statement of a setup or of `readiness` is a step, and so is each batch, and a step may be
given up, or be carried out and its answer lost: the client gets an error either way.

The tables are all there is to know. Which operations of setups have been carried out, and
which clients have had such an error, is recorded for the proofs.
-/

namespace BusinessApproval.D1.Setup

/-- The clients whose batches are among these operations. -/
def batches (log : List (Nat × SetupOp)) : List Nat :=
  log.filterMap fun entry => match entry.2 with
    | .batch _ => some entry.1
    | _ => none

structure Hosted where
  db : Database
  /-- The operations of setups that have been carried out, and whose, the newest first. -/
  log : List (Nat × SetupOp)
  /-- The clients that have had an error that was not the database's own. -/
  failed : List Nat

namespace Hosted

/-- The clients whose `DDL` has been run, the newest first. -/
def installed (s : Hosted) : List Nat := batches s.log

/-- An operation of a setup is carried out. -/
def carryOut (s : Hosted) (t : Nat) (o : SetupOp) : Hosted where
  db := (perform o s.db).2
  log := (t, o) :: s.log
  failed := s.failed

def fail (s : Hosted) (t : Nat) : Hosted := { s with failed := t :: s.failed }

end Hosted

/-- An operation that throws. -/
def thrown (message : String) : (o : SetupOp) → SetupRes o
  | .selectMaster _ => .error message
  | .selectVersion => .error message
  | .batch _ => .error message

/-- An operation of a client is answered. A clock is read in the years 0 to 9999. -/
inductive Answers (t : Nat) (s : Hosted) :
    (o : SetupOp ⊕ D1Op) → Sum.elim SetupRes D1Res o → Hosted → Prop
  | setup (o : SetupOp) : Answers t s (.inl o) (perform o s.db).1 (s.carryOut t o)
  | setupAborted (o : SetupOp) (message : String) :
      Answers t s (.inl o) (thrown message o) (s.fail t)
  | setupLost (o : SetupOp) (message : String) :
      Answers t s (.inl o) (thrown message o) ((s.carryOut t o).fail t)
  | newDate (ms : Int) (h : InYears (ms * 1000000)) : Answers t s (.inr .newDate) ms s
  | dateNow (ms : Int) (h : InYears (ms * 1000000)) : Answers t s (.inr .dateNow) ms s
  | batch {write : Write} {condition : D1Row → Bool} {reply : Json} {db : Database}
      (h : s.db.runStore write condition = (.ok reply, db)) :
      Answers t s (.inr (.batch write condition)) (.ok reply) { s with db := db }
  /-- The batch is not carried out; without the table it never is. -/
  | aborted (write : Write) (condition : D1Row → Bool) (message : String) :
      Answers t s (.inr (.batch write condition)) (.error message) s
  | lost {write : Write} {condition : D1Row → Bool} {reply : Json} {db : Database}
      (message : String) (h : s.db.runStore write condition = (.ok reply, db)) :
      Answers t s (.inr (.batch write condition)) (.error message) { s with db := db }
  | first {condition : D1Row → Bool} {row : Json} (h : s.db.selectFirst condition = .ok row) :
      Answers t s (.inr (.first condition)) (.ok row) s
  | firstFailed (condition : D1Row → Bool) (message : String) :
      Answers t s (.inr (.first condition)) (.error message) s

def machine : Concurrent.Machine (Sum.elim SetupRes D1Res) Hosted where
  answers t o s r s' := Answers t s o r s'
  works _ _ _ _ := False
  moves _ _ := False

inductive HostAction where
  | setup
  /-- `Lifecycle::prepare` -/
  | prepare
  deriving DecidableEq, Repr

inductive HostResult where
  | setup (result : Except String Unit)
  | prepare (result : Except RuntimeFailure Unit)

def actionBody : HostAction → Prog SetupRes HostResult
  | .setup => setup.run >>= fun result => .ret (.setup result)
  | .prepare => handleReadiness >>= fun result => .ret (.prepare result)

/-- Setups, preparations and calls of the service, and the database. -/
abbrev World (Ctx : Type) :=
  Concurrent.World (Sum.elim SetupRes D1Res) (HostAction ⊕ ServiceCall Ctx)
    (HostResult ⊕ Response) Hosted

/-- The worlds that they lead to from a database. -/
def Hosting {Ctx : Type} (deps : Deps Ctx) (config : ApprovalPolicy) (db : Database) :
    World Ctx → Prop :=
  Concurrent.Reachable machine (Concurrent.both actionBody (body deps config)) ⟨db, [], []⟩

end BusinessApproval.D1.Setup
