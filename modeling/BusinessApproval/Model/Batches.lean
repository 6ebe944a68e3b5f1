import BusinessApproval.Lib.Concurrent
import BusinessApproval.Model.D1

/-!
# Concurrent D1 clients

Many clients call the service over one D1 database. The database carries out their
batches one at a time, each of them whole. A batch can be given up before it is carried
out, and its answer can be lost afterwards: the client gets the same error either way. A
clock read gives whatever the host's clock shows by then.

The table the next batch meets is all there is to know. The record of what the clock
reads gave, and of the batches carried out, is kept for the proofs.
-/

namespace BusinessApproval.D1

/-- A batch that has been carried out: whose it was, and the table before and after. -/
structure Executed where
  client : Nat
  before : Table
  after : Table

structure Database where
  table : Table
  /-- What `new Date()` gave each client. -/
  dates : Nat → Option Int
  /-- What `Date.now()` gave each client. -/
  nows : Nat → Option Int
  /-- The batches carried out, the newest first. -/
  log : List Executed

namespace Database

def empty : Database := ⟨[], fun _ => none, fun _ => none, []⟩

def readDate (d : Database) (t : Nat) (ms : Int) : Database :=
  { d with dates := Function.update d.dates t (some ms) }

def readNow (d : Database) (t : Nat) (ms : Int) : Database :=
  { d with nows := Function.update d.nows t (some ms) }

/-- A batch of a client leaves a table. -/
def execute (d : Database) (t : Nat) (table : Table) : Database :=
  { d with table := table, log := ⟨t, d.table, table⟩ :: d.log }

end Database

/-- An operation of a client is answered. A clock is read in the years 0 to 9999. -/
inductive Serves (t : Nat) (d : Database) : (o : D1Op) → D1Res o → Database → Prop
  | newDate (ms : Int) (h : InYears (ms * 1000000)) :
      Serves t d .newDate ms (d.readDate t ms)
  | dateNow (ms : Int) (h : InYears (ms * 1000000)) :
      Serves t d .dateNow ms (d.readNow t ms)
  | batch {write : Write} {condition : D1Row → Bool} {reply : Json} {table : Table}
      (h : runBatch write condition d.table = (.ok reply, table)) :
      Serves t d (.batch write condition) (.ok reply) (d.execute t table)
  /-- The batch is not carried out. -/
  | aborted (write : Write) (condition : D1Row → Bool) (message : String) :
      Serves t d (.batch write condition) (.error message) d
  /-- The batch is carried out, and its answer is lost. -/
  | lost {write : Write} {condition : D1Row → Bool} {reply : Json} {table : Table}
      (message : String) (h : runBatch write condition d.table = (.ok reply, table)) :
      Serves t d (.batch write condition) (.error message) (d.execute t table)
  | first (condition : D1Row → Bool) :
      Serves t d (.first condition)
        (.ok (((d.table.filter condition).head?.map D1Row.toJson).getD .null)) d
  | firstFailed (condition : D1Row → Bool) (message : String) :
      Serves t d (.first condition) (.error message) d

def machine : Concurrent.Machine D1Res Database where
  answers t o d r d' := Serves t d o r d'
  works _ _ _ _ := False
  moves _ _ := False

section Clients

variable {Ctx : Type} (deps : Deps Ctx) (config : ApprovalPolicy)

/-- What a call of the service does to D1. -/
def body (call : ServiceCall Ctx) : Prog D1Res Response :=
  Prog.subst (StoreHandle deps.time) (serve deps config call)

/-- Clients that call the service, and the database. -/
abbrev World (Ctx : Type) := Concurrent.World D1Res (ServiceCall Ctx) Response Database

/-- The worlds that concurrent calls lead to from an empty table. -/
def Running : World Ctx → Prop :=
  Concurrent.Reachable machine (body deps config) Database.empty

end Clients

end BusinessApproval.D1
