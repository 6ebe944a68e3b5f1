import BusinessApproval.Lib.Concurrent
import BusinessApproval.Model.Session

/-!
# Concurrent PostgreSQL sessions

What the statements do at `READ COMMITTED` when other transactions run beside them.
A statement sees what is committed when it starts, and the transaction's own
writes. `SELECT … FOR UPDATE` then takes the rows it has seen one after another,
waiting for each until no other transaction has it locked, and goes on with the
row as it is by then. An `INSERT … ON CONFLICT DO NOTHING` waits while an
uncommitted row of another transaction has one of its keys, and does nothing when a
committed row has. A statement waits by not being answered.

A step can fail at any time, and a transaction can be rolled back at any time: by
the server, or because the program that owned it has returned and dropped it. A
commit whose answer is lost may still be carried out later.
-/

namespace BusinessApproval.Postgres

/-- A `SELECT … FOR UPDATE` under way: the rows it has still to lock, and those it has locked. -/
structure Locking where
  waiting : List String
  fetched : List PgRow

/-- An open transaction, with the rows it has written and nobody else sees yet. -/
structure OpenTransaction where
  timestamp : Int
  locks : List String
  written : Table
  locking : Option Locking
  /-- `COMMIT` has been sent, and the answer was lost. -/
  submitted : Bool

inductive ServerEvent where
  | locked (client : Nat) (requestId : String)
  | committed (client : Nat) (written : Table)
  deriving DecidableEq, Repr

/-- The server. What has happened is logged, the newest first. -/
structure Database where
  committed : Table
  transactions : Nat → Option OpenTransaction
  /-- The timestamp of each client's transaction, kept when the transaction has ended. -/
  begun : Nat → Option Int
  log : List ServerEvent

/-- The rows a transaction sees. -/
def OpenTransaction.view (tx : OpenTransaction) (committed : Table) : Table :=
  tx.written.foldl (Keyed.put PgRow.requestId) committed

namespace Database

def empty : Database := ⟨[], fun _ => none, fun _ => none, []⟩

/-- Change a client's transaction, or end it. -/
def setTransaction (d : Database) (t : Nat) (tx : Option OpenTransaction) : Database :=
  { d with transactions := Function.update d.transactions t tx }

def beginTransaction (d : Database) (t : Nat) (timestamp : Int) : Database :=
  { d with
    transactions := Function.update d.transactions t (some ⟨timestamp, [], [], none, false⟩)
    begun := Function.update d.begun t (some timestamp) }

/--
What a transaction has written becomes the committed version, and its locks are gone.
A commit of nothing is not logged.
-/
def publish (d : Database) (t : Nat) (tx : OpenTransaction) : Database :=
  { d with
    committed := tx.view d.committed
    transactions := Function.update d.transactions t none
    log := if tx.written = [] then d.log else .committed t tx.written :: d.log }

/-- No other transaction has locked the row. -/
def Free (d : Database) (t : Nat) (requestId : String) : Prop :=
  ∀ u tx, u ≠ t → d.transactions u = some tx → requestId ∉ tx.locks

/-- No other transaction has written a row with one of the keys of `row`. -/
def Unopposed (d : Database) (t : Nat) (row : PgRow) : Prop :=
  ∀ u tx, u ≠ t → d.transactions u = some tx → taken tx.written row = false

/-- A step failed on its way to or from the server; a commit may have been received. -/
def failed (d : Database) (t : Nat) (o : SqlOp) : Database :=
  if isCommit o then
    d.setTransaction t ((d.transactions t).map fun tx => { tx with submitted := true })
  else d

end Database

/-- A statement of a client is carried out. -/
inductive Serves (t : Nat) (d : Database) : (o : SqlOp) → SqlRes o → Database → Prop
  | nowUtc (now : Int) : Serves t d .nowUtc now d
  | begin (timestamp : Int) (h : d.transactions t = none) :
      Serves t d .begin (.ok ()) (d.beginTransaction t timestamp)
  | insertRefused {row : PgRow} {tx : OpenTransaction} (h : d.transactions t = some tx)
      (hc : row.checks = false) :
      Serves t d (.insert row) (.error checkViolation) (d.setTransaction t none)
  | insertTaken {row : PgRow} {tx : OpenTransaction} (h : d.transactions t = some tx)
      (hc : row.checks = true) (ht : taken (tx.view d.committed) row = true) :
      Serves t d (.insert row) (.ok []) d
  | inserted {row : PgRow} {tx : OpenTransaction} (h : d.transactions t = some tx)
      (hc : row.checks = true) (ht : taken (tx.view d.committed) row = false)
      (hu : d.Unopposed t row) :
      Serves t d (.insert row) (.ok [row]) (d.setTransaction t (some { tx with
        written := Keyed.put PgRow.requestId tx.written row }))
  /-- There is nothing to lock. -/
  | selectNothing {condition : PgRow → Bool} {tx : OpenTransaction}
      (h : d.transactions t = some tx) (hl : tx.locking = none)
      (hnone : (tx.view d.committed).filter condition = []) :
      Serves t d (.selectForUpdate condition) (.ok []) d
  /-- The last row has been locked. -/
  | selected {condition : PgRow → Bool} {tx : OpenTransaction} {rows : List PgRow}
      (h : d.transactions t = some tx) (hl : tx.locking = some ⟨[], rows⟩) :
      Serves t d (.selectForUpdate condition) (.ok rows) (d.setTransaction t (some { tx with
        locking := none }))
  | select (condition : PgRow → Bool) :
      Serves t d (.select condition) (.ok (d.committed.filter condition)) d
  | selectDue {requestId : String} {tx : OpenTransaction} (h : d.transactions t = some tx) :
      Serves t d (.selectDue requestId)
        (.ok ((lookup (tx.view d.committed) requestId).toList.map
          (fun row => row.expiresAt ≤ tx.timestamp))) d
  | updateNothing {requestId : String} {set : PgRow.Settlement} {tx : OpenTransaction}
      (h : d.transactions t = some tx) (hrow : lookup (tx.view d.committed) requestId = none) :
      Serves t d (.update requestId set) (.ok []) d
  | updateRefused {requestId : String} {set : PgRow.Settlement} {tx : OpenTransaction}
      {row : PgRow} (h : d.transactions t = some tx)
      (hrow : lookup (tx.view d.committed) requestId = some row) (hfree : d.Free t requestId)
      (hc : (row.settle set tx.timestamp).checks = false) :
      Serves t d (.update requestId set) (.error checkViolation) (d.setTransaction t none)
  | updated {requestId : String} {set : PgRow.Settlement} {tx : OpenTransaction}
      {row : PgRow} (h : d.transactions t = some tx)
      (hrow : lookup (tx.view d.committed) requestId = some row) (hfree : d.Free t requestId)
      (hc : (row.settle set tx.timestamp).checks = true) :
      Serves t d (.update requestId set) (.ok [row.settle set tx.timestamp])
        (d.setTransaction t (some { tx with
          locks := requestId :: tx.locks
          written := Keyed.put PgRow.requestId tx.written (row.settle set tx.timestamp) }))
  | decode (row : PgRow) : Serves t d (.decode row) (decodeApproval row) d
  | commit {tx : OpenTransaction} (h : d.transactions t = some tx) :
      Serves t d .commit (.ok ()) (d.publish t tx)

/-- The `SELECT … FOR UPDATE` of a client gets on. -/
inductive Works (t : Nat) (d : Database) : SqlOp → Database → Prop
  /-- The rows to lock are known; in which order they are locked is the server's choice. -/
  | snapshot {condition : PgRow → Bool} {tx : OpenTransaction} {waiting : List String}
      (h : d.transactions t = some tx) (hl : tx.locking = none)
      (hw : waiting.Perm (((tx.view d.committed).filter condition).map PgRow.requestId))
      (hsome : waiting ≠ []) :
      Works t d (.selectForUpdate condition) (d.setTransaction t (some { tx with
        locking := some ⟨waiting, []⟩ }))
  | lock {condition : PgRow → Bool} {tx : OpenTransaction} {requestId : String}
      {rest : List String} {rows : List PgRow} {row : PgRow} (h : d.transactions t = some tx)
      (hl : tx.locking = some ⟨requestId :: rest, rows⟩) (hfree : d.Free t requestId)
      (hrow : lookup (tx.view d.committed) requestId = some row) (hcond : condition row = true) :
      Works t d (.selectForUpdate condition)
        { d.setTransaction t (some { tx with
            locks := requestId :: tx.locks
            locking := some ⟨rest, rows ++ [row]⟩ }) with
          log := .locked t requestId :: d.log }
  /-- The row is gone, or no longer meets the condition. -/
  | skip {condition : PgRow → Bool} {tx : OpenTransaction} {requestId : String}
      {rest : List String} {rows : List PgRow} (h : d.transactions t = some tx)
      (hl : tx.locking = some ⟨requestId :: rest, rows⟩) (hfree : d.Free t requestId)
      (hgone : ∀ row, lookup (tx.view d.committed) requestId = some row →
        condition row = false) :
      Works t d (.selectForUpdate condition) (d.setTransaction t (some { tx with
        locking := some ⟨rest, rows⟩ }))

/-- What happens to transactions that no client waits for. -/
inductive Moves (d : Database) : Database → Prop
  | rollback {t : Nat} {tx : OpenTransaction} (h : d.transactions t = some tx) :
      Moves d (d.setTransaction t none)
  /-- A commit whose answer was lost is carried out. -/
  | land {t : Nat} {tx : OpenTransaction} (h : d.transactions t = some tx)
      (hs : tx.submitted = true) : Moves d (d.publish t tx)

def machine : Concurrent.Machine SqlRes Database where
  answers t o d r d' := Serves t d o r d'
    ∨ ∃ fault clock, r = Fault.answer fault clock o ∧ d' = d.failed t o
  works t o d d' := Works t d o d'
  moves d d' := Moves d d'

/-- Clients that call the storage functions, and the server. -/
abbrev World := Concurrent.World SqlRes Call Answer Database

/-- The worlds that concurrent calls lead to from an empty table. -/
def Running (timestamptz : Int → Int) : World → Prop :=
  Concurrent.Reachable machine (Call.prog timestamptz) Database.empty

end BusinessApproval.Postgres
