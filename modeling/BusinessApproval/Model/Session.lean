import BusinessApproval.Model.Postgres

/-!
# A PostgreSQL session on its own

What the statements do when nothing else runs: one transaction at a time works on
a copy of the table, and the copy becomes the table when the transaction commits.
A statement that fails ends the transaction.

`faulty` is the same session with failures injected at chosen steps, and with a
note of whether a commit was submitted and acknowledged.
-/

namespace BusinessApproval.Postgres

/-- What the two clocks show during a call; the database's counts microseconds. -/
structure Clock where
  nowUtc : Int
  transactionTimestamp : Int
  deriving DecidableEq, Repr

/-- Both clock reads are in the years 0 to 9999. -/
structure Clock.InYears (clock : Clock) : Prop where
  nowUtc : BusinessApproval.InYears clock.nowUtc
  transactionTimestamp : BusinessApproval.InYears (ofTimestamptz clock.transactionTimestamp)

/-- An open transaction: its timestamp, and the table as it sees it. -/
structure Transaction where
  timestamp : Int
  rows : Table

structure Session where
  table : Table
  transaction : Option Transaction

def checkViolation : SqlxError := .database "new row violates check constraint"

def noTransaction : SqlxError := .database "there is no transaction in progress"

namespace Transaction

/-- The `CHECK` constraints are tried first; a key that is taken makes it do nothing. -/
def insert (t : Transaction) (row : PgRow) : Except SqlxError (List PgRow × Transaction) :=
  if !row.checks then .error checkViolation
  else if taken t.rows row then .ok ([], t)
  else .ok ([row], { t with rows := Keyed.put PgRow.requestId t.rows row })

def update (t : Transaction) (requestId : String) (set : PgRow.Settlement) :
    Except SqlxError (List PgRow × Transaction) :=
  match lookup t.rows requestId with
  | none => .ok ([], t)
  | some row =>
      let row := row.settle set t.timestamp
      if !row.checks then .error checkViolation
      else .ok ([row], { t with rows := Keyed.put PgRow.requestId t.rows row })

def due (t : Transaction) (requestId : String) : List Bool :=
  (lookup t.rows requestId).toList.map (fun row => row.expiresAt ≤ t.timestamp)

end Transaction

namespace Session

/-- Before any transaction. -/
def idle (table : Table) : Session := ⟨table, none⟩

/-- Run a statement in the open transaction. -/
def within {α : Type} (s : Session) (statement : Transaction → Except SqlxError (α × Transaction)) :
    Except SqlxError α × Session :=
  match s.transaction with
  | none => (.error noTransaction, s)
  | some t =>
      match statement t with
      | .ok (answer, t) => (.ok answer, { s with transaction := some t })
      | .error source => (.error source, { s with transaction := none })

/-- What each operation does. -/
def perform (clock : Clock) : Prog.Handler SqlRes Session
  | .nowUtc, s => (clock.nowUtc, s)
  | .begin, s => (.ok (), { s with transaction := some ⟨clock.transactionTimestamp, s.table⟩ })
  | .insert row, s => s.within (fun t => t.insert row)
  | .selectForUpdate condition, s => s.within (fun t => .ok (t.rows.filter condition, t))
  | .select condition, s => (.ok (s.table.filter condition), s)
  | .selectDue requestId, s => s.within (fun t => .ok (t.due requestId, t))
  | .update requestId set, s => s.within (fun t => t.update requestId set)
  | .decode row, s => (decodeApproval row, s)
  | .commit, s =>
      match s.transaction with
      | none => (.error noTransaction, s)
      | some t => (.ok (), { table := t.rows, transaction := none })

end Session

/-! ## Calls of the store, run alone -/

/-- Run a store method by itself; a transaction it leaves open is rolled back. -/
def alone (timestamptz : Int → Int) (clock : Clock) : Prog.Handler StoreRes Table :=
  fun o table =>
    let (answer, s) :=
      Prog.run (Session.perform clock) (PostgresStore timestamptz true o) (Session.idle table)
    (answer, s.table)

/-! ## Failures -/

/-- A failure at one step: what the driver reports, and whether the step was carried out first. -/
structure Fault where
  source : SqlxError
  carriedOut : Bool

/-- What a failed step answers. Reading the clock does not fail. -/
def Fault.answer (fault : Fault) (clock : Clock) : (o : SqlOp) → SqlRes o
  | .nowUtc => clock.nowUtc
  | .begin => .error fault.source
  | .insert _ => .error fault.source
  | .selectForUpdate _ => .error fault.source
  | .select _ => .error fault.source
  | .selectDue _ => .error fault.source
  | .update _ _ => .error fault.source
  | .decode _ => .error (.database "decode" fault.source)
  | .commit => .error fault.source

/-- A session with the number of its next step, and what became of the commit. -/
structure Monitored where
  session : Session
  step : Nat
  submitted : Bool
  acknowledged : Bool

def Monitored.idle (table : Table) : Monitored := ⟨Session.idle table, 0, false, false⟩

def isCommit : SqlOp → Bool
  | .commit => true
  | _ => false

/-- The server said that the commit is done. -/
def acknowledges : (o : SqlOp) → SqlRes o → Bool
  | .commit, answer => Except.isOk answer
  | _, _ => false

/-- A session in which step `n` fails when the plan says so. -/
def faulty (clock : Clock) (plan : Nat → Option Fault) : Prog.Handler SqlRes Monitored :=
  fun o s =>
    match plan s.step with
    | none =>
        let (answer, session) := Session.perform clock o s.session
        (answer, ⟨session, s.step + 1, s.submitted || isCommit o,
          s.acknowledged || acknowledges o answer⟩)
    | some fault =>
        let session := if fault.carriedOut then (Session.perform clock o s.session).2 else s.session
        (fault.answer clock o, ⟨session, s.step + 1, s.submitted || isCommit o, s.acknowledged⟩)

/-- A call of a storage function. -/
inductive Call where
  | request (intent : RequestIntent)
  | read (requestId : String) (requester : Option String)
  | decide (requestId : String) (decision : ApprovalStatus) (caller actor evidenceRef : String)
      (reason : Option String)
  | cancel (requestId caller actor : String) (reason : Option String)
  | expire (requestId caller : String)
  deriving DecidableEq, Repr

/-- What a storage function returns when it succeeds. -/
inductive Reply where
  | outcome (outcome : RequestOutcome)
  | found (approval : Option StoredApproval)
  | settled (approval : StoredApproval)
  deriving DecidableEq, Repr

abbrev Answer := Except StorageError (Except DomainFailure Reply)

/-- The storage function a call runs. -/
def Call.prog (timestamptz : Int → Int) : Call → Prog SqlRes Answer
  | .request intent =>
      (Postgres.request timestamptz intent).run >>= fun r => .ret (r.map (Except.map .outcome))
  | .read requestId requester =>
      (Postgres.read requestId requester).run >>= fun r => .ret (r.map (fun a => .ok (.found a)))
  | .decide requestId decision caller actor evidenceRef reason =>
      (Postgres.decide requestId decision caller actor evidenceRef reason).run
        >>= fun r => .ret (r.map (Except.map .settled))
  | .cancel requestId caller actor reason =>
      (Postgres.cancel requestId caller actor reason).run
        >>= fun r => .ret (r.map (Except.map .settled))
  | .expire requestId caller =>
      (Postgres.expire requestId caller).run >>= fun r => .ret (r.map (Except.map .settled))

/-- Run a call with the planned failures; a transaction it leaves open is rolled back. -/
def Call.attempt (timestamptz : Int → Int) (clock : Clock) (plan : Nat → Option Fault)
    (call : Call) (table : Table) : Answer × Monitored :=
  Prog.run (faulty clock plan) (call.prog timestamptz) (Monitored.idle table)

/-- Run a call alone and without failures. -/
def Call.alone (timestamptz : Int → Int) (clock : Clock) (call : Call) (table : Table) :
    Answer × Table :=
  let (answer, s) :=
    Prog.run (Session.perform clock) (call.prog timestamptz) (Session.idle table)
  (answer, s.table)

end BusinessApproval.Postgres
