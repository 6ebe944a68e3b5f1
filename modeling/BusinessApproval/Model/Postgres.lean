import BusinessApproval.Lib.Keyed
import BusinessApproval.Model.Service

/-!
# The PostgreSQL store

`storage.rs` as programs over SQL statements. A statement is an operation: the
programs below read line by line against the source, with the operation names of
the error texts, and every way an operation can fail is an answer the program has
to handle. A transaction the program returns from without `commit` is dropped,
and what that does, like what a statement does, is up to the handler.

Two readings give the statements their meaning: the session of
`Model/Session.lean`, with nothing beside it, and the interleaved one of
`Model/Concurrent.lean`.
-/

namespace BusinessApproval.Postgres

/-! ## The table -/

/-- A row of `business_approval_requests`; a `TIMESTAMPTZ` is in microseconds. -/
structure PgRow where
  requestId : String
  requesterInstance : String
  idempotencyKey : String
  requestedBy : String
  approvalKind : String
  subjectKind : String
  subjectId : String
  status : String
  revision : Int
  requestedAt : Int
  expiresAt : Int
  terminalCallerInstance : Option String
  terminalActor : Option String
  evidenceRef : Option String
  reason : Option String
  terminalAt : Option Int
  intentDigest : Option String
  deriving DecidableEq, Repr

namespace PgRow

/-- The columns of `UNIQUE (requester_instance, idempotency_key)`. -/
def pair (row : PgRow) : String × String := (row.requesterInstance, row.idempotencyKey)

def statusCheck (row : PgRow) : Bool :=
  ["pending", "approved", "rejected", "cancelled", "expired"].contains row.status

def evidenceCheck (row : PgRow) : Bool :=
  (row.status == "pending"
      && row.revision == 1
      && row.terminalCallerInstance.isNone
      && row.terminalActor.isNone
      && row.evidenceRef.isNone
      && row.reason.isNone
      && row.terminalAt.isNone)
    || (["approved", "rejected"].contains row.status
      && row.revision == 2
      && row.terminalCallerInstance.isSome
      && row.terminalActor.isSome
      && row.evidenceRef.isSome
      && row.terminalAt.isSome)
    || (row.status == "cancelled"
      && row.revision == 2
      && row.terminalCallerInstance.isSome
      && row.terminalActor.isSome
      && row.evidenceRef.isNone
      && row.terminalAt.isSome)
    || (row.status == "expired"
      && row.revision == 2
      && row.terminalCallerInstance.isSome
      && row.terminalActor.isNone
      && row.evidenceRef.isNone
      && row.reason.isNone
      && row.terminalAt.isSome)

/-- `intent_digest ~ '^[a-f0-9]{64}$'`; a `NULL` passes. -/
def digestCheck (row : PgRow) : Bool :=
  row.intentDigest.all (fun digest =>
    digest.toList.length == 64
      && digest.toList.all (fun c => ('a' ≤ c && c ≤ 'f') || ('0' ≤ c && c ≤ '9')))

/-- The `CHECK` constraints of both migrations. -/
def checks (row : PgRow) : Bool :=
  row.statusCheck
    && row.revision ≥ 1
    && row.expiresAt > row.requestedAt
    && row.evidenceCheck
    && row.digestCheck

/-- What an `UPDATE` writes besides `revision=revision+1` and `terminal_at=transaction_timestamp()`. -/
structure Settlement where
  status : String
  terminalCallerInstance : String
  terminalActor : Option String
  evidenceRef : Option String
  reason : Option String
  deriving DecidableEq, Repr

/-- The row an `UPDATE` leaves, at the transaction's timestamp. -/
def settle (set : Settlement) (now : Int) (row : PgRow) : PgRow :=
  { row with
    status := set.status
    revision := row.revision + 1
    terminalCallerInstance := some set.terminalCallerInstance
    terminalActor := set.terminalActor
    evidenceRef := set.evidenceRef
    reason := set.reason
    terminalAt := some now }

end PgRow

/-- The committed rows. -/
abbrev Table := List PgRow

def lookup (table : Table) (requestId : String) : Option PgRow :=
  Keyed.lookup PgRow.requestId table requestId

/-- Some row has the `PRIMARY KEY` or the `UNIQUE` columns of `row`. -/
def taken (table : Table) (row : PgRow) : Bool :=
  Keyed.taken PgRow.requestId PgRow.pair table row

/-! ## Statements -/

/-- An error of the driver. -/
inductive SqlxError where
  | rowNotFound
  | database (message : String)
  deriving DecidableEq, Repr

inductive StorageError where
  | database (operation : String) (source : SqlxError)
  | invalidStatus (status : String)
  | invalidRevision
  | invalidEvidence
  | inconsistentIdempotency
  deriving DecidableEq, Repr

/--
What the store does to its surroundings: read the clock, send a statement, decode
a row. Statements answer with the rows they return.
-/
inductive SqlOp where
  /-- `OffsetDateTime::now_utc()`. -/
  | nowUtc
  | begin
  /-- `INSERT … ON CONFLICT DO NOTHING RETURNING …` -/
  | insert (row : PgRow)
  /-- `SELECT … WHERE … FOR UPDATE` -/
  | selectForUpdate (condition : PgRow → Bool)
  /-- `SELECT … WHERE …`, on the pool. -/
  | select (condition : PgRow → Bool)
  /-- `SELECT expires_at <= transaction_timestamp() … WHERE request_id=…` -/
  | selectDue (requestId : String)
  /-- `UPDATE … SET … WHERE request_id=… RETURNING …` -/
  | update (requestId : String) (set : PgRow.Settlement)
  | decode (row : PgRow)
  | commit

def SqlRes : SqlOp → Type
  | .nowUtc => Int
  | .begin => Except SqlxError Unit
  | .insert _ => Except SqlxError (List PgRow)
  | .selectForUpdate _ => Except SqlxError (List PgRow)
  | .select _ => Except SqlxError (List PgRow)
  | .selectDue _ => Except SqlxError (List Bool)
  | .update _ _ => Except SqlxError (List PgRow)
  | .decode _ => Except StorageError StoredApproval
  | .commit => Except SqlxError Unit

/-- A storage function: a program that may stop at a `StorageError`. -/
abbrev Storage (α : Type) := ExceptT StorageError (Prog SqlRes) α

/-- A statement, its driver errors mapped with `database(operation, source)`. -/
def database {α : Type} (operation : String) (o : SqlOp)
    (answer : SqlRes o → Except SqlxError α) : Storage α :=
  ExceptT.mk (.call o fun r => .ret ((answer r).mapError (StorageError.database operation)))

/-- `fetch_optional`: the first row, if any. -/
def fetchOptional {α : Type} (rows : Except SqlxError (List α)) : Except SqlxError (Option α) :=
  rows.map List.head?

/-- `fetch_one`: the first row, which must be there. -/
def fetchOne {α : Type} (rows : Except SqlxError (List α)) : Except SqlxError α :=
  match rows with
  | .error source => .error source
  | .ok [] => .error .rowNotFound
  | .ok (row :: _) => .ok row

/-! ## Decoding -/

def approvalStatus (row : PgRow) : Except StorageError ApprovalStatus :=
  (ApprovalStatus.parse row.status).mapError (fun _ => .invalidStatus row.status)

/-- The instant a `TIMESTAMPTZ` decodes to. -/
def ofTimestamptz (micros : Int) : Int := micros * 1000

/-- The record the columns of a row spell, with its parsed status. -/
def StoredApproval.ofRow (row : PgRow) (status : ApprovalStatus) : StoredApproval where
  requestId := row.requestId
  requesterInstance := row.requesterInstance
  idempotencyKey := row.idempotencyKey
  requestedBy := row.requestedBy
  approvalKind := row.approvalKind
  subjectKind := row.subjectKind
  subjectId := row.subjectId
  intentDigest := row.intentDigest
  status := status
  revision := row.revision
  requestedAt := ofTimestamptz row.requestedAt
  expiresAt := ofTimestamptz row.expiresAt
  terminalCallerInstance := row.terminalCallerInstance
  terminalActor := row.terminalActor
  evidenceRef := row.evidenceRef
  reason := row.reason
  terminalAt := row.terminalAt.map ofTimestamptz

/-- `decode_approval`, once the driver has read the columns. -/
def decodeApproval (row : PgRow) : Except StorageError StoredApproval := do
  let status ← approvalStatus row
  if row.revision < 1 then throw .invalidRevision
  let approval := StoredApproval.ofRow row status
  (validateEvidence approval).mapError (fun _ => StorageError.invalidEvidence)
  return approval

/-- Decode a row; the driver may fail on a column, so this is a step of its own. -/
def decode (row : PgRow) : Storage StoredApproval :=
  ExceptT.mk (Prog.perform (SqlOp.decode row))

/-! ## The storage functions -/

section Programs

variable (timestamptz : Int → Int)

/-- The row of the `INSERT`'s `VALUES`. -/
def PgRow.ofIntent (intent : RequestIntent) : PgRow where
  requestId := intent.requestId
  requesterInstance := intent.requesterInstance
  idempotencyKey := intent.idempotencyKey
  requestedBy := intent.requestedBy
  approvalKind := intent.approvalKind
  subjectKind := intent.subjectKind
  subjectId := intent.subjectId
  status := "pending"
  revision := 1
  requestedAt := timestamptz intent.requestedAt
  expiresAt := timestamptz intent.expiresAt
  terminalCallerInstance := none
  terminalActor := none
  evidenceRef := none
  reason := none
  terminalAt := none
  intentDigest := intent.intentDigest

/-- The condition of the `SELECT` that resolves a conflict. -/
def sharesKey (intent : RequestIntent) (row : PgRow) : Bool :=
  (row.requesterInstance == intent.requesterInstance
      && row.idempotencyKey == intent.idempotencyKey)
    || row.requestId == intent.requestId

def begin (operation : String) : Storage Unit := database operation .begin id

def commit (operation : String) : Storage Unit := database operation .commit id

def request (intent : RequestIntent) : Storage (Except DomainFailure RequestOutcome) := do
  begin "begin request"
  let inserted ← database "create approval request"
    (.insert (PgRow.ofIntent timestamptz intent)) fetchOptional
  match inserted with
  | some row =>
      let approval ← decode row
      commit "commit request creation"
      return .ok { created := true, approval }
  | none =>
      let rows ← database "resolve idempotent request" (.selectForUpdate (sharesKey intent)) id
      match rows with
      | [] => throw .inconsistentIdempotency
      | [row] =>
          let approval ← decode row
          if !sameIntent approval intent then
            return .error .idempotencyConflict
          commit "commit idempotent request"
          return .ok { created := false, approval }
      | _ => return .error .idempotencyConflict

def read (requestId : String) (requesterConstraint : Option String) :
    Storage (Option StoredApproval) := do
  let row ← database "read approval request"
    (.select fun row => row.requestId == requestId
      && (requesterConstraint.isNone || requesterConstraint == some row.requesterInstance))
    fetchOptional
  match row with
  | some row => some <$> decode row
  | none => return none

def beginTransition (operation : String) : Storage Unit := begin operation

def lockRequest (requestId : String) : Storage (Option StoredApproval) := do
  let row ← database "lock approval request"
    (.selectForUpdate fun row => row.requestId == requestId) fetchOptional
  match row with
  | some row => some <$> decode row
  | none => return none

def decide (requestId : String) (decision : ApprovalStatus) (caller actor evidenceRef : String)
    (reason : Option String) : Storage (Except DomainFailure StoredApproval) := do
  beginTransition "begin decision"
  let some current ← lockRequest requestId
    | return .error .requestNotFound
  if current.status ≠ .pending then
    return .error .alreadyTerminal
  let row ← database "record decision"
    (.update requestId {
      status := decision.asStr
      terminalCallerInstance := caller
      terminalActor := some actor
      evidenceRef := some evidenceRef
      reason })
    fetchOne
  let approval ← decode row
  commit "commit decision"
  return .ok approval

def cancel (requestId caller actor : String) (reason : Option String) :
    Storage (Except DomainFailure StoredApproval) := do
  beginTransition "begin cancellation"
  let some current ← lockRequest requestId
    | return .error .requestNotFound
  if current.requesterInstance ≠ caller then
    return .error .notRequester
  if current.status ≠ .pending then
    return .error .alreadyTerminal
  let row ← database "cancel approval"
    (.update requestId {
      status := "cancelled"
      terminalCallerInstance := caller
      terminalActor := some actor
      evidenceRef := none
      reason })
    fetchOne
  let approval ← decode row
  commit "commit cancellation"
  return .ok approval

def expire (requestId caller : String) : Storage (Except DomainFailure StoredApproval) := do
  beginTransition "begin expiration"
  let some current ← lockRequest requestId
    | return .error .requestNotFound
  if current.status ≠ .pending then
    return .error .alreadyTerminal
  let due ← database "check expiration deadline" (.selectDue requestId) fetchOne
  if !due then
    return .error .notDue
  let row ← database "expire approval"
    (.update requestId {
      status := "expired"
      terminalCallerInstance := caller
      terminalActor := none
      evidenceRef := none
      reason := none })
    fetchOne
  let approval ← decode row
  commit "commit expiration"
  return .ok approval

end Programs

/-! ## The store of the plugin -/

/-- `map_err(|_| StorageError::Unavailable)`. -/
def unavailable {α : Type} (result : Storage α) : Prog SqlRes (Except BusinessApproval.StorageError α) :=
  result.run >>= fun r => .ret (r.mapError fun _ => .unavailable)

/-- `prepared()?`, then a storage function. -/
def whenPrepared {α : Type} (prepared : Bool) (result : Storage α) :
    Prog SqlRes (Except BusinessApproval.StorageError α) :=
  if prepared then unavailable result else .ret (.error .unavailable)

/--
`ApprovalStore for PostgresStore`. The plugin is `prepared` from its activation to
its deactivation.
-/
def PostgresStore (timestamptz : Int → Int) (prepared : Bool) :
    (o : StoreOp) → Prog SqlRes (StoreRes o)
  | .now => Prog.perform SqlOp.nowUtc >>= fun now => .ret (.ok now)
  | .request intent => whenPrepared prepared (request timestamptz intent)
  | .read id requester => whenPrepared prepared (read id requester)
  | .decide id status caller actor evidence reason =>
      whenPrepared prepared (decide id status caller actor evidence reason)
  | .cancel id caller actor reason => whenPrepared prepared (cancel id caller actor reason)
  | .expire id caller => whenPrepared prepared (expire id caller)

end BusinessApproval.Postgres
