import BusinessApproval.Model.Postgres

/-!
# The two migrations

Migration 1, `create-business-approval`, creates the table without a digest. Migration 2,
`bind-immutable-intent`, adds the column and its constraint to whatever rows there are by
then. The constraints of migration 1 say nothing of the digest, so they are those of a
`PgRow` but for one.
-/

namespace BusinessApproval.Postgres

/-- A row of `business_approval_requests` as migration 1 has it. -/
structure FirstRow where
  requestId : String
  requesterInstance : String
  idempotencyKey : String
  requestedBy : String
  approvalKind : String
  subjectKind : String
  subjectId : String
  status : String
  revision : Int
  requestedAt : Int
  expiresAt : Int
  terminalCallerInstance : Option String
  terminalActor : Option String
  evidenceRef : Option String
  reason : Option String
  terminalAt : Option Int
  deriving DecidableEq, Repr

namespace FirstRow

/-- `ADD COLUMN intent_digest TEXT`: the new column of a row is `NULL`. -/
def addIntentDigest (row : FirstRow) : PgRow where
  requestId := row.requestId
  requesterInstance := row.requesterInstance
  idempotencyKey := row.idempotencyKey
  requestedBy := row.requestedBy
  approvalKind := row.approvalKind
  subjectKind := row.subjectKind
  subjectId := row.subjectId
  status := row.status
  revision := row.revision
  requestedAt := row.requestedAt
  expiresAt := row.expiresAt
  terminalCallerInstance := row.terminalCallerInstance
  terminalActor := row.terminalActor
  evidenceRef := row.evidenceRef
  reason := row.reason
  terminalAt := row.terminalAt
  intentDigest := none

/-- The columns of `UNIQUE (requester_instance, idempotency_key)`. -/
def pair (row : FirstRow) : String × String := (row.requesterInstance, row.idempotencyKey)

/-- The `CHECK` constraints of migration 1. -/
def checks (row : FirstRow) : Bool :=
  row.addIntentDigest.statusCheck
    && row.revision ≥ 1
    && row.expiresAt > row.requestedAt
    && row.addIntentDigest.evidenceCheck

end FirstRow

/-- The rows as migration 2 leaves them. -/
def upgraded (rows : List FirstRow) : Table := rows.map FirstRow.addIntentDigest

/-- Migration 2: the rows there are have to satisfy the new constraint. -/
def bindImmutableIntent (rows : List FirstRow) : Except SqlxError Table :=
  if (upgraded rows).all PgRow.digestCheck then .ok (upgraded rows)
  else .error (.database "check constraint is violated by some row")

end BusinessApproval.Postgres
