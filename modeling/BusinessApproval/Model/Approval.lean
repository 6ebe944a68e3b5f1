/-!
# The approval records

The data of `model.rs`: what a caller asks for, what is stored about it, and the
two checks every backend makes on a stored record — that its evidence is
consistent, and that it carries the same intent as a request.

An `OffsetDateTime` is an `Int`, the instant it names in nanoseconds since the
Unix epoch. That is what the `time` crate compares, and every value the program
keeps is in UTC: it comes out of `from_unix_timestamp_nanos`, out of a
`TIMESTAMPTZ` column, or out of text ending in `Z`.
-/

namespace BusinessApproval

inductive ApprovalStatus where
  | pending
  | approved
  | rejected
  | cancelled
  | expired
  deriving DecidableEq, Repr, Inhabited

/-- The errors a store reports to the service. -/
inductive StorageError where
  | unavailable
  | invalidStatus (status : String)
  | invalidRevision
  | invalidEvidence
  | inconsistentIdempotency
  deriving DecidableEq, Repr

def StorageError.toString : StorageError → String
  | .unavailable =>
      "Business Approval storage unavailable; a submitted transition may have committed"
  | .invalidStatus _ => "stored status is invalid"
  | .invalidRevision => "stored revision is invalid"
  | .invalidEvidence => "stored terminal evidence is inconsistent"
  | .inconsistentIdempotency => "idempotency result is inconsistent"

/-- The refusals a store reports to the service. -/
inductive DomainFailure where
  | idempotencyConflict
  | requestNotFound
  | alreadyTerminal
  | notRequester
  | notDue
  deriving DecidableEq, Repr

namespace ApprovalStatus

def asStr : ApprovalStatus → String
  | pending => "pending"
  | approved => "approved"
  | rejected => "rejected"
  | cancelled => "cancelled"
  | expired => "expired"

def parse (value : String) : Except StorageError ApprovalStatus :=
  match value with
  | "pending" => .ok pending
  | "approved" => .ok approved
  | "rejected" => .ok rejected
  | "cancelled" => .ok cancelled
  | "expired" => .ok expired
  | _ => .error (.invalidStatus value)

@[simp] theorem parse_asStr (s : ApprovalStatus) : parse s.asStr = .ok s := by
  cases s <;> rfl

theorem asStr_injective {s t : ApprovalStatus} (h : s.asStr = t.asStr) : s = t := by
  have := congrArg parse h
  rw [parse_asStr, parse_asStr] at this
  exact Except.ok.inj this

end ApprovalStatus

/-- What the service asks a store to create. -/
structure RequestIntent where
  requestId : String
  requesterInstance : String
  idempotencyKey : String
  requestedBy : String
  approvalKind : String
  subjectKind : String
  subjectId : String
  intentDigest : Option String
  requestedAt : Int
  expiresAt : Int
  deriving DecidableEq, Repr

structure StoredApproval where
  requestId : String
  requesterInstance : String
  idempotencyKey : String
  requestedBy : String
  approvalKind : String
  subjectKind : String
  subjectId : String
  intentDigest : Option String
  status : ApprovalStatus
  revision : Int
  requestedAt : Int
  expiresAt : Int
  terminalCallerInstance : Option String
  terminalActor : Option String
  evidenceRef : Option String
  reason : Option String
  terminalAt : Option Int
  deriving DecidableEq, Repr, Inhabited

structure RequestOutcome where
  created : Bool
  approval : StoredApproval
  deriving DecidableEq, Repr

/-- Which evidence each status must and must not carry. -/
def evidenceConsistent (approval : StoredApproval) : Bool :=
  match approval.status with
  | .pending =>
      approval.revision == 1
        && approval.terminalCallerInstance.isNone
        && approval.terminalActor.isNone
        && approval.evidenceRef.isNone
        && approval.reason.isNone
        && approval.terminalAt.isNone
  | .approved | .rejected =>
      approval.revision == 2
        && approval.terminalCallerInstance.isSome
        && approval.terminalActor.isSome
        && approval.evidenceRef.isSome
        && approval.terminalAt.isSome
  | .cancelled =>
      approval.revision == 2
        && approval.terminalCallerInstance.isSome
        && approval.terminalActor.isSome
        && approval.evidenceRef.isNone
        && approval.terminalAt.isSome
  | .expired =>
      approval.revision == 2
        && approval.terminalCallerInstance.isSome
        && approval.terminalActor.isNone
        && approval.evidenceRef.isNone
        && approval.reason.isNone
        && approval.terminalAt.isSome

def validateEvidence (approval : StoredApproval) : Except StorageError Unit :=
  if evidenceConsistent approval then .ok () else .error .invalidEvidence

/-- Everything but `requested_at` is compared. -/
def sameIntent (approval : StoredApproval) (intent : RequestIntent) : Bool :=
  approval.requestId == intent.requestId
    && approval.requesterInstance == intent.requesterInstance
    && approval.idempotencyKey == intent.idempotencyKey
    && approval.requestedBy == intent.requestedBy
    && approval.approvalKind == intent.approvalKind
    && approval.subjectKind == intent.subjectKind
    && approval.subjectId == intent.subjectId
    && approval.intentDigest == intent.intentDigest
    && approval.expiresAt == intent.expiresAt

/-- A record carries the same intent when it agrees on the nine compared fields. -/
theorem sameIntent_iff {a : StoredApproval} {i : RequestIntent} :
    sameIntent a i = true ↔
      a.requestId = i.requestId ∧ a.requesterInstance = i.requesterInstance
        ∧ a.idempotencyKey = i.idempotencyKey ∧ a.requestedBy = i.requestedBy
        ∧ a.approvalKind = i.approvalKind ∧ a.subjectKind = i.subjectKind
        ∧ a.subjectId = i.subjectId ∧ a.intentDigest = i.intentDigest
        ∧ a.expiresAt = i.expiresAt := by
  simp only [sameIntent, Bool.and_eq_true, beq_iff_eq, and_assoc]

/-- Consistent evidence fixes the revision from the status. -/
theorem revision_of_consistent {a : StoredApproval} (h : evidenceConsistent a = true) :
    a.revision = if a.status = .pending then 1 else 2 := by
  unfold evidenceConsistent at h
  cases hs : a.status <;> rw [hs] at h <;>
    simp only [Bool.and_eq_true, beq_iff_eq] at h <;> simp [h.1]

end BusinessApproval
