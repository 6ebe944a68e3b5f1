import BusinessApproval.Model.D1

/-!
# The serde form of the records

What `#[derive(Serialize, Deserialize)]` makes of `model.rs`: a struct is an object with
a member for each field under its name, a status is the name of its variant under
`rename_all = "snake_case"`, an absent option is `null`, and an instant is RFC 3339 text.
Which integers there are depends on the format: `serde_json` carries every `i64`,
`serde_wasm_bindgen`, in its JSON-compatible form, the safe integers of JavaScript.
-/

namespace BusinessApproval

/-! ## Statuses -/

/-- `rename_all = "snake_case"`, on the name of a variant. -/
def snakeCase (variant : String) : String :=
  String.ofList (variant.toList.zipIdx.flatMap fun (c, i) =>
    if 0 < i ∧ c.isUpper then ['_', c.toLower] else [c.toLower])

namespace ApprovalStatus

/-- The name of the variant. -/
def variant : ApprovalStatus → String
  | pending => "Pending"
  | approved => "Approved"
  | rejected => "Rejected"
  | cancelled => "Cancelled"
  | expired => "Expired"

def serdeName (status : ApprovalStatus) : String := snakeCase status.variant

/-- The variants, in their order. -/
def variants : List ApprovalStatus := [pending, approved, rejected, cancelled, expired]

/-- The variant a name is read as. -/
def ofSerdeName (name : String) : Option ApprovalStatus :=
  variants.find? (fun status => status.serdeName == name)

end ApprovalStatus

/-! ## Integers -/

/-- The integers a format carries. -/
structure Integers where
  least : Int
  greatest : Int
  deriving DecidableEq, Repr

namespace Integers

def serdeWasm : Integers := ⟨-D1.maxSafeInteger, D1.maxSafeInteger⟩

/-- Serialising an `i64`. -/
def serialize (integers : Integers) (n : Int) : Option Json :=
  if integers.least ≤ n ∧ n ≤ integers.greatest then some (.num n) else none

/-- Deserialising an `i64`. -/
def deserialize (integers : Integers) (value : Option Json) : Option Int :=
  (value.bind Json.asNum).filter (fun n => integers.least ≤ n && n ≤ integers.greatest)

end Integers

/-! ## Records -/

section Records

variable (time : TimeCrate) (integers : Integers)

/-- `time::serde::rfc3339::option` -/
def serializeInstant : Option Int → Option Json
  | some t => (time.format t).map .str
  | none => some .null

/-- Serialising a `StoredApproval`. -/
def StoredApproval.serialize (a : StoredApproval) : Option Json := do
  return .obj [
    ("request_id", .str a.requestId),
    ("requester_instance", .str a.requesterInstance),
    ("idempotency_key", .str a.idempotencyKey),
    ("requested_by", .str a.requestedBy),
    ("approval_kind", .str a.approvalKind),
    ("subject_kind", .str a.subjectKind),
    ("subject_id", .str a.subjectId),
    ("intent_digest", .ofOption a.intentDigest),
    ("status", .str a.status.serdeName),
    ("revision", ← integers.serialize a.revision),
    ("requested_at", .str (← time.format a.requestedAt)),
    ("expires_at", .str (← time.format a.expiresAt)),
    ("terminal_caller_instance", .ofOption a.terminalCallerInstance),
    ("terminal_actor", .ofOption a.terminalActor),
    ("evidence_ref", .ofOption a.evidenceRef),
    ("reason", .ofOption a.reason),
    ("terminal_at", ← serializeInstant time a.terminalAt)]

/-- Deserialising a `StoredApproval`. -/
def StoredApproval.deserialize (value : Json) : Option StoredApproval := do
  return {
    requestId := ← D1.requiredStr value "request_id"
    requesterInstance := ← D1.requiredStr value "requester_instance"
    idempotencyKey := ← D1.requiredStr value "idempotency_key"
    requestedBy := ← D1.requiredStr value "requested_by"
    approvalKind := ← D1.requiredStr value "approval_kind"
    subjectKind := ← D1.requiredStr value "subject_kind"
    subjectId := ← D1.requiredStr value "subject_id"
    intentDigest := ← D1.optionalStr value "intent_digest"
    status := ← (D1.requiredStr value "status").bind ApprovalStatus.ofSerdeName
    revision := ← integers.deserialize (value.get "revision")
    requestedAt := ← D1.requiredInstant time value "requested_at"
    expiresAt := ← D1.requiredInstant time value "expires_at"
    terminalCallerInstance := ← D1.optionalStr value "terminal_caller_instance"
    terminalActor := ← D1.optionalStr value "terminal_actor"
    evidenceRef := ← D1.optionalStr value "evidence_ref"
    reason := ← D1.optionalStr value "reason"
    terminalAt := ← D1.optionalInstant time value "terminal_at" }

end Records

example : ApprovalStatus.variants.map ApprovalStatus.serdeName
    = ["pending", "approved", "rejected", "cancelled", "expired"] := by decide +kernel

end BusinessApproval
