import BusinessApproval.Lib.Serde
import BusinessApproval.Model.Contract
import Std.Data.ExtTreeMap

/-!
# The contract on the wire

The serde form of the contract types in `generated.rs`, over the tree of a JSON text. The
generator declares the fields of a struct in alphabetical order, which is the order they are
written in. A field is required, and `null` is a value, except for `intent_digest`, which is
left out when it is absent. A domain error is the string of its variant; whatever else a
peer sends in its place is kept as `Unknown`.

How a required field is read is up to the contract runtime, which is another package.
-/

namespace BusinessApproval

/-- What the generated contract takes from the contract runtime. -/
structure ContractRuntime where
  /-- `serde::deserialize_required`, given how the type of the field is read. -/
  deserializeRequired : {α : Type} → (Json → Option α) → Json → Option α

namespace ContractRuntime

/-- A required field is read as its type is. -/
def Lawful (runtime : ContractRuntime) : Prop :=
  ∀ {α : Type} (read : Json → Option α) (v : Json), runtime.deserializeRequired read v = read v

/-- A field under `deserialize_with`, which has no value when it is absent. -/
def required {α : Type} (runtime : ContractRuntime) (name : String) (read : Json → Option α) :
    Serde.Field α := ⟨name, runtime.deserializeRequired read, none⟩

end ContractRuntime

/-! ## Requests -/

section Requests

variable (runtime : ContractRuntime)

def CancelRequest.serialize (r : CancelRequest) : Json :=
  .obj [
    ("cancelled_by", .str r.cancelledBy),
    ("reason", .ofOption r.reason),
    ("request_id", .str r.requestId)]

def CancelRequest.deserialize (v : Json) : Option CancelRequest := do
  guard (Serde.isStruct ["cancelled_by", "reason", "request_id"] v)
  return {
    cancelledBy := ← Serde.field v 0 (runtime.required "cancelled_by" Json.asStr)
    reason := ← Serde.field v 1 (runtime.required "reason" (Serde.option Json.asStr))
    requestId := ← Serde.field v 2 (runtime.required "request_id" Json.asStr) }

namespace DecideRequestDecision

def variants : List (String × DecideRequestDecision) :=
  [("approved", approved), ("rejected", rejected)]

def serialize : DecideRequestDecision → Json
  | approved => .str "approved"
  | rejected => .str "rejected"

end DecideRequestDecision

def DecideRequest.serialize (r : DecideRequest) : Json :=
  .obj [
    ("decided_by", .str r.decidedBy),
    ("decision", r.decision.serialize),
    ("evidence_ref", .str r.evidenceRef),
    ("reason", .ofOption r.reason),
    ("request_id", .str r.requestId)]

def DecideRequest.deserialize (v : Json) : Option DecideRequest := do
  guard (Serde.isStruct ["decided_by", "decision", "evidence_ref", "reason", "request_id"] v)
  return {
    decidedBy := ← Serde.field v 0 (runtime.required "decided_by" Json.asStr)
    decision := ← Serde.field v 1
      (runtime.required "decision" (Serde.unitVariant DecideRequestDecision.variants))
    evidenceRef := ← Serde.field v 2 (runtime.required "evidence_ref" Json.asStr)
    reason := ← Serde.field v 3 (runtime.required "reason" (Serde.option Json.asStr))
    requestId := ← Serde.field v 4 (runtime.required "request_id" Json.asStr) }

def ExpireRequest.serialize (r : ExpireRequest) : Json :=
  .obj [("request_id", .str r.requestId)]

def ExpireRequest.deserialize (v : Json) : Option ExpireRequest := do
  guard (Serde.isStruct ["request_id"] v)
  return { requestId := ← Serde.field v 0 (runtime.required "request_id" Json.asStr) }

def ReadRequest.serialize (r : ReadRequest) : Json :=
  .obj [("request_id", .str r.requestId)]

def ReadRequest.deserialize (v : Json) : Option ReadRequest := do
  guard (Serde.isStruct ["request_id"] v)
  return { requestId := ← Serde.field v 0 (runtime.required "request_id" Json.asStr) }

def RequestRequestSubject.serialize (s : RequestRequestSubject) : Json :=
  .obj [("id", .str s.id), ("kind", .str s.kind)]

def RequestRequestSubject.deserialize (v : Json) : Option RequestRequestSubject := do
  guard (Serde.isStruct ["id", "kind"] v)
  return {
    id := ← Serde.field v 0 (runtime.required "id" Json.asStr)
    kind := ← Serde.field v 1 (runtime.required "kind" Json.asStr) }

def RequestRequest.serialize (r : RequestRequest) : Json :=
  .obj ([
    ("approval_kind", .str r.approvalKind),
    ("expires_at", .str r.expiresAt),
    ("idempotency_key", .str r.idempotencyKey)]
    ++ Serde.skipNone "intent_digest" r.intentDigest
    ++ [
    ("request_id", .str r.requestId),
    ("requested_by", .str r.requestedBy),
    ("subject", r.subject.serialize)])

def RequestRequest.deserialize (v : Json) : Option RequestRequest := do
  guard (Serde.isStruct ["approval_kind", "expires_at", "idempotency_key", "intent_digest",
    "request_id", "requested_by", "subject"] v)
  return {
    approvalKind := ← Serde.field v 0 (runtime.required "approval_kind" Json.asStr)
    expiresAt := ← Serde.field v 1 (runtime.required "expires_at" Json.asStr)
    idempotencyKey := ← Serde.field v 2 (runtime.required "idempotency_key" Json.asStr)
    intentDigest := ← Serde.field v 3 (Serde.optional "intent_digest" Json.asStr)
    requestId := ← Serde.field v 4 (runtime.required "request_id" Json.asStr)
    requestedBy := ← Serde.field v 5 (runtime.required "requested_by" Json.asStr)
    subject := ← Serde.field v 6
      (runtime.required "subject" (RequestRequestSubject.deserialize runtime)) }

end Requests

/-! ## Responses -/

section Responses

variable (runtime : ContractRuntime)

namespace TransitionResponseStatus

def variants : List (String × TransitionResponseStatus) :=
  [("approved", approved), ("rejected", rejected), ("cancelled", cancelled), ("expired", expired)]

def serialize : TransitionResponseStatus → Json
  | approved => .str "approved"
  | rejected => .str "rejected"
  | cancelled => .str "cancelled"
  | expired => .str "expired"

end TransitionResponseStatus

namespace ResponseStatus

def variants : List (String × ResponseStatus) :=
  [("pending", pending), ("approved", approved), ("rejected", rejected), ("cancelled", cancelled),
    ("expired", expired)]

def serialize : ResponseStatus → Json
  | pending => .str "pending"
  | approved => .str "approved"
  | rejected => .str "rejected"
  | cancelled => .str "cancelled"
  | expired => .str "expired"

end ResponseStatus

def TransitionResponse.serialize (r : TransitionResponse) : Json :=
  .obj [
    ("evidence_ref", .ofOption r.evidenceRef),
    ("reason", .ofOption r.reason),
    ("request_id", .str r.requestId),
    ("revision", .str r.revision),
    ("status", r.status.serialize),
    ("terminal_actor", .ofOption r.terminalActor),
    ("terminal_at", .str r.terminalAt),
    ("terminal_caller_instance", .str r.terminalCallerInstance)]

def TransitionResponse.deserialize (v : Json) : Option TransitionResponse := do
  guard (Serde.isStruct ["evidence_ref", "reason", "request_id", "revision", "status",
    "terminal_actor", "terminal_at", "terminal_caller_instance"] v)
  return {
    evidenceRef := ← Serde.field v 0 (runtime.required "evidence_ref" (Serde.option Json.asStr))
    reason := ← Serde.field v 1 (runtime.required "reason" (Serde.option Json.asStr))
    requestId := ← Serde.field v 2 (runtime.required "request_id" Json.asStr)
    revision := ← Serde.field v 3 (runtime.required "revision" Json.asStr)
    status := ← Serde.field v 4
      (runtime.required "status" (Serde.unitVariant TransitionResponseStatus.variants))
    terminalActor := ← Serde.field v 5
      (runtime.required "terminal_actor" (Serde.option Json.asStr))
    terminalAt := ← Serde.field v 6 (runtime.required "terminal_at" Json.asStr)
    terminalCallerInstance := ← Serde.field v 7
      (runtime.required "terminal_caller_instance" Json.asStr) }

def ReadResponseSubject.serialize (s : ReadResponseSubject) : Json :=
  .obj [("id", .str s.id), ("kind", .str s.kind)]

def ReadResponseSubject.deserialize (v : Json) : Option ReadResponseSubject := do
  guard (Serde.isStruct ["id", "kind"] v)
  return {
    id := ← Serde.field v 0 (runtime.required "id" Json.asStr)
    kind := ← Serde.field v 1 (runtime.required "kind" Json.asStr) }

def ReadResponse.serialize (r : ReadResponse) : Json :=
  .obj ([
    ("approval_kind", .str r.approvalKind),
    ("evidence_ref", .ofOption r.evidenceRef),
    ("expires_at", .str r.expiresAt),
    ("idempotency_key", .str r.idempotencyKey)]
    ++ Serde.skipNone "intent_digest" r.intentDigest
    ++ [
    ("reason", .ofOption r.reason),
    ("request_id", .str r.requestId),
    ("requested_at", .str r.requestedAt),
    ("requested_by", .str r.requestedBy),
    ("requester_instance", .str r.requesterInstance),
    ("revision", .str r.revision),
    ("status", r.status.serialize),
    ("subject", r.subject.serialize),
    ("terminal_actor", .ofOption r.terminalActor),
    ("terminal_at", .ofOption r.terminalAt),
    ("terminal_caller_instance", .ofOption r.terminalCallerInstance)])

def ReadResponse.deserialize (v : Json) : Option ReadResponse := do
  guard (Serde.isStruct ["approval_kind", "evidence_ref", "expires_at", "idempotency_key",
    "intent_digest", "reason", "request_id", "requested_at", "requested_by", "requester_instance",
    "revision", "status", "subject", "terminal_actor", "terminal_at",
    "terminal_caller_instance"] v)
  return {
    approvalKind := ← Serde.field v 0 (runtime.required "approval_kind" Json.asStr)
    evidenceRef := ← Serde.field v 1 (runtime.required "evidence_ref" (Serde.option Json.asStr))
    expiresAt := ← Serde.field v 2 (runtime.required "expires_at" Json.asStr)
    idempotencyKey := ← Serde.field v 3 (runtime.required "idempotency_key" Json.asStr)
    intentDigest := ← Serde.field v 4 (Serde.optional "intent_digest" Json.asStr)
    reason := ← Serde.field v 5 (runtime.required "reason" (Serde.option Json.asStr))
    requestId := ← Serde.field v 6 (runtime.required "request_id" Json.asStr)
    requestedAt := ← Serde.field v 7 (runtime.required "requested_at" Json.asStr)
    requestedBy := ← Serde.field v 8 (runtime.required "requested_by" Json.asStr)
    requesterInstance := ← Serde.field v 9 (runtime.required "requester_instance" Json.asStr)
    revision := ← Serde.field v 10 (runtime.required "revision" Json.asStr)
    status := ← Serde.field v 11
      (runtime.required "status" (Serde.unitVariant ResponseStatus.variants))
    subject := ← Serde.field v 12
      (runtime.required "subject" (ReadResponseSubject.deserialize runtime))
    terminalActor := ← Serde.field v 13
      (runtime.required "terminal_actor" (Serde.option Json.asStr))
    terminalAt := ← Serde.field v 14 (runtime.required "terminal_at" (Serde.option Json.asStr))
    terminalCallerInstance := ← Serde.field v 15
      (runtime.required "terminal_caller_instance" (Serde.option Json.asStr)) }

def RequestResponse.serialize (r : RequestResponse) : Json :=
  .obj [
    ("created", .bool r.created),
    ("request_id", .str r.requestId),
    ("revision", .str r.revision),
    ("status", r.status.serialize)]

def RequestResponse.deserialize (v : Json) : Option RequestResponse := do
  guard (Serde.isStruct ["created", "request_id", "revision", "status"] v)
  return {
    created := ← Serde.field v 0 (runtime.required "created" Json.asBool)
    requestId := ← Serde.field v 1 (runtime.required "request_id" Json.asStr)
    revision := ← Serde.field v 2 (runtime.required "revision" Json.asStr)
    status := ← Serde.field v 3
      (runtime.required "status" (Serde.unitVariant ResponseStatus.variants)) }

end Responses

/-! ## Domain errors -/

/-- An error that is not declared here, as a peer of another version may send. -/
structure UnknownDomainError where
  code : String
  payload : Option Json
  extra : Std.ExtTreeMap String Json compare

/-- A generated error type: its variants, and `Unknown`. -/
inductive DomainError (E : Type) where
  | declared (error : E)
  | unknown (error : UnknownDomainError)

/-- The strings of the variants of an error type. -/
class ErrorCodes (E : Type) where
  codes : List (String × E)
  code : E → String

/-- The entries the error is written with, one after another. -/
def UnknownDomainError.entries (error : UnknownDomainError) : List (String × Json) :=
  ("code", .str error.code) :: (error.payload.toList.map fun payload => ("payload", payload))
    ++ error.extra.toList

namespace DomainError

variable {E : Type} [ErrorCodes E]

/-- `impl serde::Serialize` -/
def serialize : DomainError E → Json
  | declared error => .str (ErrorCodes.code error)
  | unknown error => .obj error.entries

/-- `impl serde::Deserialize`: of members with one name the last one counts. -/
def deserialize : Json → Option (DomainError E)
  | .str code =>
      match (ErrorCodes.codes (E := E)).lookup code with
      | some error => some (declared error)
      | none => some (unknown ⟨code, none, ∅⟩)
  | .obj fields =>
      let object := Std.ExtTreeMap.ofList fields compare
      match object["code"]?.bind Json.asStr with
      | none => none
      | some code =>
          let object := object.erase "code"
          let payload := object["payload"]?
          some (unknown ⟨code, payload, object.erase "payload"⟩)
  | _ => none

end DomainError

instance : ErrorCodes CancelError where
  codes := [("already_terminal", .alreadyTerminal), ("forbidden", .forbidden),
    ("invalid_request", .invalidRequest), ("not_requester", .notRequester),
    ("request_not_found", .requestNotFound)]
  code
    | .alreadyTerminal => "already_terminal"
    | .forbidden => "forbidden"
    | .invalidRequest => "invalid_request"
    | .notRequester => "not_requester"
    | .requestNotFound => "request_not_found"

instance : ErrorCodes DecideError where
  codes := [("already_terminal", .alreadyTerminal), ("forbidden", .forbidden),
    ("invalid_request", .invalidRequest), ("request_not_found", .requestNotFound)]
  code
    | .alreadyTerminal => "already_terminal"
    | .forbidden => "forbidden"
    | .invalidRequest => "invalid_request"
    | .requestNotFound => "request_not_found"

instance : ErrorCodes ExpireError where
  codes := [("already_terminal", .alreadyTerminal), ("forbidden", .forbidden),
    ("invalid_request", .invalidRequest), ("not_due", .notDue),
    ("request_not_found", .requestNotFound)]
  code
    | .alreadyTerminal => "already_terminal"
    | .forbidden => "forbidden"
    | .invalidRequest => "invalid_request"
    | .notDue => "not_due"
    | .requestNotFound => "request_not_found"

instance : ErrorCodes ReadError where
  codes := [("forbidden", .forbidden), ("invalid_request", .invalidRequest),
    ("request_not_found", .requestNotFound)]
  code
    | .forbidden => "forbidden"
    | .invalidRequest => "invalid_request"
    | .requestNotFound => "request_not_found"

instance : ErrorCodes RequestError where
  codes := [("forbidden", .forbidden), ("idempotency_conflict", .idempotencyConflict),
    ("invalid_request", .invalidRequest)]
  code
    | .forbidden => "forbidden"
    | .idempotencyConflict => "idempotency_conflict"
    | .invalidRequest => "invalid_request"

end BusinessApproval
