import BusinessApproval.Lib.JsonSchema
import BusinessApproval.Model.Schema

/-!
# The published schemas

The schemas of the requests, responses and domain errors that `capability.json` names, as
they are in `schemas/`, and those of the configurations of the two plugins. `format` is an
annotation of its own: which strings are a `date-time` is a parameter.
-/

namespace BusinessApproval

open JsonSchema

namespace Published

/-! ## Requests -/

/-- `subject` in `request-request.schema.json` -/
def requestSubject : JsonSchema := object ["kind", "id"] [
  ("kind", string [minLength 1, maxLength 128, pattern kindPattern]),
  ("id", string [minLength 1, maxLength 512, pattern referencePattern])]

/-- `request-request.schema.json` -/
def requestRequest (dateTime : Keyword) : JsonSchema :=
  object ["request_id", "idempotency_key", "requested_by", "approval_kind", "subject",
      "expires_at"] [
    ("request_id", string [minLength 1, maxLength 128, pattern identifierPattern]),
    ("idempotency_key", string [minLength 1, maxLength 256, pattern identifierPattern]),
    ("requested_by", string [minLength 1, maxLength 512, pattern referencePattern]),
    ("approval_kind", string [minLength 1, maxLength 128, pattern kindPattern]),
    ("subject", requestSubject),
    ("expires_at", string [dateTime]),
    ("intent_digest", string [pattern digestPattern, minLength 64, maxLength 64])]

/-- `decide-request.schema.json` -/
def decideRequest : JsonSchema :=
  object ["request_id", "decision", "decided_by", "evidence_ref", "reason"] [
    ("request_id", string [minLength 1, maxLength 128, pattern identifierPattern]),
    ("decision", string [enum ["approved", "rejected"]]),
    ("decided_by", string [minLength 1, maxLength 512, pattern referencePattern]),
    ("evidence_ref", string [minLength 1, maxLength 512, pattern referencePattern]),
    ("reason", nullable [maxLength 1000])]

/-- `cancel-request.schema.json` -/
def cancelRequest : JsonSchema := object ["request_id", "cancelled_by", "reason"] [
  ("request_id", string [minLength 1, maxLength 128, pattern identifierPattern]),
  ("cancelled_by", string [minLength 1, maxLength 512, pattern referencePattern]),
  ("reason", nullable [maxLength 1000])]

/-- `read-request.schema.json` -/
def readRequest : JsonSchema := object ["request_id"] [
  ("request_id", string [minLength 1, maxLength 128, pattern identifierPattern])]

/-- `expire-request.schema.json` -/
def expireRequest : JsonSchema := object ["request_id"] [
  ("request_id", string [minLength 1, maxLength 128, pattern identifierPattern])]

/-! ## Responses -/

/-- `^[1-9][0-9]*$` -/
def revisionPattern : Regex :=
  .seq (.one [.range '1' '9']) (.star (.one [.range '0' '9']))

example : revisionPattern.anchored = "^[1-9][0-9]*$" := by decide +kernel

/-- `request-response.schema.json` -/
def requestResponse : JsonSchema := object ["created", "request_id", "status", "revision"] [
  ("created", boolean),
  ("request_id", string []),
  ("status", string [enum ["pending", "approved", "rejected", "cancelled", "expired"]]),
  ("revision", string [pattern revisionPattern])]

/-- `transition-response.schema.json` -/
def transitionResponse (dateTime : Keyword) : JsonSchema :=
  object ["request_id", "status", "revision", "terminal_caller_instance", "terminal_actor",
      "evidence_ref", "reason", "terminal_at"] [
    ("request_id", string []),
    ("status", string [enum ["approved", "rejected", "cancelled", "expired"]]),
    ("revision", string [pattern revisionPattern]),
    ("terminal_caller_instance", string []),
    ("terminal_actor", nullable []),
    ("evidence_ref", nullable []),
    ("reason", nullable []),
    ("terminal_at", string [dateTime])]

/-- `subject` in `read-response.schema.json` -/
def readSubject : JsonSchema := object ["kind", "id"] [
  ("kind", string []),
  ("id", string [])]

/-- `read-response.schema.json` -/
def readResponse (dateTime : Keyword) : JsonSchema :=
  object ["request_id", "idempotency_key", "approval_kind", "subject", "requester_instance",
      "requested_by", "status", "revision", "requested_at", "expires_at",
      "terminal_caller_instance", "terminal_actor", "evidence_ref", "reason", "terminal_at"] [
    ("request_id", string []),
    ("idempotency_key", string []),
    ("approval_kind", string []),
    ("subject", readSubject),
    ("requester_instance", string []),
    ("requested_by", string []),
    ("status", string [enum ["pending", "approved", "rejected", "cancelled", "expired"]]),
    ("revision", string [pattern revisionPattern]),
    ("requested_at", string [dateTime]),
    ("expires_at", string [dateTime]),
    ("terminal_caller_instance", nullable []),
    ("terminal_actor", nullable []),
    ("evidence_ref", nullable []),
    ("reason", nullable []),
    ("terminal_at", nullable [dateTime]),
    ("intent_digest", string [pattern digestPattern, minLength 64, maxLength 64])]

/-! ## Domain errors -/

/-- `request-error.schema.json` -/
def requestError : JsonSchema :=
  oneOf [const "forbidden", const "invalid_request", const "idempotency_conflict"]

/-- `decide-error.schema.json` -/
def decideError : JsonSchema :=
  oneOf [const "forbidden", const "invalid_request", const "request_not_found",
    const "already_terminal"]

/-- `cancel-error.schema.json` -/
def cancelError : JsonSchema :=
  oneOf [const "forbidden", const "invalid_request", const "request_not_found",
    const "not_requester", const "already_terminal"]

/-- `read-error.schema.json` -/
def readError : JsonSchema :=
  oneOf [const "forbidden", const "invalid_request", const "request_not_found"]

/-- `expire-error.schema.json` -/
def expireError : JsonSchema :=
  oneOf [const "forbidden", const "invalid_request", const "request_not_found",
    const "already_terminal", const "not_due"]

/-! ## Configurations -/

/-- The lists of callers, which are alike in both schemas. -/
def callers : JsonSchema := uniqueItems 1 64 (string [minLength 1, maxLength 256])

/-- `configuration.schema.json` of the D1 plugin -/
def d1Configuration : JsonSchema :=
  object ["requester_instances", "decider_instances", "expiration_executor_instances"] [
    ("requester_instances", callers),
    ("decider_instances", callers),
    ("expiration_executor_instances", callers)]

/-- `config.schema.json` of the PostgreSQL plugin -/
def postgresConfiguration : JsonSchema :=
  object ["schema", "database_url_secret", "requester_instances", "decider_instances",
      "expiration_executor_instances"] [
    ("schema", string [minLength 1, maxLength 63]),
    ("database_url_secret", string [minLength 1, maxLength 256]),
    ("requester_instances", callers),
    ("decider_instances", callers),
    ("expiration_executor_instances", callers)]

end Published

end BusinessApproval
