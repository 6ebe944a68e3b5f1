import BusinessApproval.Lib.Serde
import BusinessApproval.Model.Config

/-!
# The configurations as JSON

The derived serde form of the configurations of the two plugins, under
`deny_unknown_fields`, over the tree of a JSON text.
-/

namespace BusinessApproval

def serializeCallers (callers : List String) : Json := .arr (callers.map .str)

namespace ApprovalPolicy

def serialize (config : ApprovalPolicy) : Json :=
  .obj [
    ("requester_instances", serializeCallers config.requesterInstances),
    ("decider_instances", serializeCallers config.deciderInstances),
    ("expiration_executor_instances", serializeCallers config.expirationExecutorInstances)]

def deserialize (v : Json) : Option ApprovalPolicy := do
  guard (Serde.isStrictStruct
    ["requester_instances", "decider_instances", "expiration_executor_instances"] v)
  return {
    requesterInstances := ← Serde.field v 0
      (Serde.present "requester_instances" (Serde.vec Json.asStr))
    deciderInstances := ← Serde.field v 1
      (Serde.present "decider_instances" (Serde.vec Json.asStr))
    expirationExecutorInstances := ← Serde.field v 2
      (Serde.present "expiration_executor_instances" (Serde.vec Json.asStr)) }

end ApprovalPolicy

namespace Postgres.BusinessApprovalConfig

def serialize (config : BusinessApprovalConfig) : Json :=
  .obj [
    ("schema", .str config.schema),
    ("database_url_secret", .str config.databaseUrlSecret),
    ("requester_instances", serializeCallers config.requesterInstances),
    ("decider_instances", serializeCallers config.deciderInstances),
    ("expiration_executor_instances", serializeCallers config.expirationExecutorInstances)]

def deserialize (v : Json) : Option BusinessApprovalConfig := do
  guard (Serde.isStrictStruct
    ["schema", "database_url_secret", "requester_instances", "decider_instances",
      "expiration_executor_instances"] v)
  return {
    schema := ← Serde.field v 0 (Serde.present "schema" Json.asStr)
    databaseUrlSecret := ← Serde.field v 1 (Serde.present "database_url_secret" Json.asStr)
    requesterInstances := ← Serde.field v 2
      (Serde.present "requester_instances" (Serde.vec Json.asStr))
    deciderInstances := ← Serde.field v 3
      (Serde.present "decider_instances" (Serde.vec Json.asStr))
    expirationExecutorInstances := ← Serde.field v 4
      (Serde.present "expiration_executor_instances" (Serde.vec Json.asStr)) }

end Postgres.BusinessApprovalConfig

end BusinessApproval
