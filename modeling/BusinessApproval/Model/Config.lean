import Mathlib.Data.Finset.Dedup
import Mathlib.Data.Finset.Card
import BusinessApproval.Model.Service

/-!
# Configuration

What the plugins check of their configuration before they start: the lists of exact
callers, which are the only source of authority, and the reference to the secret that
holds the database URL. Whether a schema name makes a plan is for `SchemaPlan::new` of
`lenso_postgres_kit` to say, and a parameter here.
-/

namespace BusinessApproval

def maxCallers : Nat := 64

inductive CallerListError where
  | emptyOrTooLarge
  | invalidInstance
  | duplicateInstance
  deriving DecidableEq, Repr

def CallerListError.toString : CallerListError → String
  | .emptyOrTooLarge => "the list must contain between 1 and 64 Instance keys"
  | .invalidInstance => "an Instance key is invalid"
  | .duplicateInstance => "Instance keys must not be duplicated"

/-- `str::split` at a character: one segment more than there are separators. -/
def split (value : String) (separator : Char) : List String :=
  (value.toList.splitOn separator).map String.ofList

def validInstance (value : String) : Bool :=
  value.utf8ByteSize ≤ 256
    && 1 ≤ (split value '/').length
    && (split value '/').length ≤ 2
    && (split value '/').all (fun segment => validIdentifier segment 256)

/-- The size of the `BTreeSet` is that of the set of callers. -/
def validateCallers (callers : List String) : Except CallerListError Unit :=
  if callers.isEmpty || callers.length > maxCallers then .error .emptyOrTooLarge
  else if callers.any (fun caller => !validInstance caller) then .error .invalidInstance
  else if callers.toFinset.card != callers.length then .error .duplicateInstance
  else .ok ()

/-- `ApprovalPolicy::validate` -/
def ApprovalPolicy.validate (config : ApprovalPolicy) : Except RuntimeFailure Unit :=
  [config.requesterInstances, config.deciderInstances, config.expirationExecutorInstances].forM
    fun values =>
      if (validateCallers values).isOk then .ok ()
      else .error (.invalidResolvedPlan "invalid Business Approval exact caller policy")

/-! ## PostgreSQL -/

namespace Postgres

def validSecretReference (reference : String) : Bool :=
  !reference.isEmpty
    && reference.utf8ByteSize ≤ 256
    && !(reference.toList.head? == some '/')
    && !(reference.toList.getLast? == some '/')
    && !decide (['/', '/'] <:+: reference.toList)
    && (split reference '/').all (fun segment => segment != "." && segment != "..")
    && (bytes reference).all
      (fun byte => isAsciiAlphanumeric byte || matchesByte ['.', '_', '-', ':', '/'] byte)

structure BusinessApprovalConfig where
  schema : String
  databaseUrlSecret : String
  requesterInstances : List String
  deciderInstances : List String
  expirationExecutorInstances : List String
  deriving DecidableEq, Repr

inductive BusinessApprovalConfigError where
  | invalidSchema
  | invalidSecretReference
  | invalidRequesters (error : CallerListError)
  | invalidDeciders (error : CallerListError)
  | invalidExpirationExecutors (error : CallerListError)
  deriving DecidableEq, Repr

def BusinessApprovalConfigError.toString : BusinessApprovalConfigError → String
  | .invalidSchema => "invalid owned PostgreSQL schema"
  | .invalidSecretReference => "invalid database URL secret reference"
  | .invalidRequesters error => "invalid requester_instances: " ++ error.toString
  | .invalidDeciders error => "invalid decider_instances: " ++ error.toString
  | .invalidExpirationExecutors error =>
      "invalid expiration_executor_instances: " ++ error.toString

/-- The policy the service is given. -/
def BusinessApprovalConfig.policy (config : BusinessApprovalConfig) : ApprovalPolicy where
  requesterInstances := config.requesterInstances
  deciderInstances := config.deciderInstances
  expirationExecutorInstances := config.expirationExecutorInstances

/-- `BusinessApprovalConfig::validate` -/
def BusinessApprovalConfig.validate (schemaPlan : String → Bool)
    (config : BusinessApprovalConfig) : Except BusinessApprovalConfigError Unit := do
  if !schemaPlan config.schema then
    throw .invalidSchema
  if !validSecretReference config.databaseUrlSecret then
    throw .invalidSecretReference
  (validateCallers config.requesterInstances).mapError .invalidRequesters
  (validateCallers config.deciderInstances).mapError .invalidDeciders
  (validateCallers config.expirationExecutorInstances).mapError .invalidExpirationExecutors

def validateConfig (schemaPlan : String → Bool) (config : BusinessApprovalConfig) :
    Except RuntimeFailure Unit :=
  (config.validate schemaPlan).mapError fun error =>
    .invalidResolvedPlan ("Business Approval configuration is invalid: " ++ error.toString)

end Postgres

example : validInstance "lenso.management/main" = true ∧ validInstance "lenso.management/" = false
    ∧ validInstance "/main" = false ∧ validInstance "a/b/c" = false := by decide +kernel

example : Postgres.validSecretReference "business-approval/database-url" = true
    ∧ Postgres.validSecretReference "../database" = false := by decide +kernel

end BusinessApproval
