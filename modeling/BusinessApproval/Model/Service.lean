import BusinessApproval.Lib.Prog
import BusinessApproval.Model.Contract
import BusinessApproval.Model.Validation

/-!
# The approval service

`ApprovalService` of the core crate: the five operations, over any store. The
store is a signature — one operation for each method of the `ApprovalStore` trait —
and a service operation is a program over it, so the same program runs over
PostgreSQL, over D1, and over the abstract ledger.

What comes from other packages is a parameter, `Deps`: the caller and the human
assertion a context carries, the RFC 3339 codec and the calendar of the `time`
crate, and the column codec of `sqlx`.
-/

namespace BusinessApproval

/-- What the program uses of the `time` crate. -/
structure TimeCrate where
  /-- `OffsetDateTime::parse(_, &Rfc3339)`, as the instant it denotes. -/
  parse : String → Option Int
  /-- `OffsetDateTime::format(&Rfc3339)`, on a value in UTC. -/
  format : Int → Option String
  /-- `OffsetDateTime::from_unix_timestamp_nanos`. -/
  fromUnixTimestampNanos : Int → Option Int

/-- The instants of the years 0 to 9999, which RFC 3339 text can name. -/
def InYears (t : Int) : Prop := -62167219200000000000 ≤ t ∧ t < 253402300800000000000

/-- What the program takes from other packages. -/
structure Deps (Ctx : Type) where
  /-- `Ctx::caller_instance`. -/
  callerInstance : Ctx → Option String
  /-- `lenso_auth_sdk::delegation::denies_human_context`. -/
  deniesHumanContext : Ctx → Bool
  time : TimeCrate
  /-- `sqlx`'s encoding of an instant as a `TIMESTAMPTZ`, in microseconds since the epoch. -/
  timestamptz : Int → Int

/-! ## The caller policy -/

structure ApprovalPolicy where
  requesterInstances : List String
  deciderInstances : List String
  expirationExecutorInstances : List String
  deriving DecidableEq, Repr

def containsExact (callers : List String) (caller : String) : Bool :=
  callers.any (fun allowed => allowed == caller)

namespace ApprovalPolicy

def canRequest (config : ApprovalPolicy) (caller : String) : Bool :=
  containsExact config.requesterInstances caller

def canDecide (config : ApprovalPolicy) (caller : String) : Bool :=
  containsExact config.deciderInstances caller

def canExpire (config : ApprovalPolicy) (caller : String) : Bool :=
  containsExact config.expirationExecutorInstances caller

def canRead (config : ApprovalPolicy) (caller : String) : Bool :=
  config.canRequest caller || config.canDecide caller || config.canExpire caller

def canReadAnyRequest (config : ApprovalPolicy) (caller : String) : Bool :=
  config.canDecide caller || config.canExpire caller

end ApprovalPolicy

/-! ## The store, as a signature -/

/-- The methods of the `ApprovalStore` trait. -/
inductive StoreOp where
  | now
  | request (intent : RequestIntent)
  | read (id : String) (requester : Option String)
  | decide (id : String) (status : ApprovalStatus) (caller actor evidence : String)
      (reason : Option String)
  | cancel (id caller actor : String) (reason : Option String)
  | expire (id caller : String)

/-- What each method answers. -/
def StoreRes : StoreOp → Type
  | .now => Except StorageError Int
  | .request _ => Except StorageError (Except DomainFailure RequestOutcome)
  | .read _ _ => Except StorageError (Option StoredApproval)
  | .decide _ _ _ _ _ _ => Except StorageError (Except DomainFailure StoredApproval)
  | .cancel _ _ _ _ => Except StorageError (Except DomainFailure StoredApproval)
  | .expire _ _ => Except StorageError (Except DomainFailure StoredApproval)

/-! ## Failures -/

section Failures

variable {E α : Type}

def invalidRequestRuntime (detail : String) : PluginError E :=
  .runtime (.internal s!"Business Approval: {detail}")

def invalidTerminal : PluginError E :=
  invalidRequestRuntime "stored terminal evidence is inconsistent"

def storageRuntime (error : StorageError) : PluginError E :=
  .runtime (.pluginFailure error.toString)

end Failures

def mapRequestFailure : DomainFailure → RequestError
  | .idempotencyConflict => .idempotencyConflict
  | _ => .invalidRequest

def mapDecideFailure : DomainFailure → DecideError
  | .requestNotFound => .requestNotFound
  | .alreadyTerminal => .alreadyTerminal
  | _ => .invalidRequest

def mapCancelFailure : DomainFailure → CancelError
  | .requestNotFound => .requestNotFound
  | .alreadyTerminal => .alreadyTerminal
  | .notRequester => .notRequester
  | _ => .invalidRequest

def mapExpireFailure : DomainFailure → ExpireError
  | .requestNotFound => .requestNotFound
  | .alreadyTerminal => .alreadyTerminal
  | .notDue => .notDue
  | _ => .invalidRequest

/-! ## Timestamps and revisions -/

section Formats

variable {E : Type} (time : TimeCrate)

def normalizeTimestamp (value : Int) : Except (PluginError E) Int :=
  let nanos := value
  let micros := nanos - nanos % 1000
  match time.fromUnixTimestampNanos micros with
  | some normalized => .ok normalized
  | none => .error (invalidRequestRuntime "timestamp is outside PostgreSQL range")

def formatTimestamp (value : Int) : Except (PluginError E) String :=
  match time.format value with
  | some text => .ok text
  | none => .error (invalidRequestRuntime "stored timestamp cannot be formatted")

def formatRequiredTimestamp (value : Option Int) : Except (PluginError E) String :=
  match value with
  | some value => formatTimestamp time value
  | none => .error invalidTerminal

def requiredTerminal (value : Option String) : Except (PluginError E) String :=
  match value with
  | some value => .ok value
  | none => .error invalidTerminal

def revisionString (revision : Int) : Except (PluginError E) String :=
  if revision < 1 then .error (invalidRequestRuntime "stored revision is invalid")
  else .ok (toString revision)

end Formats

/-! ## Responses -/

def requestStatus : ApprovalStatus → RequestResponseStatus
  | .pending => .pending
  | .approved => .approved
  | .rejected => .rejected
  | .cancelled => .cancelled
  | .expired => .expired

section Responses

variable (time : TimeCrate)

def decideResponse (approval : StoredApproval) : Except (PluginError DecideError) DecideResponse := do
  let status ← match approval.status with
    | .approved => pure TransitionResponseStatus.approved
    | .rejected => pure TransitionResponseStatus.rejected
    | _ => throw invalidTerminal
  return {
    requestId := approval.requestId
    status
    revision := ← revisionString approval.revision
    terminalCallerInstance := ← requiredTerminal approval.terminalCallerInstance
    terminalActor := approval.terminalActor
    evidenceRef := approval.evidenceRef
    reason := approval.reason
    terminalAt := ← formatRequiredTimestamp time approval.terminalAt }

def cancelResponse (approval : StoredApproval) : Except (PluginError CancelError) CancelResponse := do
  if approval.status ≠ .cancelled then throw invalidTerminal
  return {
    requestId := approval.requestId
    status := .cancelled
    revision := ← revisionString approval.revision
    terminalCallerInstance := ← requiredTerminal approval.terminalCallerInstance
    terminalActor := approval.terminalActor
    evidenceRef := approval.evidenceRef
    reason := approval.reason
    terminalAt := ← formatRequiredTimestamp time approval.terminalAt }

def expireResponse (approval : StoredApproval) : Except (PluginError ExpireError) ExpireResponse := do
  if approval.status ≠ .expired then throw invalidTerminal
  return {
    requestId := approval.requestId
    status := .expired
    revision := ← revisionString approval.revision
    terminalCallerInstance := ← requiredTerminal approval.terminalCallerInstance
    terminalActor := approval.terminalActor
    evidenceRef := approval.evidenceRef
    reason := approval.reason
    terminalAt := ← formatRequiredTimestamp time approval.terminalAt }

def readResponse (approval : StoredApproval) : Except (PluginError ReadError) ReadResponse := do
  return {
    requestId := approval.requestId
    idempotencyKey := approval.idempotencyKey
    approvalKind := approval.approvalKind
    subject := { kind := approval.subjectKind, id := approval.subjectId }
    intentDigest := approval.intentDigest
    requesterInstance := approval.requesterInstance
    requestedBy := approval.requestedBy
    status := match approval.status with
      | .pending => .pending
      | .approved => .approved
      | .rejected => .rejected
      | .cancelled => .cancelled
      | .expired => .expired
    revision := ← revisionString approval.revision
    requestedAt := ← formatTimestamp time approval.requestedAt
    expiresAt := ← formatTimestamp time approval.expiresAt
    terminalCallerInstance := approval.terminalCallerInstance
    terminalActor := approval.terminalActor
    evidenceRef := approval.evidenceRef
    reason := approval.reason
    terminalAt := ← match approval.terminalAt with
      | some at_ => some <$> formatTimestamp time at_
      | none => pure none }

end Responses

/-! ## The operations -/

namespace ApprovalService

variable {Ctx : Type} (deps : Deps Ctx) (config : ApprovalPolicy)

/-- A store method, with a `StorageError` turned into a runtime failure. -/
def store {E α : Type} (o : StoreOp) (result : StoreRes o → Except StorageError α) :
    ExceptT (PluginError E) (Prog StoreRes) α :=
  ExceptT.mk (.call o fun answer => .ret ((result answer).mapError storageRuntime))

def authorizedCaller (context : Ctx) (predicate : ApprovalPolicy → String → Bool) :
    Option String :=
  (deps.callerInstance context).filter (fun caller => predicate config caller)

def request (context : Ctx) (request : RequestRequest) :
    ExceptT (PluginError RequestError) (Prog StoreRes) RequestResponse := do
  let some caller := authorizedCaller deps config context ApprovalPolicy.canRequest
    | throw (.domain .forbidden)
  let requestedAt ← Prog.ofExcept (normalizeTimestamp deps.time (← store .now id))
  let some expiresAt := deps.time.parse request.expiresAt
    | throw (.domain .invalidRequest)
  let expiresAt ← Prog.ofExcept (normalizeTimestamp deps.time expiresAt)
  if !validRequestId request.requestId
      || !validIdempotencyKey request.idempotencyKey
      || !validReference request.requestedBy
      || !validKind request.approvalKind
      || !validKind request.subject.kind
      || !validReference request.subject.id
      || request.intentDigest.any (fun digest => !validIntentDigest digest)
      || (request.subject.kind == "management-operation" && request.intentDigest.isNone)
      || expiresAt ≤ requestedAt then
    throw (.domain .invalidRequest)
  let intent : RequestIntent := {
    requestId := request.requestId
    requesterInstance := caller
    idempotencyKey := request.idempotencyKey
    requestedBy := request.requestedBy
    approvalKind := request.approvalKind
    subjectKind := request.subject.kind
    subjectId := request.subject.id
    intentDigest := request.intentDigest
    requestedAt
    expiresAt }
  match ← store (.request intent) id with
  | .error failure => throw (.domain (mapRequestFailure failure))
  | .ok outcome =>
      return {
        created := outcome.created
        requestId := outcome.approval.requestId
        status := requestStatus outcome.approval.status
        revision := ← Prog.ofExcept (revisionString outcome.approval.revision) }

def decide (context : Ctx) (request : DecideRequest) :
    ExceptT (PluginError DecideError) (Prog StoreRes) DecideResponse := do
  let some caller := authorizedCaller deps config context ApprovalPolicy.canDecide
    | throw (.domain .forbidden)
  if deps.deniesHumanContext context then
    throw (.domain .forbidden)
  if !validRequestId request.requestId
      || !validReference request.decidedBy
      || !validReference request.evidenceRef
      || !validReason request.reason then
    throw (.domain .invalidRequest)
  let decision := match request.decision with
    | .approved => ApprovalStatus.approved
    | .rejected => ApprovalStatus.rejected
  match ← store (.decide request.requestId decision caller request.decidedBy
      request.evidenceRef request.reason) id with
  | .error failure => throw (.domain (mapDecideFailure failure))
  | .ok approval => Prog.ofExcept (decideResponse deps.time approval)

def cancel (context : Ctx) (request : CancelRequest) :
    ExceptT (PluginError CancelError) (Prog StoreRes) CancelResponse := do
  let some caller := authorizedCaller deps config context ApprovalPolicy.canRequest
    | throw (.domain .forbidden)
  if !validRequestId request.requestId
      || !validReference request.cancelledBy
      || !validReason request.reason then
    throw (.domain .invalidRequest)
  match ← store (.cancel request.requestId caller request.cancelledBy request.reason) id with
  | .error failure => throw (.domain (mapCancelFailure failure))
  | .ok approval => Prog.ofExcept (cancelResponse deps.time approval)

def read (context : Ctx) (request : ReadRequest) :
    ExceptT (PluginError ReadError) (Prog StoreRes) ReadResponse := do
  let some caller := authorizedCaller deps config context ApprovalPolicy.canRead
    | throw (.domain .forbidden)
  if !validRequestId request.requestId then
    throw (.domain .invalidRequest)
  let requesterConstraint := if !config.canReadAnyRequest caller then some caller else none
  match ← store (.read request.requestId requesterConstraint) id with
  | none => throw (.domain .requestNotFound)
  | some approval => Prog.ofExcept (readResponse deps.time approval)

def expire (context : Ctx) (request : ExpireRequest) :
    ExceptT (PluginError ExpireError) (Prog StoreRes) ExpireResponse := do
  let some caller := authorizedCaller deps config context ApprovalPolicy.canExpire
    | throw (.domain .forbidden)
  if !validRequestId request.requestId then
    throw (.domain .invalidRequest)
  match ← store (.expire request.requestId caller) id with
  | .error failure => throw (.domain (mapExpireFailure failure))
  | .ok approval => Prog.ofExcept (expireResponse deps.time approval)

end ApprovalService

/-! ## Calls and answers of any kind -/

/-- A call of the service: its operation, context and body. -/
inductive ServiceCall (Ctx : Type) where
  | request (context : Ctx) (body : RequestRequest)
  | decide (context : Ctx) (body : DecideRequest)
  | cancel (context : Ctx) (body : CancelRequest)
  | read (context : Ctx) (body : ReadRequest)
  | expire (context : Ctx) (body : ExpireRequest)

inductive Response where
  | request (result : PluginResult RequestResponse RequestError)
  | decide (result : PluginResult DecideResponse DecideError)
  | cancel (result : PluginResult CancelResponse CancelError)
  | read (result : PluginResult ReadResponse ReadError)
  | expire (result : PluginResult ExpireResponse ExpireError)

/-- The program a call runs. -/
def serve {Ctx : Type} (deps : Deps Ctx) (config : ApprovalPolicy) :
    ServiceCall Ctx → Prog StoreRes Response
  | .request context body => .request <$> (ApprovalService.request deps config context body).run
  | .decide context body => .decide <$> (ApprovalService.decide deps config context body).run
  | .cancel context body => .cancel <$> (ApprovalService.cancel deps config context body).run
  | .read context body => .read <$> (ApprovalService.read deps config context body).run
  | .expire context body => .expire <$> (ApprovalService.expire deps config context body).run

end BusinessApproval
