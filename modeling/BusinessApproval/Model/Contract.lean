/-!
# The capability contract

The request, response and error types of the generated contract
(`generated.rs`), with the fields under their names there. `decide`, `cancel` and
`expire` answer by one schema, `transition-response.schema.json`, from which the
generator makes three copies of one type; the model keeps one.

The `Unknown` variant of the error types stands for an error that a remote peer of another
version may send. Nothing of the owner builds it, so it is not here: `Model/Wire`, where errors
are read, has it as a case of `DomainError`.
-/

namespace BusinessApproval

structure RequestRequestSubject where
  kind : String
  id : String
  deriving DecidableEq, Repr

structure RequestRequest where
  requestId : String
  idempotencyKey : String
  requestedBy : String
  approvalKind : String
  subject : RequestRequestSubject
  expiresAt : String
  intentDigest : Option String
  deriving DecidableEq, Repr

inductive DecideRequestDecision where
  | approved
  | rejected
  deriving DecidableEq, Repr

structure DecideRequest where
  requestId : String
  decision : DecideRequestDecision
  decidedBy : String
  evidenceRef : String
  reason : Option String
  deriving DecidableEq, Repr

structure CancelRequest where
  requestId : String
  cancelledBy : String
  reason : Option String
  deriving DecidableEq, Repr

structure ReadRequest where
  requestId : String
  deriving DecidableEq, Repr

structure ExpireRequest where
  requestId : String
  deriving DecidableEq, Repr

/-- The status a `request` or `read` reports. -/
inductive ResponseStatus where
  | pending
  | approved
  | rejected
  | cancelled
  | expired
  deriving DecidableEq, Repr

abbrev RequestResponseStatus := ResponseStatus
abbrev ReadResponseStatus := ResponseStatus

/-- The status a terminal transition reports. -/
inductive TransitionResponseStatus where
  | approved
  | rejected
  | cancelled
  | expired
  deriving DecidableEq, Repr

structure RequestResponse where
  created : Bool
  requestId : String
  status : RequestResponseStatus
  revision : String
  deriving DecidableEq, Repr

structure TransitionResponse where
  requestId : String
  status : TransitionResponseStatus
  revision : String
  terminalCallerInstance : String
  terminalActor : Option String
  evidenceRef : Option String
  reason : Option String
  terminalAt : String
  deriving DecidableEq, Repr

abbrev DecideResponse := TransitionResponse
abbrev CancelResponse := TransitionResponse
abbrev ExpireResponse := TransitionResponse

structure ReadResponseSubject where
  kind : String
  id : String
  deriving DecidableEq, Repr

structure ReadResponse where
  requestId : String
  idempotencyKey : String
  approvalKind : String
  subject : ReadResponseSubject
  intentDigest : Option String
  requesterInstance : String
  requestedBy : String
  status : ReadResponseStatus
  revision : String
  requestedAt : String
  expiresAt : String
  terminalCallerInstance : Option String
  terminalActor : Option String
  evidenceRef : Option String
  reason : Option String
  terminalAt : Option String
  deriving DecidableEq, Repr

inductive RequestError where
  | forbidden
  | invalidRequest
  | idempotencyConflict
  deriving DecidableEq, Repr

inductive DecideError where
  | forbidden
  | invalidRequest
  | requestNotFound
  | alreadyTerminal
  deriving DecidableEq, Repr

inductive CancelError where
  | forbidden
  | invalidRequest
  | requestNotFound
  | notRequester
  | alreadyTerminal
  deriving DecidableEq, Repr

inductive ReadError where
  | forbidden
  | invalidRequest
  | requestNotFound
  deriving DecidableEq, Repr

inductive ExpireError where
  | forbidden
  | invalidRequest
  | requestNotFound
  | alreadyTerminal
  | notDue
  deriving DecidableEq, Repr

/-- The runtime failures the program builds, with the detail text it gives them. -/
inductive RuntimeFailure where
  | internal (detail : String)
  | pluginFailure (detail : String)
  | invalidResolvedPlan (detail : String)
  deriving DecidableEq, Repr

inductive PluginError (E : Type) where
  | domain (error : E)
  | runtime (failure : RuntimeFailure)
  deriving DecidableEq, Repr

abbrev PluginResult (T E : Type) := Except (PluginError E) T

end BusinessApproval
