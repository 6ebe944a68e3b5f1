import BusinessApproval.Lib.Decimal
import BusinessApproval.Lib.JsonText
import BusinessApproval.Lib.Keyed
import BusinessApproval.Lib.Rfc3339
import BusinessApproval.Model.Service

/-!
# The D1 store

`store.mjs` and the Rust handle over it, `host_facilities.rs`. The JavaScript
functions are programs over what the host offers them: its clock, an atomic batch
of one write and one `SELECT`, and a single `SELECT`. What the host answers is
JavaScript data, which the functions check and take apart as the source does; what
they return is data again, which the Rust side decodes.

An exception of the JavaScript side carries its message. `run`, `withSession` and
`scope` pass through and are left out.
-/

namespace BusinessApproval.D1

/-! ## The table -/

/-- A row of `business_approval_requests`; `record_json` is kept as the value it spells. -/
structure D1Row where
  requestId : String
  requesterInstance : String
  idempotencyKey : String
  status : String
  revision : Int
  expiresUs : Int
  recordJson : Json

namespace D1Row

/-- The columns of `UNIQUE(requester_instance,idempotency_key)`. -/
def pair (row : D1Row) : String × String := (row.requesterInstance, row.idempotencyKey)

/-- The `CHECK` constraints. -/
def checks (row : D1Row) : Bool :=
  ["pending", "approved", "rejected", "cancelled", "expired"].contains row.status
    && [1, 2].contains row.revision

end D1Row

abbrev Table := List D1Row

def lookup (table : Table) (requestId : String) : Option D1Row :=
  Keyed.lookup D1Row.requestId table requestId

def taken (table : Table) (row : D1Row) : Bool :=
  Keyed.taken D1Row.requestId D1Row.pair table row

/-! ## What the host offers -/

/-- The first statement of a batch. -/
inductive Write where
  /-- `INSERT … ON CONFLICT DO NOTHING` -/
  | insert (row : D1Row)
  /-- `UPDATE … SET … WHERE …`; no statement here changes a key. -/
  | update (condition : D1Row → Bool) (set : D1Row → D1Row)

inductive D1Op where
  /-- `Date.now()` -/
  | dateNow
  /-- `new Date()`, as milliseconds since the epoch. -/
  | newDate
  /-- `batch([…])` of a write and `SELECT record_json … WHERE …`. -/
  | batch (write : Write) (condition : D1Row → Bool)
  /-- `SELECT record_json … WHERE …`, then `first()`. -/
  | first (condition : D1Row → Bool)

def D1Res : D1Op → Type
  | .dateNow => Int
  | .newDate => Int
  | .batch _ _ => Except String Json
  | .first _ => Except String Json

/-- A JavaScript function: a program that may throw. -/
abbrev Js (α : Type) := ExceptT String (Prog D1Res) α

def dateNow : Js Int := ExceptT.mk (.call .dateNow fun ms => .ret (.ok ms))

def newDate : Js Int := ExceptT.mk (.call .newDate fun ms => .ret (.ok ms))

def batch (write : Write) (condition : D1Row → Bool) : Js Json :=
  ExceptT.mk (Prog.perform (D1Op.batch write condition))

def first (condition : D1Row → Bool) : Js Json :=
  ExceptT.mk (Prog.perform (D1Op.first condition))

/-! ## Checking and decoding what the host answers -/

/-- `value === true` -/
def isTrue : Option Json → Bool
  | some (.bool true) => true
  | _ => false

/-- `Array.isArray(value)` -/
def isArray : Option Json → Bool
  | some (.arr _) => true
  | _ => false

def maxSafeInteger : Int := 9007199254740991

/-- A safe integer, when the value is one. -/
def safeInteger (value : Option Json) : Option Int :=
  (value.bind Json.asNum).filter (fun n => -maxSafeInteger ≤ n && n ≤ maxSafeInteger)

/-- `value?.meta?.changes` -/
def changesOf (result : Option Json) : Option Int :=
  safeInteger (result.bind fun result => (result.get "meta").bind (Json.get "changes"))

/-- The elements of an array; none otherwise. -/
def elements (value : Option Json) : List Json :=
  ((value.bind Json.asArr).getD [])

def assertBatch (rows : Json) : Except String Unit :=
  if !isArray (some rows)
      || (elements (some rows)).length != 2
      || (elements (some rows)).any
        (fun row => !isTrue (row.get "success") || !isArray (row.get "results"))
      || !(changesOf (elements (some rows))[0]?).any (fun changes => 0 ≤ changes && changes ≤ 1) then
    .error "approval_receipt_unknown"
  else .ok ()

/-- `row ? JSON.parse(row.record_json) : null`; `JSON.parse(undefined)` throws. -/
def decode (row : Option Json) : Except String Json :=
  match row with
  | none => .ok .null
  | some row =>
      if row.truthy then
        match (row.get "record_json").bind Json.parse with
        | some value => .ok value
        | none => .error "SyntaxError"
      else .ok .null

/-- `result[0].meta.changes===1` -/
def changedOne (result : Json) : Bool := changesOf (elements (some result))[0]? == some 1

/-- `result[1]?.results` as a list. -/
def resultsOf (result : Json) : List Json :=
  elements ((elements (some result))[1]?.bind (Json.get "results"))

/-! ## `store.mjs` -/

inductive Kind where
  | decide
  | cancel
  | expire
  deriving DecidableEq, Repr

/-- What the Rust side passes to a transition; what a kind does not pass is `none`. -/
structure Input where
  id : String
  status : Option String
  caller : String
  actor : Option String
  evidence : Option String
  reason : Option String

/-- The properties a transition sets in the record. -/
def recordUpdates (status caller : String) (actor evidence reason : Option String) (at_ : String) :
    List (String × Json) :=
  [("status", .str status),
    ("revision", .num 2),
    ("terminal_caller_instance", .str caller),
    ("terminal_actor", .ofOption actor),
    ("evidence_ref", .ofOption evidence),
    ("reason", .ofOption reason),
    ("terminal_at", .str at_)]

/-- `BigInt(Date.now())*1000n`, as text. -/
def microsText (ms : Int) : String := toString (ms * 1000)

/-- The condition a kind adds to the `UPDATE`. -/
def constraint (kind : Kind) (caller now : String) (row : D1Row) : Bool :=
  match kind with
  | .decide => true
  | .cancel => row.requesterInstance == caller
  | .expire => row.expiresUs ≤ Decimal.castInteger now

/-- The status a transition writes: what `decide` is given, and the kind's own otherwise. -/
def transitionStatus (kind : Kind) (input : Input) : String :=
  match kind with
  | .decide => input.status.getD "undefined"
  | .cancel => "cancelled"
  | .expire => "expired"

/-- What a transition's `UPDATE` leaves of a row. -/
def D1Row.settle (status caller : String) (actor evidence reason : Option String) (at_ : String)
    (row : D1Row) : D1Row :=
  { row with
    status := status
    revision := 2
    recordJson := row.recordJson.setAll (recordUpdates status caller actor evidence reason at_) }

def transition (kind : Kind) (input : Input) : Js Json := do
  let status := transitionStatus kind input
  if kind == .decide && !(["approved", "rejected"].contains status) then
    throw "invalid_approval_transition"
  let at_ := Rfc3339.isoMillis (← newDate)
  let now := microsText (← dateNow)
  let actor := if kind == .expire then none else input.actor
  let evidence := if kind == .decide then input.evidence else none
  let reason := if kind == .expire then none else input.reason
  let result ← batch
    (.update
      (fun row => row.requestId == input.id && row.status == "pending" && row.revision == 1
        && constraint kind input.caller now row)
      (D1Row.settle status input.caller actor evidence reason at_))
    (fun row => row.requestId == input.id)
  Prog.ofExcept (assertBatch result)
  let approval ← Prog.ofExcept (decode (resultsOf result)[0]?)
  return .obj [("changed", .bool (changedOne result)), ("approval", approval)]

def nowUs : Js String := do
  return microsText (← dateNow)

/-- A `RequestIntent` as the Rust side passes it: instants as RFC 3339 text. -/
structure IntentInput where
  requestId : String
  requesterInstance : String
  idempotencyKey : String
  requestedBy : String
  approvalKind : String
  subjectKind : String
  subjectId : String
  intentDigest : Option String
  requestedAt : String
  expiresAt : String

/-- The properties of the intent object. -/
def IntentInput.toJson (i : IntentInput) : Json :=
  .obj [("request_id", .str i.requestId),
    ("requester_instance", .str i.requesterInstance),
    ("idempotency_key", .str i.idempotencyKey),
    ("requested_by", .str i.requestedBy),
    ("approval_kind", .str i.approvalKind),
    ("subject_kind", .str i.subjectKind),
    ("subject_id", .str i.subjectId),
    ("intent_digest", .ofOption i.intentDigest),
    ("requested_at", .str i.requestedAt),
    ("expires_at", .str i.expiresAt)]

/-- `{...i,status:"pending",revision:1,…}` -/
def recordOf (i : IntentInput) : Json :=
  i.toJson.setAll
    [("status", .str "pending"),
      ("revision", .num 1),
      ("terminal_caller_instance", .null),
      ("terminal_actor", .null),
      ("evidence_ref", .null),
      ("reason", .null),
      ("terminal_at", .null)]

/-- The row of the `INSERT`'s `VALUES`. -/
def D1Row.ofIntent (i : IntentInput) (expiresUs : String) : D1Row where
  requestId := i.requestId
  requesterInstance := i.requesterInstance
  idempotencyKey := i.idempotencyKey
  status := "pending"
  revision := 1
  expiresUs := Decimal.castInteger expiresUs
  recordJson := recordOf i

/-- The condition of the `SELECT` after the `INSERT`. -/
def sharesKey (i : IntentInput) (row : D1Row) : Bool :=
  row.requestId == i.requestId
    || (row.requesterInstance == i.requesterInstance && row.idempotencyKey == i.idempotencyKey)

def request (i : IntentInput) (expiresUs : String) : Js Json := do
  let result ← batch (.insert (D1Row.ofIntent i expiresUs)) (sharesKey i)
  Prog.ofExcept (assertBatch result)
  let rows ← Prog.ofExcept ((resultsOf result).mapM fun row => decode (some row))
  return .obj [("created", .bool (changedOne result)), ("rows", .arr rows)]

def read (id : String) (requester : Option String) : Js Json := do
  let row ← first (fun row => row.requestId == id
    && (requester.isNone || requester == some row.requesterInstance))
  Prog.ofExcept (decode (some row))

/-! ## Decoding on the Rust side -/

section Decoding

variable (time : TimeCrate)

def requiredStr (value : Json) (name : String) : Option String := (value.get name).bind Json.asStr

/-- An `Option<String>` field: absent and `null` are both `None`. -/
def optionalStr (value : Json) (name : String) : Option (Option String) :=
  match value.get name with
  | none => some none
  | some .null => some none
  | some (.str s) => some (some s)
  | some _ => none

/-- `time::serde::rfc3339` -/
def requiredInstant (value : Json) (name : String) : Option Int :=
  (requiredStr value name).bind time.parse

/-- `time::serde::rfc3339::option`, for a field that has no default. -/
def optionalInstant (value : Json) (name : String) : Option (Option Int) :=
  match value.get name with
  | some .null => some none
  | some (.str s) => (time.parse s).map some
  | _ => none

/-- The serde name of a status. -/
def statusOf (value : Json) : Option ApprovalStatus :=
  (requiredStr value "status").bind fun s => (ApprovalStatus.parse s).toOption

/-- Deserialising a `StoredApproval`. -/
def StoredApproval.ofJson (value : Json) : Option StoredApproval := do
  return {
    requestId := ← requiredStr value "request_id"
    requesterInstance := ← requiredStr value "requester_instance"
    idempotencyKey := ← requiredStr value "idempotency_key"
    requestedBy := ← requiredStr value "requested_by"
    approvalKind := ← requiredStr value "approval_kind"
    subjectKind := ← requiredStr value "subject_kind"
    subjectId := ← requiredStr value "subject_id"
    intentDigest := ← optionalStr value "intent_digest"
    status := ← statusOf value
    revision := ← safeInteger (value.get "revision")
    requestedAt := ← requiredInstant time value "requested_at"
    expiresAt := ← requiredInstant time value "expires_at"
    terminalCallerInstance := ← optionalStr value "terminal_caller_instance"
    terminalActor := ← optionalStr value "terminal_actor"
    evidenceRef := ← optionalStr value "evidence_ref"
    reason := ← optionalStr value "reason"
    terminalAt := ← optionalInstant time value "terminal_at" }

/-- Deserialising an `Option<StoredApproval>`. -/
def optionalApproval (value : Option Json) : Option (Option StoredApproval) :=
  match value with
  | none => some none
  | some .null => some none
  | some value => (StoredApproval.ofJson time value).map some

structure TransitionResult where
  changed : Bool
  approval : Option StoredApproval

def TransitionResult.ofJson (value : Json) : Option TransitionResult := do
  return {
    changed := ← (value.get "changed").bind Json.asBool
    approval := ← optionalApproval time (value.get "approval") }

structure ResultRows where
  created : Bool
  rows : List StoredApproval

def ResultRows.ofJson (value : Json) : Option ResultRows := do
  return {
    created := ← (value.get "created").bind Json.asBool
    rows := ← ((value.get "rows").bind Json.asArr).bind fun rows =>
      rows.mapM (StoredApproval.ofJson time) }

/-- Serialising a `RequestIntent`. An instant outside the years 0 to 9999 has no text. -/
def IntentInput.ofIntent (intent : RequestIntent) : Option IntentInput := do
  return {
    requestId := intent.requestId
    requesterInstance := intent.requesterInstance
    idempotencyKey := intent.idempotencyKey
    requestedBy := intent.requestedBy
    approvalKind := intent.approvalKind
    subjectKind := intent.subjectKind
    subjectId := intent.subjectId
    intentDigest := intent.intentDigest
    requestedAt := ← time.format intent.requestedAt
    expiresAt := ← time.format intent.expiresAt }

end Decoding

/-! ## `host_facilities.rs` -/

/-- A store method: a program that may stop at a `StorageError`. -/
abbrev Method (α : Type) := ExceptT StorageError (Prog D1Res) α

/-- `StoreHandle::call`: whatever goes wrong on the way is `Unavailable`. -/
def call {α : Type} (function : Js Json) (decode : Json → Option α) : Method α :=
  ExceptT.mk (function.run >>= fun
    | .error _ => .ret (.error .unavailable)
    | .ok value => .ret ((decode value).elim (.error .unavailable) .ok))

section Handle

variable (time : TimeCrate)

/-- What the answer of a transition means, in the order it is looked at. -/
def classify (kind : Kind) (caller : String) (result : TransitionResult) :
    Except StorageError (Except DomainFailure StoredApproval) := do
  if let some approval := result.approval then
    validateEvidence approval
  if result.changed then
    match result.approval with
    | some approval => return .ok approval
    | none => throw .unavailable
  let some approval := result.approval
    | return .error .requestNotFound
  if kind == .cancel && approval.requesterInstance != caller then
    return .error .notRequester
  if approval.status ≠ .pending then
    return .error .alreadyTerminal
  if kind == .expire then
    return .error .notDue
  throw .unavailable

def transitionMethod (kind : Kind) (input : Input) :
    Method (Except DomainFailure StoredApproval) := do
  let result ← call (transition kind input) (TransitionResult.ofJson time)
  Prog.ofExcept (classify kind input.caller result)

def minInt128 : Int := -170141183460469231731687303715884105728

def maxInt128 : Int := 170141183460469231731687303715884105727

/-- An `i128`, when the integer is one. -/
def checked128 (n : Int) : Option Int := if minInt128 ≤ n ∧ n ≤ maxInt128 then some n else none

/-- From the text of `now_us` to an instant. -/
def instantOfMicros (text : String) : Option Int := do
  let micros ← (Decimal.parseInt text).bind checked128
  let nanos ← checked128 (micros * 1000)
  time.fromUnixTimestampNanos nanos

def nowMethod : Method Int :=
  ExceptT.mk (nowUs.run >>= fun
    | .error _ => .ret (.error .unavailable)
    | .ok text => .ret ((instantOfMicros time text).elim (.error .unavailable) .ok))

/-- What the answer of `request` means. -/
def resolve (intent : RequestIntent) (result : ResultRows) :
    Except StorageError (Except DomainFailure RequestOutcome) := do
  match result.rows with
  | [approval] =>
      validateEvidence approval
      if !sameIntent approval intent then
        return .error .idempotencyConflict
      return .ok { created := result.created, approval }
  | _ => return .error .idempotencyConflict

/-- `json!` panics on an intent that cannot be serialised; the call then ends without an answer. -/
def requestMethod (intent : RequestIntent) : Method (Except DomainFailure RequestOutcome) := do
  let some i := IntentInput.ofIntent time intent
    | throw .unavailable
  let result ← call (request i (toString (intent.expiresAt.tdiv 1000))) (ResultRows.ofJson time)
  Prog.ofExcept (resolve intent result)

def readMethod (id : String) (requester : Option String) : Method (Option StoredApproval) := do
  let approval ← call (read id requester) (fun value => optionalApproval time (some value))
  if let some approval := approval then
    Prog.ofExcept (validateEvidence approval)
  return approval

/-- `ApprovalStore for StoreHandle`. -/
def StoreHandle : (o : StoreOp) → Prog D1Res (StoreRes o)
  | .now => (nowMethod time).run
  | .request intent => (requestMethod time intent).run
  | .read id requester => (readMethod time id requester).run
  | .decide id status caller actor evidence reason =>
      (transitionMethod time .decide
        ⟨id, some status.asStr, caller, some actor, some evidence, reason⟩).run
  | .cancel id caller actor reason =>
      (transitionMethod time .cancel ⟨id, none, caller, some actor, none, reason⟩).run
  | .expire id caller =>
      (transitionMethod time .expire ⟨id, none, caller, none, none, none⟩).run

end Handle

/-! ## The host on its own -/

/-- What the host's two clock reads give during a call, in milliseconds. -/
structure Clock where
  dateNow : Int
  newDate : Int
  deriving DecidableEq, Repr

/-- Both clock reads are in the years 0 to 9999. -/
structure Clock.InYears (clock : Clock) : Prop where
  dateNow : BusinessApproval.InYears (clock.dateNow * 1000000)
  newDate : BusinessApproval.InYears (clock.newDate * 1000000)

/-- How many rows a write changes, and the table it leaves. -/
def Write.apply (write : Write) (table : Table) : Except String (Nat × Table) :=
  match write with
  | .insert row =>
      if !row.checks then .error "CHECK constraint failed"
      else if taken table row then .ok (0, table)
      else .ok (1, Keyed.put D1Row.requestId table row)
  | .update condition set =>
      if (table.filter condition).any (fun row => !(set row).checks) then
        .error "CHECK constraint failed"
      else .ok ((table.filter condition).length,
        table.map (fun row => if condition row then set row else row))

/-- A selected row, as the host hands it out. -/
def D1Row.toJson (row : D1Row) : Json := .obj [("record_json", .text row.recordJson)]

/-- The answer to a statement of a batch. -/
def statementResult (changes : Nat) (rows : List D1Row) : Json :=
  .obj [("success", .bool true),
    ("meta", .obj [("changes", .num changes)]),
    ("results", .arr (rows.map D1Row.toJson))]

/-- The answer to a batch, from its write's changes and the rows its `SELECT` finds. -/
def batchReply (changes : Nat) (rows : List D1Row) : Json :=
  .arr [statementResult changes [], statementResult 0 rows]

/-- A batch is atomic: when its write fails, nothing is done. -/
def runBatch (write : Write) (condition : D1Row → Bool) (table : Table) :
    Except String Json × Table :=
  match write.apply table with
  | .error message => (.error message, table)
  | .ok (changes, table) => (.ok (batchReply changes (table.filter condition)), table)

/-- What each operation does when nothing else runs. -/
def perform (clock : Clock) : Prog.Handler D1Res Table
  | .dateNow, table => (clock.dateNow, table)
  | .newDate, table => (clock.newDate, table)
  | .batch write condition, table => runBatch write condition table
  | .first condition, table =>
      (.ok (((table.filter condition).head?.map D1Row.toJson).getD .null), table)

/-- A store method by itself. -/
def alone (time : TimeCrate) (clock : Clock) : Prog.Handler StoreRes Table :=
  (perform clock).through (StoreHandle time)

end BusinessApproval.D1
