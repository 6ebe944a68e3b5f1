import BusinessApproval.Lib.Ascii
import BusinessApproval.Model.Service

/-!
# What the service sends to its store

Each service operation checks its caller and its body and then makes at most one
store call. `admission` and the `…Refused` functions are those checks, and the `…_eq` theorems put
each operation in the form "check, call, respond". From that form it follows which
operations a service can ever send: `serve_emits`.
-/

namespace BusinessApproval

/-! ## Digests -/

/-- The bytes `valid_intent_digest` lets through. -/
def isHexByte (byte : UInt8) : Bool :=
  isAsciiDigit byte || ('a'.toUInt8 ≤ byte && byte ≤ 'f'.toUInt8)

theorem isHexByte_iff {byte : UInt8} : isHexByte byte = true ↔
    (48 ≤ byte.toNat ∧ byte.toNat ≤ 57) ∨ (97 ≤ byte.toNat ∧ byte.toNat ≤ 102) := by
  simp only [isHexByte, isAsciiDigit, Bool.or_eq_true, Bool.and_eq_true, decide_eq_true_eq,
    UInt8.le_iff_toNat_le]
  exact Iff.rfl

/-- What the owner accepts as a digest is 64 lowercase hexadecimal digits. -/
theorem validIntentDigest_chars {digest : String} (h : validIntentDigest digest = true) :
    digest.toList.length = 64
      ∧ ∀ c ∈ digest.toList, ('a' ≤ c ∧ c ≤ 'f') ∨ ('0' ≤ c ∧ c ≤ '9') := by
  simp only [validIntentDigest, Bool.and_eq_true, beq_iff_eq] at h
  have hsmall : ∀ byte, isHexByte byte = true → byte.toNat < 128 := by
    intro byte hb
    have := isHexByte_iff.mp hb
    omega
  have hchars := (Ascii.all_bytes_iff hsmall).mp h.2
  have hsize := Ascii.utf8ByteSize_eq fun c hc => (hchars c hc).1
  refine ⟨by omega, fun c hc => ?_⟩
  obtain ⟨hlt, hbyte⟩ := hchars c hc
  have hrange := isHexByte_iff.mp hbyte
  rw [UInt8.toNat_ofNat', Nat.mod_eq_of_lt (by omega)] at hrange
  simp only [Char.le_def, UInt32.le_iff_toNat_le]
  exact hrange.symm

/-! ## Instants -/

/-- What is relied on of the `time` crate, for instants in the years 0 to 9999. -/
structure TimeCrate.Lawful (time : TimeCrate) : Prop where
  /-- An instant that can be formatted is read back as itself. -/
  parse_format : ∀ t, InYears t → ∃ text, time.format t = some text ∧ time.parse text = some t
  /-- `from_unix_timestamp_nanos` takes the years -9999 to 9999. -/
  fromNanos : ∀ n, time.fromUnixTimestampNanos n
    = if -377705116800000000000 ≤ n ∧ n < 253402300800000000000 then some n else none

/-- The instants of the years -9999 to 9999, which an `OffsetDateTime` can hold in UTC. -/
def Holdable (t : Int) : Prop := -377705116800000000000 ≤ t ∧ t < 253402300800000000000

/-- The last whole microsecond not after an instant. -/
def floorMicros (t : Int) : Int := t - t % 1000

section Normalize

variable {time : TimeCrate} {E : Type}

theorem normalizeTimestamp_ok (h : time.Lawful) {t n : Int}
    (hn : normalizeTimestamp time t = (.ok n : Except (PluginError E) _)) :
    n = floorMicros t ∧ n < 253402300800000000000 := by
  simp only [normalizeTimestamp, h.fromNanos] at hn
  split at hn
  next m hm =>
    split at hm
    next hr =>
      cases hm
      cases hn
      exact ⟨rfl, hr.2⟩
    next => cases hm
  next => cases hn

theorem normalizeTimestamp_of_floor (h : time.Lawful) {t : Int} (ht : InYears (floorMicros t)) :
    normalizeTimestamp time t = (.ok (floorMicros t) : Except (PluginError E) _) := by
  obtain ⟨h0, h1⟩ := ht
  unfold floorMicros at h0 h1
  simp only [normalizeTimestamp, h.fromNanos]
  rw [if_pos (by omega)]
  rfl

theorem normalizeTimestamp_of_inYears (h : time.Lawful) {t : Int} (ht : InYears t) :
    normalizeTimestamp time t = (.ok (floorMicros t) : Except (PluginError E) _) := by
  refine normalizeTimestamp_of_floor h ?_
  obtain ⟨h0, h1⟩ := ht
  refine ⟨?_, ?_⟩ <;> unfold floorMicros <;> omega

end Normalize

/-- Whole microseconds in the years 0 to 9999, as every stored instant is. -/
def Storable (t : Int) : Prop := InYears t ∧ t % 1000 = 0

theorem storable_floor {t : Int} (h : InYears t) : Storable (floorMicros t) := by
  obtain ⟨h0, h1⟩ := h
  refine ⟨⟨?_, ?_⟩, ?_⟩ <;> unfold floorMicros <;> omega

namespace ApprovalService

variable {Ctx : Type} (deps : Deps Ctx) (config : ApprovalPolicy)

/-- The body checks of `request`, on normalized instants. -/
def bodyRefused (body : RequestRequest) (requestedAt expiresAt : Int) : Bool :=
  !validRequestId body.requestId
    || !validIdempotencyKey body.idempotencyKey
    || !validReference body.requestedBy
    || !validKind body.approvalKind
    || !validKind body.subject.kind
    || !validReference body.subject.id
    || body.intentDigest.any (fun digest => !validIntentDigest digest)
    || (body.subject.kind == "management-operation" && body.intentDigest.isNone)
    || expiresAt ≤ requestedAt

/-- The intent of a body, with what the service adds. -/
def intentOf (caller : String) (body : RequestRequest) (requestedAt expiresAt : Int) :
    RequestIntent where
  requestId := body.requestId
  requesterInstance := caller
  idempotencyKey := body.idempotencyKey
  requestedBy := body.requestedBy
  approvalKind := body.approvalKind
  subjectKind := body.subject.kind
  subjectId := body.subject.id
  intentDigest := body.intentDigest
  requestedAt := requestedAt
  expiresAt := expiresAt

/-- The checks of `request` once the time is known: an intent, or the error. -/
def admission (time : TimeCrate) (caller : String) (body : RequestRequest) (now : Int) :
    Except (PluginError RequestError) RequestIntent := do
  let requestedAt ← normalizeTimestamp time now
  let some expiresAt := time.parse body.expiresAt
    | throw (.domain .invalidRequest)
  let expiresAt ← normalizeTimestamp time expiresAt
  if bodyRefused body requestedAt expiresAt then
    throw (.domain .invalidRequest)
  return intentOf caller body requestedAt expiresAt

/-- The response to what the store made of an intent. -/
def respondRequest :
    Except StorageError (Except DomainFailure RequestOutcome) →
      Except (PluginError RequestError) RequestResponse
  | .error e => .error (storageRuntime e)
  | .ok (.error failure) => .error (.domain (mapRequestFailure failure))
  | .ok (.ok outcome) =>
      (revisionString outcome.approval.revision).map fun revision => {
        created := outcome.created
        requestId := outcome.approval.requestId
        status := requestStatus outcome.approval.status
        revision }

/-- The response to what the store made of a transition. -/
def respondTransition {E : Type} (mapFailure : DomainFailure → E)
    (build : StoredApproval → Except (PluginError E) TransitionResponse) :
    Except StorageError (Except DomainFailure StoredApproval) →
      Except (PluginError E) TransitionResponse
  | .error e => .error (storageRuntime e)
  | .ok (.error failure) => .error (.domain (mapFailure failure))
  | .ok (.ok approval) => build approval

def respondRead (time : TimeCrate) :
    Except StorageError (Option StoredApproval) → Except (PluginError ReadError) ReadResponse
  | .error e => .error (storageRuntime e)
  | .ok none => .error (.domain .requestNotFound)
  | .ok (some approval) => readResponse time approval

/-- What `request` does with the outcome of its checks. -/
def submit : Except (PluginError RequestError) RequestIntent →
    Prog StoreRes (PluginResult RequestResponse RequestError)
  | .error e => .ret (.error e)
  | .ok intent => .call (.request intent) fun answer => .ret (respondRequest answer)

theorem request_eq (context : Ctx) (body : RequestRequest) :
    (ApprovalService.request deps config context body).run
      = match authorizedCaller deps config context ApprovalPolicy.canRequest with
        | none => .ret (.error (.domain .forbidden))
        | some caller => .call .now fun
          | .error e => .ret (.error (storageRuntime e))
          | .ok now => submit (admission deps.time caller body now) := by
  unfold ApprovalService.request
  cases authorizedCaller deps config context ApprovalPolicy.canRequest with
  | none => rfl
  | some caller =>
    refine congrArg (Prog.call _) (funext fun answer => ?_)
    cases answer with
    | error e => rfl
    | ok now =>
      change ExceptT.run (Prog.ofExcept (normalizeTimestamp deps.time now) >>= _)
        = submit (admission deps.time caller body now)
      unfold admission
      rw [Prog.ofExcept_bind]
      -- each early return of the service ends both sides alike
      cases normalizeTimestamp deps.time now with
      | error e => rfl
      | ok requestedAt =>
        cases deps.time.parse body.expiresAt with
        | none => rfl
        | some expiresAt =>
          change ExceptT.run (Prog.ofExcept (normalizeTimestamp deps.time expiresAt) >>= _) = _
          rw [Prog.ofExcept_bind]
          simp only [bind, Except.bind]
          cases normalizeTimestamp deps.time expiresAt with
          | error e => rfl
          | ok expiresAt =>
            change ExceptT.run (if bodyRefused body requestedAt expiresAt = true then _ else _)
              = submit (if bodyRefused body requestedAt expiresAt = true then _ else _)
            cases bodyRefused body requestedAt expiresAt with
            | true => rfl
            | false =>
              refine congrArg (Prog.call _) (funext fun answer => ?_)
              match answer with
              | .error e => rfl
              | .ok (.error failure) => rfl
              | .ok (.ok outcome) =>
                change ExceptT.run (Prog.ofExcept (revisionString outcome.approval.revision) >>= _)
                  = _
                rw [Prog.ofExcept_bind, respondRequest]
                cases revisionString outcome.approval.revision with
                | error e => rfl
                | ok revision => rfl

/-- The body checks of `decide`. -/
def decisionRefused (body : DecideRequest) : Bool :=
  !validRequestId body.requestId
    || !validReference body.decidedBy
    || !validReference body.evidenceRef
    || !validReason body.reason

/-- The status a decision asks for. -/
def decidedStatus : DecideRequestDecision → ApprovalStatus
  | .approved => .approved
  | .rejected => .rejected

theorem decide_eq (context : Ctx) (body : DecideRequest) :
    (ApprovalService.decide deps config context body).run
      = match authorizedCaller deps config context ApprovalPolicy.canDecide with
        | none => .ret (.error (.domain .forbidden))
        | some caller =>
          if deps.deniesHumanContext context then .ret (.error (.domain .forbidden))
          else if decisionRefused body then .ret (.error (.domain .invalidRequest))
          else .call (.decide body.requestId (decidedStatus body.decision) caller body.decidedBy
            body.evidenceRef body.reason) fun answer =>
              .ret (respondTransition mapDecideFailure (decideResponse deps.time) answer) := by
  unfold ApprovalService.decide
  cases authorizedCaller deps config context ApprovalPolicy.canDecide with
  | none => rfl
  | some caller =>
    change ExceptT.run (if deps.deniesHumanContext context = true then _ else _) = _
    cases deps.deniesHumanContext context with
    | true => rfl
    | false =>
      change ExceptT.run (if decisionRefused body = true then _ else _) = _
      cases decisionRefused body with
      | true => rfl
      | false =>
        -- either decision is one call of the store
        cases hd : body.decision <;>
        · refine congrArg (Prog.call _) (funext fun answer => ?_)
          match answer with
          | .error e => rfl
          | .ok (.error failure) => rfl
          | .ok (.ok approval) => rfl

/-- The body checks of `cancel`. -/
def cancellationRefused (body : CancelRequest) : Bool :=
  !validRequestId body.requestId || !validReference body.cancelledBy || !validReason body.reason

theorem cancel_eq (context : Ctx) (body : CancelRequest) :
    (ApprovalService.cancel deps config context body).run
      = match authorizedCaller deps config context ApprovalPolicy.canRequest with
        | none => .ret (.error (.domain .forbidden))
        | some caller =>
          if cancellationRefused body then .ret (.error (.domain .invalidRequest))
          else .call (.cancel body.requestId caller body.cancelledBy body.reason) fun answer =>
            .ret (respondTransition mapCancelFailure (cancelResponse deps.time) answer) := by
  unfold ApprovalService.cancel
  cases authorizedCaller deps config context ApprovalPolicy.canRequest with
  | none => rfl
  | some caller =>
    change ExceptT.run (if cancellationRefused body = true then _ else _) = _
    cases cancellationRefused body with
    | true => rfl
    | false =>
      refine congrArg (Prog.call _) (funext fun answer => ?_)
      match answer with
      | .error e => rfl
      | .ok (.error failure) => rfl
      | .ok (.ok approval) => rfl

theorem read_eq (context : Ctx) (body : ReadRequest) :
    (ApprovalService.read deps config context body).run
      = match authorizedCaller deps config context ApprovalPolicy.canRead with
        | none => .ret (.error (.domain .forbidden))
        | some caller =>
          if !validRequestId body.requestId then .ret (.error (.domain .invalidRequest))
          else .call (.read body.requestId
              (if !config.canReadAnyRequest caller then some caller else none)) fun answer =>
            .ret (respondRead deps.time answer) := by
  unfold ApprovalService.read
  cases authorizedCaller deps config context ApprovalPolicy.canRead with
  | none => rfl
  | some caller =>
    change ExceptT.run (if (!validRequestId body.requestId) = true then _ else _) = _
    cases validRequestId body.requestId with
    | false => rfl
    | true =>
      refine congrArg (Prog.call _) (funext fun answer => ?_)
      match answer with
      | .error e => rfl
      | .ok none => rfl
      | .ok (some approval) => rfl

theorem expire_eq (context : Ctx) (body : ExpireRequest) :
    (ApprovalService.expire deps config context body).run
      = match authorizedCaller deps config context ApprovalPolicy.canExpire with
        | none => .ret (.error (.domain .forbidden))
        | some caller =>
          if !validRequestId body.requestId then .ret (.error (.domain .invalidRequest))
          else .call (.expire body.requestId caller) fun answer =>
            .ret (respondTransition mapExpireFailure (expireResponse deps.time) answer) := by
  unfold ApprovalService.expire
  cases authorizedCaller deps config context ApprovalPolicy.canExpire with
  | none => rfl
  | some caller =>
    change ExceptT.run (if (!validRequestId body.requestId) = true then _ else _) = _
    cases validRequestId body.requestId with
    | false => rfl
    | true =>
      refine congrArg (Prog.call _) (funext fun answer => ?_)
      match answer with
      | .error e => rfl
      | .ok (.error failure) => rfl
      | .ok (.ok approval) => rfl

/-! ## What passes the checks -/

/-- What the owner's validators say of the fields of a request. -/
structure FieldsValid (id key requester kind subject subjectId : String) (digest : Option String) :
    Prop where
  requestId : validRequestId id = true
  idempotencyKey : validIdempotencyKey key = true
  requestedBy : validReference requester = true
  approvalKind : validKind kind = true
  subjectKind : validKind subject = true
  subjectId : validReference subjectId = true
  intentDigest : ∀ d, digest = some d → validIntentDigest d = true
  management : subject = "management-operation" → digest.isSome = true

theorem bodyRefused_eq_false {body : RequestRequest} {requestedAt expiresAt : Int} :
    bodyRefused body requestedAt expiresAt = false ↔
      FieldsValid body.requestId body.idempotencyKey body.requestedBy body.approvalKind
        body.subject.kind body.subject.id body.intentDigest ∧ requestedAt < expiresAt := by
  have hdigest : body.intentDigest.any (fun digest => !validIntentDigest digest) = false ↔
      ∀ digest, body.intentDigest = some digest → validIntentDigest digest = true := by
    cases body.intentDigest <;> simp
  have hmanage : (body.subject.kind == "management-operation" && body.intentDigest.isNone) = false ↔
      (body.subject.kind = "management-operation" → body.intentDigest.isSome = true) := by
    cases body.intentDigest <;> simp
  simp only [bodyRefused, Bool.or_eq_false_iff, Bool.not_eq_false', decide_eq_false_iff_not, hdigest,
    hmanage]
  constructor
  · rintro ⟨⟨⟨⟨⟨⟨⟨⟨h1, h2⟩, h3⟩, h4⟩, h5⟩, h6⟩, h7⟩, h8⟩, h9⟩
    exact ⟨⟨h1, h2, h3, h4, h5, h6, h7, h8⟩, by omega⟩
  · rintro ⟨⟨h1, h2, h3, h4, h5, h6, h7, h8⟩, h9⟩
    exact ⟨⟨⟨⟨⟨⟨⟨⟨h1, h2⟩, h3⟩, h4⟩, h5⟩, h6⟩, h7⟩, h8⟩, by omega⟩

/-- An intent is the caller's. -/
theorem requester_of_admission {time : TimeCrate} {caller : String} {body : RequestRequest} {now : Int}
    {intent : RequestIntent} (h : admission time caller body now = .ok intent) :
    intent.requesterInstance = caller := by
  unfold admission at h
  simp only [bind, Except.bind] at h
  split at h
  next => cases h
  next requestedAt hreq =>
    split at h
    next expiresAt hexp =>
      split at h
      next => cases h
      next =>
        split at h
        next => cases h
        next => cases h; rfl
    next => cases h

/-- An admitted body: its deadline parses, and the intent is the body on floored instants. -/
structure Admits (time : TimeCrate) (caller : String) (body : RequestRequest) (now : Int)
    (intent : RequestIntent) : Prop where
  deadline : ∃ expiresAt, time.parse body.expiresAt = some expiresAt
    ∧ intent = intentOf caller body (floorMicros now) (floorMicros expiresAt)
  fields : FieldsValid body.requestId body.idempotencyKey body.requestedBy body.approvalKind
    body.subject.kind body.subject.id body.intentDigest
  order : intent.requestedAt < intent.expiresAt
  requestedAt : Storable intent.requestedAt
  expiresAt : Storable intent.expiresAt

theorem admission_ok {time : TimeCrate} (h : time.Lawful) {caller : String} {body : RequestRequest}
    {now : Int} (hnow : InYears now) {intent : RequestIntent}
    (hi : admission time caller body now = .ok intent) : Admits time caller body now intent := by
  unfold admission at hi
  rw [normalizeTimestamp_of_inYears h hnow] at hi
  simp only [bind, Except.bind] at hi
  cases hp : time.parse body.expiresAt with
  | none => rw [hp] at hi; cases hi
  | some expiresAt =>
    rw [hp] at hi
    simp only at hi
    cases hn : (normalizeTimestamp time expiresAt : Except (PluginError RequestError) Int) with
    | error e => rw [hn] at hi; cases hi
    | ok micros =>
      obtain ⟨rfl, hmax⟩ := normalizeTimestamp_ok h hn
      rw [hn] at hi
      simp only at hi
      cases hb : bodyRefused body (floorMicros now) (floorMicros expiresAt) with
      | true => rw [hb, if_pos rfl] at hi; cases hi
      | false =>
        rw [hb, if_neg (by decide)] at hi
        cases hi
        -- the fields are valid, and the deadline is ahead
        obtain ⟨hfields, horder⟩ := bodyRefused_eq_false.mp hb
        have hreq := storable_floor hnow
        refine ⟨⟨expiresAt, hp, rfl⟩, hfields, horder, hreq, ?_⟩
        have hlow := hreq.1.1
        exact ⟨⟨by simp only [intentOf]; omega, hmax⟩, by simp only [intentOf, floorMicros]; omega⟩

/-- The checks of `request` have one refusal. -/
theorem admission_refusal {time : TimeCrate} {caller : String} {body : RequestRequest} {now : Int}
    {e : RequestError} (h : admission time caller body now = .error (.domain e)) :
    e = .invalidRequest := by
  -- normalizing fails in the runtime, if at all
  have hnormalize : ∀ t, (normalizeTimestamp time t : Except (PluginError RequestError) Int)
      ≠ .error (.domain e) := by
    intro t hn
    unfold normalizeTimestamp at hn
    simp only at hn
    split at hn <;> cases hn
  unfold admission at h
  simp only [bind, Except.bind] at h
  split at h
  next e' hn =>
    cases h
    exact absurd hn (hnormalize now)
  next =>
    split at h
    next expiresAt _ =>
      split at h
      next e' hn =>
        cases h
        exact absurd hn (hnormalize expiresAt)
      next =>
        split at h
        next => cases h; rfl
        next => cases h
    next => cases h; rfl

/-- A body that passes the checks of `request` at an instant. -/
def Passes (time : TimeCrate) (body : RequestRequest) (now : Int) : Prop :=
  FieldsValid body.requestId body.idempotencyKey body.requestedBy body.approvalKind
      body.subject.kind body.subject.id body.intentDigest
    ∧ ∃ expiresAt, time.parse body.expiresAt = some expiresAt ∧ Holdable expiresAt
      ∧ floorMicros now < floorMicros expiresAt

theorem admission_of_passes {time : TimeCrate} (h : time.Lawful) {body : RequestRequest}
    {now : Int} (hnow : InYears now) (caller : String) (hp : Passes time body now) :
    ∃ intent, admission time caller body now = .ok intent := by
  obtain ⟨hfields, expiresAt, hparse, hhold, hlt⟩ := hp
  -- the deadline can be held, so it is cut to microseconds
  have hn : (normalizeTimestamp time expiresAt : Except (PluginError RequestError) Int)
      = .ok (floorMicros expiresAt) := by
    obtain ⟨h0, h1⟩ := hhold
    simp only [normalizeTimestamp, h.fromNanos]
    rw [if_pos (by omega)]
    rfl
  have hb : bodyRefused body (floorMicros now) (floorMicros expiresAt) = false :=
    bodyRefused_eq_false.mpr ⟨hfields, hlt⟩
  refine ⟨intentOf caller body (floorMicros now) (floorMicros expiresAt), ?_⟩
  unfold admission
  rw [normalizeTimestamp_of_inYears h hnow, hparse]
  simp only [bind, Except.bind, hn, hb, Bool.false_eq_true, if_false]
  rfl

/-! ## What is sent -/

/-- The store calls a service call can make. -/
inductive Sends : ServiceCall Ctx → StoreOp → Prop
  | now (context : Ctx) (body : RequestRequest) : Sends (.request context body) .now
  | request {context : Ctx} {body : RequestRequest} {caller : String} {now : Int}
      {intent : RequestIntent}
      (hcaller : authorizedCaller deps config context ApprovalPolicy.canRequest = some caller)
      (hadmitted : Admits deps.time caller body now intent) :
      Sends (.request context body) (.request intent)
  | decide {context : Ctx} {body : DecideRequest} {caller : String}
      (hcaller : authorizedCaller deps config context ApprovalPolicy.canDecide = some caller)
      (hhuman : deps.deniesHumanContext context = false) (hbody : decisionRefused body = false) :
      Sends (.decide context body) (.decide body.requestId (decidedStatus body.decision) caller
        body.decidedBy body.evidenceRef body.reason)
  | cancel {context : Ctx} {body : CancelRequest} {caller : String}
      (hcaller : authorizedCaller deps config context ApprovalPolicy.canRequest = some caller)
      (hbody : cancellationRefused body = false) :
      Sends (.cancel context body) (.cancel body.requestId caller body.cancelledBy body.reason)
  | read {context : Ctx} {body : ReadRequest} {caller : String}
      (hcaller : authorizedCaller deps config context ApprovalPolicy.canRead = some caller)
      (hbody : validRequestId body.requestId = true) :
      Sends (.read context body) (.read body.requestId
        (if !config.canReadAnyRequest caller then some caller else none))
  | expire {context : Ctx} {body : ExpireRequest} {caller : String}
      (hcaller : authorizedCaller deps config context ApprovalPolicy.canExpire = some caller)
      (hbody : validRequestId body.requestId = true) :
      Sends (.expire context body) (.expire body.requestId caller)

/-- The store calls that fit what a backend keeps, whoever makes them. -/
def Admissible : StoreOp → Prop
  | .request intent => Storable intent.requestedAt ∧ Storable intent.expiresAt
      ∧ intent.requestedAt < intent.expiresAt
      ∧ ∀ digest, intent.intentDigest = some digest → validIntentDigest digest = true
  | .decide _ status _ _ _ _ => status = .approved ∨ status = .rejected
  | _ => True

theorem Admits.admissible {time : TimeCrate} {caller : String} {body : RequestRequest} {now : Int}
    {intent : RequestIntent} (h : Admits time caller body now intent) :
    Admissible (.request intent) := by
  obtain ⟨expiresAt, -, rfl⟩ := h.deadline
  exact ⟨h.requestedAt, h.expiresAt, h.order, h.fields.intentDigest⟩

theorem Sends.admissible {deps : Deps Ctx} {config : ApprovalPolicy} {call : ServiceCall Ctx}
    {o : StoreOp} (h : Sends deps config call o) : Admissible o := by
  cases h with
  | now => trivial
  | request hcaller hadmitted => exact hadmitted.admissible
  | @decide context body =>
      cases hd : body.decision with
      | approved => exact Or.inl rfl
      | rejected => exact Or.inr rfl
  | cancel => trivial
  | read => trivial
  | expire => trivial

/-- What is expected of a store's answers: its clock is in the years 0 to 9999. -/
def Answers : (o : StoreOp) → StoreRes o → Prop
  | .now, .ok now => InYears now
  | _, _ => True

/-- **A service call makes no store call but those its checks allow.** -/
theorem serve_emits (h : deps.time.Lawful) (call : ServiceCall Ctx) :
    (serve deps config call).Emits (Sends deps config call) Answers := by
  cases call with
  | request context body =>
      refine Prog.emits_bind ?_ (fun _ => trivial)
      rw [request_eq]
      cases hc : authorizedCaller deps config context ApprovalPolicy.canRequest with
      | none => trivial
      | some caller =>
          refine ⟨.now context body, fun answer hanswer => ?_⟩
          match answer with
          | .error e => trivial
          | .ok now =>
              cases ha : admission deps.time caller body now with
              -- a refused admission sends nothing to the store
              | error e => simp only [ha]; trivial
              | ok intent =>
                  simp only [ha]
                  exact ⟨.request hc (admission_ok h hanswer ha), fun _ _ => trivial⟩
  | decide context body =>
      refine Prog.emits_bind ?_ (fun _ => trivial)
      rw [decide_eq]
      cases hc : authorizedCaller deps config context ApprovalPolicy.canDecide with
      | none => trivial
      | some caller =>
          cases hh : deps.deniesHumanContext context with
          | true => trivial
          | false =>
              cases hb : decisionRefused body with
              | true => trivial
              | false => exact ⟨.decide hc hh hb, fun _ _ => trivial⟩
  | cancel context body =>
      refine Prog.emits_bind ?_ (fun _ => trivial)
      rw [cancel_eq]
      cases hc : authorizedCaller deps config context ApprovalPolicy.canRequest with
      | none => trivial
      | some caller =>
          cases hb : cancellationRefused body with
          | true => trivial
          | false => exact ⟨.cancel hc hb, fun _ _ => trivial⟩
  | read context body =>
      refine Prog.emits_bind ?_ (fun _ => trivial)
      rw [read_eq]
      cases hc : authorizedCaller deps config context ApprovalPolicy.canRead with
      | none => trivial
      | some caller =>
          cases hb : validRequestId body.requestId with
          | false => trivial
          | true => exact ⟨.read hc hb, fun _ _ => trivial⟩
  | expire context body =>
      refine Prog.emits_bind ?_ (fun _ => trivial)
      rw [expire_eq]
      cases hc : authorizedCaller deps config context ApprovalPolicy.canExpire with
      | none => trivial
      | some caller =>
          cases hb : validRequestId body.requestId with
          | false => trivial
          | true => exact ⟨.expire hc hb, fun _ _ => trivial⟩

end ApprovalService

end BusinessApproval
