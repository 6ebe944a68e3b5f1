import BusinessApproval.Proof.Calendar
import BusinessApproval.Proof.Conform
import BusinessApproval.Proof.Outcomes
import BusinessApproval.Proof.ReasonLimit
import BusinessApproval.Proof.Resolution

/-!
# What the service asks beyond the schemas

Whoever may make a call is told that it is invalid if its body is not valid under the
published schema, and for a few reasons more, which no schema states: a management
operation without a digest, a deadline that is not ahead, and a reason that cannot be read
or has too many bytes. These are all. A deadline that the `time` crate cannot hold makes the
runtime fail before any of this is looked at.
-/

namespace BusinessApproval

open ApprovalService

variable {Ctx : Type}

/-- The body of a call is valid under the schema of its operation, as it is sent. -/
def ServiceCall.SchemaValid (dateTime : JsonSchema.Keyword) : ServiceCall Ctx → Prop
  | .request _ body => Published.requestRequest dateTime body.serialize
  | .decide _ body => Published.decideRequest body.serialize
  | .cancel _ body => Published.cancelRequest body.serialize
  | .read _ body => Published.readRequest body.serialize
  | .expire _ body => Published.expireRequest body.serialize

/-- Who calls may make calls of the kind. -/
def ServiceCall.Entitled (deps : Deps Ctx) (config : ApprovalPolicy) : ServiceCall Ctx → Prop
  | .request context _ => permitted deps config context ApprovalPolicy.canRequest = true
  | .decide context _ => permitted deps config context ApprovalPolicy.canDecide = true
      ∧ deps.deniesHumanContext context = false
  | .cancel context _ => permitted deps config context ApprovalPolicy.canRequest = true
  | .read context _ => permitted deps config context ApprovalPolicy.canRead = true
  | .expire context _ => permitted deps config context ApprovalPolicy.canExpire = true

/-- A reason, if there is one, can be read, and has at most 1000 bytes. -/
def Legible (reason : Option String) : Prop :=
  ∀ s, reason = some s → Printable s ∧ s.utf8ByteSize ≤ 1000

/-- What is wrong with a call, besides what its schema says. -/
inductive ServiceCall.Beyond (time : TimeCrate) (now : Int) : ServiceCall Ctx → Prop
  | undigested {context : Ctx} {body : RequestRequest}
      (hkind : body.subject.kind = "management-operation") (hdigest : body.intentDigest = none) :
      Beyond time now (.request context body)
  | due {context : Ctx} {body : RequestRequest} {t : Int}
      (hparse : time.parse body.expiresAt = some t) (hdue : floorMicros t ≤ floorMicros now) :
      Beyond time now (.request context body)
  | decision {context : Ctx} {body : DecideRequest} (hreason : ¬ Legible body.reason) :
      Beyond time now (.decide context body)
  | cancellation {context : Ctx} {body : CancelRequest} (hreason : ¬ Legible body.reason) :
      Beyond time now (.cancel context body)

/-- The deadline of a request is out of the range of the `time` crate. -/
def ServiceCall.OutOfRange (time : TimeCrate) (call : ServiceCall Ctx) : Prop :=
  ∃ context body t, call = .request context body ∧ time.parse body.expiresAt = some t ∧ ¬ Holdable t

/-- Whoever may make a call with such a deadline goes beyond the calendar with it. -/
theorem ServiceCall.OutOfRange.beyondCalendar {deps : Deps Ctx} {config : ApprovalPolicy}
    {call : ServiceCall Ctx} (h : call.OutOfRange deps.time) (hentitled : call.Entitled deps config) :
    BeyondCalendar deps config call := by
  obtain ⟨context, body, t, rfl, hparse, hhold⟩ := h
  obtain ⟨caller, -, hcaller⟩ := authorized_of_permitted hentitled
  exact ⟨context, body, caller, t, rfl, hcaller, hparse, hhold⟩

/-- The answer that a call is invalid. -/
def Response.invalid : Response → Bool
  | .request (.error (.domain .invalidRequest)) => true
  | .decide (.error (.domain .invalidRequest)) => true
  | .cancel (.error (.domain .invalidRequest)) => true
  | .read (.error (.domain .invalidRequest)) => true
  | .expire (.error (.domain .invalidRequest)) => true
  | _ => false

/-! ## Bodies -/

section Bodies

variable {time : TimeCrate} {dateTime : JsonSchema.Keyword}

theorem validReason_iff {reason : Option String} : validReason reason = true ↔ Legible reason := by
  cases reason with
  | none => exact iff_of_true rfl fun s hs => (by cases hs)
  | some s =>
      have hsome : Legible (some s) ↔ Printable s ∧ s.utf8ByteSize ≤ 1000 := by
        constructor
        · exact fun h => h s rfl
        · intro h s' hs
          cases hs
          exact h
      rw [hsome]
      constructor
      · intro hvalid
        have hparts := hvalid
        simp only [validReason, Option.all_some, Bool.and_eq_true, Bool.not_eq_true',
          List.isEmpty_eq_false_iff, ne_eq, trim_eq_nil_iff, not_forall, Bool.not_eq_true,
          List.any_eq_false] at hparts
        obtain ⟨⟨⟨c, hc, hvisible⟩, -⟩, hcontrol⟩ := hparts
        have hprintable : Printable s := ⟨⟨c, hc, hvisible⟩, hcontrol⟩
        exact ⟨hprintable, hprintable.validReason_iff.mp hvalid⟩
      · rintro ⟨hprintable, hbytes⟩
        exact hprintable.validReason_iff.mpr hbytes

theorem Legible.atMost {reason : Option String} (h : Legible reason) : AtMost 1000 reason :=
  fun s hs => (length_le_utf8ByteSize s).trans (h s hs).2

theorem validRequestId_iff {id : String} :
    validRequestId id = true ↔ RequestSchema.requestId.Admits id :=
  admits_plus_iff tests_identifier

theorem validReference_iff {reference : String} :
    validReference reference = true ↔ RequestSchema.requestedBy.Admits reference :=
  admits_plus_iff tests_reference

/-- The fields of a request are as its schema has them, and a management operation has a digest. -/
theorem fieldsValid_iff {body : RequestRequest} (hdate : dateTime body.expiresAt) :
    FieldsValid body.requestId body.idempotencyKey body.requestedBy body.approvalKind
        body.subject.kind body.subject.id body.intentDigest
      ↔ body.Admits dateTime
        ∧ (body.subject.kind = "management-operation" → body.intentDigest ≠ none) := by
  constructor
  · intro h
    refine ⟨⟨validRequestId_iff.mp h.requestId, (admits_plus_iff tests_identifier).mp
      h.idempotencyKey, validReference_iff.mp h.requestedBy, validKind_iff.mp h.approvalKind,
      ⟨validKind_iff.mp h.subjectKind, (admits_plus_iff tests_reference).mp h.subjectId⟩, hdate,
      fun digest hd => validIntentDigest_iff.mp (h.intentDigest digest hd)⟩, fun hkind => ?_⟩
    exact Option.isSome_iff_ne_none.mp (h.management hkind)
  · rintro ⟨h, hmanagement⟩
    exact {
      requestId := validRequestId_iff.mpr h.requestId
      idempotencyKey := (admits_plus_iff tests_identifier).mpr h.idempotencyKey
      requestedBy := validReference_iff.mpr h.requestedBy
      approvalKind := validKind_iff.mpr h.approvalKind
      subjectKind := validKind_iff.mpr h.subject.kind
      subjectId := (admits_plus_iff tests_reference).mpr h.subject.id
      intentDigest := fun digest hd => validIntentDigest_iff.mpr (h.intentDigest digest hd)
      management := fun hkind => Option.isSome_iff_ne_none.mpr (hmanagement hkind) }

theorem decisionRefused_iff {body : DecideRequest} :
    decisionRefused body = false ↔ body.Admits ∧ Legible body.reason := by
  simp only [decisionRefused, Bool.or_eq_false_iff, Bool.not_eq_false', validRequestId_iff,
    validReference_iff, validReason_iff]
  constructor
  · rintro ⟨⟨⟨hid, hactor⟩, hevidence⟩, hreason⟩
    exact ⟨⟨hid, hactor, hevidence, hreason.atMost⟩, hreason⟩
  · rintro ⟨h, hreason⟩
    exact ⟨⟨⟨h.requestId, h.decidedBy⟩, h.evidenceRef⟩, hreason⟩

theorem cancellationRefused_iff {body : CancelRequest} :
    cancellationRefused body = false ↔ body.Admits ∧ Legible body.reason := by
  simp only [cancellationRefused, Bool.or_eq_false_iff, Bool.not_eq_false', validRequestId_iff,
    validReference_iff, validReason_iff]
  constructor
  · rintro ⟨⟨hid, hactor⟩, hreason⟩
    exact ⟨⟨hid, hactor, hreason.atMost⟩, hreason⟩
  · rintro ⟨h, hreason⟩
    exact ⟨⟨h.requestId, h.cancelledBy⟩, hreason⟩

/-- What a call says is what its schema asks for. -/
def ServiceCall.Admits (dateTime : JsonSchema.Keyword) : ServiceCall Ctx → Prop
  | .request _ body => body.Admits dateTime
  | .decide _ body => body.Admits
  | .cancel _ body => body.Admits
  | .read _ body => RequestSchema.requestId.Admits body.requestId
  | .expire _ body => RequestSchema.requestId.Admits body.requestId

theorem schemaValid_iff (call : ServiceCall Ctx) :
    call.SchemaValid dateTime ↔ call.Admits dateTime := by
  have hruntime : ContractRuntime.Lawful ⟨fun read => read⟩ := fun _ _ => rfl
  cases call with
  | request context body => exact (RequestRequest.agree hruntime).writes body
  | decide context body => exact (DecideRequest.agree hruntime).writes body
  | cancel context body => exact (CancelRequest.agree hruntime).writes body
  | read context body => exact (ReadRequest.agree hruntime).writes body
  | expire context body => exact (ExpireRequest.agree hruntime).writes body

end Bodies

/-! ## On the ledger -/

section Ledger

variable {deps : Deps Ctx} {config : ApprovalPolicy} {m : Moments} {L : Ledger} {context : Ctx}

/-- Whether a transition is called invalid is up to its refusals. -/
theorem Ledger.Answers.invalid {E : Type} {time : TimeCrate}
    {wrap : PluginResult TransitionResponse E → Response} {id : String} {set : Settlement}
    {instant : Int} {refusal : Option E} {result : Response × Ledger}
    (h : L.Answers time wrap id set instant refusal result) (invalidRequest : E)
    (hok : ∀ r, (wrap (.ok r)).invalid = false)
    (herror : ∀ e, (wrap (.error (.domain e))).invalid = true ↔ e = invalidRequest) :
    result.1.invalid = true ↔ refusal = some invalidRequest := by
  cases h with
  | refused e => rw [herror, Option.some.injEq]
  | made ha hr =>
      rw [hok]
      exact iff_of_false Bool.false_ne_true (fun heq => by cases heq)

theorem decideRefusal_invalid {body : DecideRequest} {found : Option StoredApproval}
    (hp : permitted deps config context ApprovalPolicy.canDecide = true)
    (hh : deps.deniesHumanContext context = false) :
    decideRefusal deps config context body found = some .invalidRequest
      ↔ decisionRefused body = true := by
  have hbody : (!(validRequestId body.requestId && validReference body.decidedBy
      && validReference body.evidenceRef && validReason body.reason)) = decisionRefused body := by
    simp only [decisionRefused, Bool.not_and]
  rw [decideRefusal, hbody]
  simp only [firstOf_cons, hp, hh, Bool.not_true, Bool.or_false, Bool.false_eq_true, if_false]
  cases decisionRefused body with
  | true => exact iff_of_true rfl rfl
  | false =>
      refine iff_of_false (fun heq => ?_) Bool.false_ne_true
      simp only [Bool.false_eq_true, if_false, firstOf_nil] at heq
      split at heq
      next => cases heq
      next => split at heq <;> cases heq

theorem cancelRefusal_invalid {body : CancelRequest} {found : Option StoredApproval}
    (hp : permitted deps config context ApprovalPolicy.canRequest = true) :
    cancelRefusal deps config context body found = some .invalidRequest
      ↔ cancellationRefused body = true := by
  have hbody : (!(validRequestId body.requestId && validReference body.cancelledBy
      && validReason body.reason)) = cancellationRefused body := by
    simp only [cancellationRefused, Bool.not_and]
  rw [cancelRefusal, hbody]
  simp only [firstOf_cons, hp, Bool.not_true, Bool.false_eq_true, if_false]
  cases cancellationRefused body with
  | true => exact iff_of_true rfl rfl
  | false =>
      refine iff_of_false (fun heq => ?_) Bool.false_ne_true
      simp only [Bool.false_eq_true, if_false, firstOf_nil] at heq
      split at heq
      next => cases heq
      next =>
        split at heq
        next => cases heq
        next => split at heq <;> cases heq

theorem expireRefusal_invalid {body : ExpireRequest} {clock : Int} {found : Option StoredApproval}
    (hp : permitted deps config context ApprovalPolicy.canExpire = true) :
    expireRefusal deps config context body clock found = some .invalidRequest
      ↔ validRequestId body.requestId = false := by
  rw [expireRefusal]
  simp only [firstOf_cons, hp, Bool.not_true, Bool.false_eq_true, if_false]
  cases validRequestId body.requestId with
  | false => exact iff_of_true rfl rfl
  | true =>
      refine iff_of_false (fun heq => ?_) (fun heq => by cases heq)
      simp only [Bool.not_true, Bool.false_eq_true, if_false, firstOf_nil] at heq
      split at heq
      next => cases heq
      next =>
        split at heq
        next => cases heq
        next => split at heq <;> cases heq

theorem read_invalid (hlaw : deps.time.Lawful) (hL : L.Sound) {body : ReadRequest}
    (hp : permitted deps config context ApprovalPolicy.canRead = true) :
    (L.serve deps config m (.read context body)).1.invalid = true
      ↔ validRequestId body.requestId = false := by
  obtain ⟨caller, -, hauth⟩ := authorized_of_permitted hp
  rw [serve_read, hauth]
  simp only
  cases validRequestId body.requestId with
  | false => exact iff_of_true rfl rfl
  | true =>
      -- what is found under a valid id can be presented
      refine iff_of_false (fun heq => ?_) (fun heq => by cases heq)
      simp only [Bool.not_true, Bool.false_eq_true, if_false] at heq
      cases ha : L.read body.requestId
          (if !config.canReadAnyRequest caller then some caller else none) with
      | none =>
          rw [ha] at heq
          cases heq
      | some a =>
          have hfound : L body.requestId = some a := (Option.filter_eq_some_iff.mp ha).1
          obtain ⟨r, hr⟩ :=
            readResponse_isOk (presentable_of_sound hlaw (hL.approvals hfound))
          rw [ha, respondRead, hr] at heq
          cases heq

/-- A deadline out of range makes the checks fail in the runtime. -/
theorem admission_of_outOfRange {time : TimeCrate} (hlaw : time.Lawful) {caller : String}
    {body : RequestRequest} {now t : Int} (hnow : InYears now)
    (hparse : time.parse body.expiresAt = some t) (ht : ¬ Holdable t) :
    ∃ failure, admission time caller body now = .error (.runtime failure) := by
  have hnormalize : (normalizeTimestamp time t : Except (PluginError RequestError) Int)
      = .error (invalidRequestRuntime "timestamp is outside PostgreSQL range") := by
    simp only [normalizeTimestamp, hlaw.fromNanos]
    rw [if_neg]
    unfold Holdable at ht
    omega
  unfold admission
  rw [normalizeTimestamp_of_inYears hlaw hnow, hparse]
  simp only [bind, Except.bind, hnormalize]
  exact ⟨_, rfl⟩

theorem passes_of_admits {time : TimeCrate} {caller : String} {body : RequestRequest} {now : Int}
    {intent : RequestIntent} (h : ApprovalService.Admits time caller body now intent) :
    Passes time body now := by
  obtain ⟨t, hparse, rfl⟩ := h.deadline
  have hyears : InYears (floorMicros t) := h.expiresAt.1
  refine ⟨h.fields, t, hparse, ?_, h.order⟩
  unfold InYears floorMicros at hyears
  unfold Holdable
  omega

/-- What the ledger answers to an intent is not that it is invalid. -/
theorem respondRequest_invalid (hL : L.Sound) (intent : RequestIntent) (hlaw : deps.time.Lawful) :
    (Response.request (respondRequest (.ok (L.request intent).1))).invalid = false := by
  have hresolves := Ledger.request_resolves hL.wellKeyed intent
  generalize L.request intent = outcome at hresolves
  cases hresolves with
  | created => rfl
  | repeated ha =>
      simp only [respondRequest,
        (presentable_of_sound hlaw (hL.approvals ha)).revisionString]
      rfl
  | conflict => rfl

theorem request_invalid (hlaw : deps.time.Lawful) (hm : m.InYears) (hL : L.Sound)
    {body : RequestRequest}
    (hp : permitted deps config context ApprovalPolicy.canRequest = true) :
    (L.serve deps config m (.request context body)).1.invalid = true
      ↔ ¬ (ServiceCall.request context body).OutOfRange deps.time
        ∧ ¬ Passes deps.time body m.now := by
  obtain ⟨caller, -, hauth⟩ := authorized_of_permitted hp
  rw [serve_request, hauth]
  simp only
  cases ha : admission deps.time caller body m.now with
  | ok intent =>
      have hpasses := passes_of_admits (admission_ok hlaw hm.now ha)
      have hvalid : (Response.request (respondRequest (.ok (L.request intent).1))).invalid
          = false := respondRequest_invalid hL intent hlaw
      exact iff_of_false (fun heq => by rw [hvalid] at heq; cases heq) fun h => h.2 hpasses
  | error e =>
      cases e with
      | runtime failure =>
          obtain ⟨t, hparse, ht, -⟩ := admission_runtime hlaw hm.now ha
          exact iff_of_false (fun heq => by cases heq)
            fun h => h.1 ⟨context, body, t, rfl, hparse, ht⟩
      | domain e =>
          obtain rfl := admission_refusal ha
          refine iff_of_true rfl ⟨?_, fun hpasses => ?_⟩
          · rintro ⟨_, _, t, heq, hparse, ht⟩
            cases heq
            obtain ⟨failure, hfailure⟩ :=
              admission_of_outOfRange hlaw hm.now hparse ht
            cases ha.symm.trans hfailure
          · obtain ⟨intent, hadmitted⟩ := admission_of_passes hlaw hm.now caller hpasses
            cases ha.symm.trans hadmitted

/-- A request passes the checks when its schema admits it and it is not beyond that. -/
theorem passes_iff {time : TimeCrate} {body : RequestRequest} {now : Int}
    (hrange : ¬ (ServiceCall.request context body).OutOfRange time) :
    Passes time body now ↔ (ServiceCall.request context body).Admits (NamesInstant time)
      ∧ ¬ (ServiceCall.request context body).Beyond time now := by
  constructor
  · rintro ⟨hfields, t, hparse, -, hahead⟩
    have hdate : NamesInstant time body.expiresAt := ⟨t, hparse⟩
    obtain ⟨hadmits, hmanagement⟩ := (fieldsValid_iff hdate).mp hfields
    refine ⟨hadmits, fun hbeyond => ?_⟩
    cases hbeyond with
    | undigested hkind hdigest => exact hmanagement hkind hdigest
    | due hparse' hdue =>
        cases hparse.symm.trans hparse'
        exact absurd hahead (Int.not_lt.mpr hdue)
  · rintro ⟨hadmits, hbeyond⟩
    obtain ⟨t, hparse⟩ := hadmits.expiresAt
    refine ⟨(fieldsValid_iff hadmits.expiresAt).mpr ⟨hadmits, fun hkind hdigest => ?_⟩, t, hparse,
      ?_, ?_⟩
    · exact hbeyond (.undigested hkind hdigest)
    · by_contra ht
      exact hrange ⟨context, body, t, rfl, hparse, ht⟩
    · by_contra hahead
      exact hbeyond (.due hparse (Int.not_lt.mp hahead))

theorem beyond_decide {time : TimeCrate} {now : Int} {body : DecideRequest} :
    (ServiceCall.decide context body).Beyond time now ↔ ¬ Legible body.reason := by
  constructor
  · rintro (_ | _ | hreason)
    exact hreason
  · exact .decision

theorem beyond_cancel {time : TimeCrate} {now : Int} {body : CancelRequest} :
    (ServiceCall.cancel context body).Beyond time now ↔ ¬ Legible body.reason := by
  constructor
  · rintro (_ | _ | _ | hreason)
    exact hreason
  · exact .cancellation

/-- **Which calls are called invalid.** -/
theorem serve_invalid (hlaw : deps.time.Lawful) (hm : m.InYears) (hL : L.Sound)
    {call : ServiceCall Ctx} (hentitled : call.Entitled deps config) :
    (L.serve deps config m call).1.invalid = true ↔ ¬ call.OutOfRange deps.time
      ∧ (¬ call.SchemaValid (NamesInstant deps.time) ∨ call.Beyond deps.time m.now) := by
  -- only a request has a deadline
  have hrange (hne : ∀ context body, call ≠ .request context body) :
      ¬ call.OutOfRange deps.time := by
    rintro ⟨context, body, t, heq, -⟩
    exact hne context body heq
  rw [schemaValid_iff]
  cases call with
  | request context body =>
      rw [request_invalid hlaw hm hL hentitled]
      refine and_congr_right fun hrange => ?_
      rw [passes_iff hrange, not_and_or, not_not]
  | decide context body =>
      obtain ⟨hp, hh⟩ := hentitled
      obtain ⟨caller, -, hanswers⟩ := serve_decide_answers config hlaw hm hL context body
      rw [hanswers.invalid .invalidRequest (fun _ => rfl)
        (fun e => by cases e <;> simp [Response.invalid]), decideRefusal_invalid hp hh,
        and_iff_right (hrange fun _ _ heq => by cases heq), beyond_decide, ← not_and_or,
        ← Bool.not_eq_false, decisionRefused_iff]
      rfl
  | cancel context body =>
      obtain ⟨caller, -, hanswers⟩ := serve_cancel_answers config hlaw hm hL context body
      rw [hanswers.invalid .invalidRequest (fun _ => rfl)
        (fun e => by cases e <;> simp [Response.invalid]), cancelRefusal_invalid hentitled,
        and_iff_right (hrange fun _ _ heq => by cases heq), beyond_cancel, ← not_and_or,
        ← Bool.not_eq_false, cancellationRefused_iff]
      rfl
  | read context body =>
      have hbeyond : ¬ (ServiceCall.read context body).Beyond deps.time m.now := by rintro ⟨⟩
      rw [read_invalid hlaw hL hentitled, and_iff_right (hrange fun _ _ heq => by cases heq),
        or_iff_left hbeyond, ← Bool.not_eq_true, validRequestId_iff]
      rfl
  | expire context body =>
      have hbeyond : ¬ (ServiceCall.expire context body).Beyond deps.time m.now := by rintro ⟨⟩
      obtain ⟨caller, -, hanswers⟩ := serve_expire_answers config hlaw hm hL context body
      rw [hanswers.invalid .invalidRequest (fun _ => rfl)
        (fun e => by cases e <;> simp [Response.invalid]), expireRefusal_invalid hentitled,
        and_iff_right (hrange fun _ _ heq => by cases heq), or_iff_left hbeyond,
        ← Bool.not_eq_true, validRequestId_iff]
      rfl

end Ledger

/-! ## On the backends -/

section Backends

variable {Clock State Row : Type}

/-- In every reachable state, the calls that are called invalid are these. -/
structure InvalidExactly (B : Backend Clock State Row) (deps : Deps Ctx) (config : ApprovalPolicy)
    (moments : Clock → Moments) : Prop where
  invalid : ∀ s, B.Reachable deps config s → ∀ clock, B.inYears clock →
    ∀ call : ServiceCall Ctx, call.Entitled deps config →
      ((B.serve deps config clock call s).1.invalid = true ↔ ¬ call.OutOfRange deps.time
        ∧ (¬ call.SchemaValid (NamesInstant deps.time)
          ∨ call.Beyond deps.time (moments clock).now))
  /-- A deadline out of range fails in the runtime instead. -/
  outOfRange : ∀ s, B.Reachable deps config s → ∀ clock, B.inYears clock →
    ∀ call : ServiceCall Ctx, call.Entitled deps config → call.OutOfRange deps.time →
      ∃ failure, (B.serve deps config clock call s).1.runtimeFailure = some failure

theorem Implements.invalidExactly {B : Backend Clock State Row}
    {represents : State → Ledger → Prop} {moments : Clock → Moments} {deps : Deps Ctx}
    (config : ApprovalPolicy) (hB : Implements B represents moments) (hlaw : deps.time.Lawful) :
    InvalidExactly B deps config moments where
  invalid s hs clock hclock call hentitled := by
    obtain ⟨L, hL⟩ := hB.reachable hlaw hs
    obtain ⟨hserve, -⟩ := hB.stands_serve config hlaw hclock call hL
    rw [hserve]
    exact serve_invalid hlaw (hB.inYears hclock) hL.sound hentitled
  outOfRange s hs clock hclock call hentitled hout :=
    ⟨_, ((hB.failsBeyondCalendar hlaw).answered s hs clock hclock call _).mpr
      ⟨hout.beyondCalendar hentitled, rfl⟩⟩

end Backends

end BusinessApproval
