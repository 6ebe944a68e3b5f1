import BusinessApproval.Model.Published
import BusinessApproval.Model.Wire

/-!
# The wire form and the published schemas

Every message type is read back as it was written, and every value that is valid under its
schema is read. What the schema asks of a message that is written is the `Admits` of its
type: the strings of a request as its schema has them, and of a response its revision, its
instants and its digest.

Between the two stand the members of an object (`Members`): the schema gives them in any
order, and the order makes no difference to what reads them.
-/

namespace BusinessApproval

open JsonSchema

variable {runtime : ContractRuntime} {dateTime : Keyword}

/-- A required field that is there. -/
theorem field_required (h : runtime.Lawful) {α : Type} {fields : List (String × Json)}
    {name : String} {read : Json → Option α} {position : Nat} {v : Json} {a : α}
    (hv : Json.getField name fields = some v) (ha : read v = some a) :
    Serde.field (.obj fields) position (runtime.required name read) = some a := by
  rw [Serde.field_present (f := runtime.required name read) hv]
  exact (h read v).trans ha

/-- How the serde form of a type and its schema fit together. -/
structure Agree {α : Type} (serialize : α → Json) (deserialize : Json → Option α)
    (schema : JsonSchema) (Admits : α → Prop) : Prop where
  roundTrip : ∀ a, deserialize (serialize a) = some a
  /-- What is valid is read. -/
  reads : ∀ v, schema v → ∃ a, deserialize v = some a ∧ Admits a
  /-- What is written is valid, if it is admitted. -/
  writes : ∀ a, schema (serialize a) ↔ Admits a

section Members

variable {α : Type} {serialize : α → Json} {deserialize : Json → Option α}
  {required : List String} {properties : List (String × JsonSchema)} {Admits : α → Prop}

/-- What is written is read back as it is, so it is enough that what is admitted is valid. -/
theorem Agree.of_members (Members : α → List (String × Json) → Prop)
    (hp : (properties.map Prod.fst).Nodup) (hr : required ⊆ properties.map Prod.fst)
    (written : ∀ a, ∃ fields, serialize a = .obj fields ∧ (fields.map Prod.fst).Nodup
      ∧ fields.map Prod.fst ⊆ properties.map Prod.fst ∧ Members a fields
      ∧ (Admits a → ∀ property ∈ properties, Meets required fields property))
    (read : ∀ {a fields}, (fields.map Prod.fst).Nodup → Members a fields →
      deserialize (.obj fields) = some a)
    (meets : ∀ {fields}, (∀ property ∈ properties, Meets required fields property) →
      ∃ a, Members a fields ∧ Admits a) :
    Agree serialize deserialize (object required properties) Admits := by
  -- what is written is read back
  have roundTrip : ∀ a, deserialize (serialize a) = some a := by
    intro a
    obtain ⟨fields, heq, hnodup, -, hmembers, -⟩ := written a
    rw [heq]
    exact read hnodup hmembers
  -- what the schema accepts is read
  have reads : ∀ v, object required properties v → ∃ a, deserialize v = some a ∧ Admits a := by
    rintro _ ⟨fields, rfl, hv⟩
    obtain ⟨hnodup, -, hmeets⟩ := (object_iff hp hr).mp ⟨fields, rfl, hv⟩
    obtain ⟨a, hmembers, hadmits⟩ := meets hmeets
    exact ⟨a, read hnodup hmembers, hadmits⟩
  refine ⟨roundTrip, reads, fun a => ⟨fun hvalid => ?_, fun hadmits => ?_⟩⟩
  · obtain ⟨a', ha', hadmits⟩ := reads _ hvalid
    cases (roundTrip a).symm.trans ha'
    exact hadmits
  · obtain ⟨fields, heq, hnodup, hclosed, -, hmeets⟩ := written a
    rw [heq]
    exact (object_iff hp hr).mpr ⟨hnodup, hclosed, hmeets hadmits⟩

end Members

/-! ## Strings -/

/-- A text, or none, of so many characters at most. -/
def AtMost (n : Nat) (o : Option String) : Prop := ∀ s, o = some s → s.length ≤ n

/-- A digest, or none, as the schemas have it. -/
def DigestAdmits (o : Option String) : Prop :=
  ∀ s, o = some s → RequestSchema.intentDigest.Admits s

section Strings

variable {s : String} {o : Option String} {v : Json} {required : List String}
  {fields : List (String × Json)} {name : String}

theorem string_bounded {minimum maximum : Nat} {p : Regex} :
    string [minLength minimum, maxLength maximum, pattern p] (.str s)
      ↔ (⟨minimum, maximum, p⟩ : StringSchema).Admits s := by
  simp [StringSchema.Admits, minLength, maxLength, pattern]

theorem nullable_atMost {n : Nat} : nullable [maxLength n] (.ofOption o) ↔ AtMost n o := by
  simp [AtMost, maxLength]

/-- The digest is the only property that may be absent. -/
theorem meets_digest (h : name ∉ required) : Meets required fields
    (name, string [pattern digestPattern, minLength 64, maxLength 64])
      ↔ ∃ o : Option String, Json.getField name fields = o.map Json.str ∧ DigestAdmits o := by
  rw [meets_optional h]
  refine exists_congr fun o => and_congr_right fun _ => forall₂_congr fun s _ => ?_
  simp only [List.forall_mem_cons, List.not_mem_nil, false_implies, implies_true, and_true, pattern,
    minLength, maxLength, StringSchema.Admits, RequestSchema.intentDigest]
  constructor
  · rintro ⟨hp, hmin, hmax⟩
    exact ⟨hmin, hmax, hp⟩
  · rintro ⟨hmin, hmax, hp⟩
    exact ⟨hp, hmin, hmax⟩

theorem decision_iff : string [enum ["approved", "rejected"]] v
    ↔ ∃ decision : DecideRequestDecision, v = decision.serialize := by
  constructor
  · rintro ⟨s, rfl, hs⟩
    have hmem : s ∈ ["approved", "rejected"] := hs _ List.mem_cons_self
    simp only [List.mem_cons, List.not_mem_nil, or_false] at hmem
    rcases hmem with rfl | rfl
    · exact ⟨.approved, rfl⟩
    · exact ⟨.rejected, rfl⟩
  · rintro ⟨decision, rfl⟩
    cases decision <;> simp [DecideRequestDecision.serialize, enum]

theorem DecideRequestDecision.read_serialize (decision : DecideRequestDecision) :
    Serde.unitVariant variants decision.serialize = some decision := by
  cases decision <;> rfl

theorem transitionStatus_iff : string [enum ["approved", "rejected", "cancelled", "expired"]] v
    ↔ ∃ status : TransitionResponseStatus, v = status.serialize := by
  constructor
  · rintro ⟨s, rfl, hs⟩
    have hmem : s ∈ ["approved", "rejected", "cancelled", "expired"] := hs _ List.mem_cons_self
    simp only [List.mem_cons, List.not_mem_nil, or_false] at hmem
    rcases hmem with rfl | rfl | rfl | rfl
    · exact ⟨.approved, rfl⟩
    · exact ⟨.rejected, rfl⟩
    · exact ⟨.cancelled, rfl⟩
    · exact ⟨.expired, rfl⟩
  · rintro ⟨status, rfl⟩
    cases status <;> simp [TransitionResponseStatus.serialize, enum]

theorem TransitionResponseStatus.read_serialize (status : TransitionResponseStatus) :
    Serde.unitVariant variants status.serialize = some status := by
  cases status <;> rfl

theorem status_iff :
    string [enum ["pending", "approved", "rejected", "cancelled", "expired"]] v
      ↔ ∃ status : ResponseStatus, v = status.serialize := by
  constructor
  · rintro ⟨s, rfl, hs⟩
    have hmem : s ∈ ["pending", "approved", "rejected", "cancelled", "expired"] :=
      hs _ List.mem_cons_self
    simp only [List.mem_cons, List.not_mem_nil, or_false] at hmem
    rcases hmem with rfl | rfl | rfl | rfl | rfl
    · exact ⟨.pending, rfl⟩
    · exact ⟨.approved, rfl⟩
    · exact ⟨.rejected, rfl⟩
    · exact ⟨.cancelled, rfl⟩
    · exact ⟨.expired, rfl⟩
  · rintro ⟨status, rfl⟩
    cases status <;> simp [ResponseStatus.serialize, enum]

theorem ResponseStatus.read_serialize (status : ResponseStatus) :
    Serde.unitVariant variants status.serialize = some status := by
  cases status <;> rfl

end Strings

/-! ## Requests -/

section Requests

namespace CancelRequest

structure Admits (r : CancelRequest) : Prop where
  requestId : RequestSchema.requestId.Admits r.requestId
  cancelledBy : RequestSchema.requestedBy.Admits r.cancelledBy
  reason : AtMost 1000 r.reason

structure Members (r : CancelRequest) (fields : List (String × Json)) : Prop where
  cancelledBy : Json.getField "cancelled_by" fields = some (.str r.cancelledBy)
  reason : Json.getField "reason" fields = some (.ofOption r.reason)
  requestId : Json.getField "request_id" fields = some (.str r.requestId)

theorem deserialize_members (h : runtime.Lawful) {r : CancelRequest}
    {fields : List (String × Json)} (hnodup : (fields.map Prod.fst).Nodup)
    (hm : r.Members fields) : deserialize runtime (.obj fields) = some r := by
  unfold deserialize
  rw [Serde.isStruct_obj _ hnodup, field_required h hm.cancelledBy (Json.asStr_str _),
    field_required h hm.reason (Serde.option_asStr_ofOption _),
    field_required h hm.requestId (Json.asStr_str _)]
  rfl

theorem agree (h : runtime.Lawful) :
    Agree serialize (deserialize runtime) Published.cancelRequest Admits := by
  refine .of_members Members (by simp) (by simp)
    (fun r => ⟨_, rfl, by simp, by simp, ⟨rfl, rfl, rfl⟩, ?_⟩) (deserialize_members h) ?_
  · intro hr
    simp (disch := simp) only [List.forall_mem_cons, List.not_mem_nil, false_implies,
      implies_true, and_true, meets_required]
    exact ⟨⟨_, rfl, string_bounded.mpr hr.requestId⟩, ⟨_, rfl, string_bounded.mpr hr.cancelledBy⟩,
      _, rfl, nullable_atMost.mpr hr.reason⟩
  · intro fields hmeets
    simp (disch := simp) only [List.forall_mem_cons, List.not_mem_nil, false_implies,
      implies_true, and_true, meets_required] at hmeets
    obtain ⟨⟨_, hid, requestId, rfl, hid'⟩, ⟨_, hby, cancelledBy, rfl, hby'⟩, _, hr, hr'⟩ := hmeets
    obtain ⟨reason, rfl, -⟩ := nullable_iff.mp hr'
    exact ⟨⟨requestId, cancelledBy, reason⟩, ⟨hby, hr, hid⟩,
      string_bounded.mp (string_str.mpr hid'), string_bounded.mp (string_str.mpr hby'),
      nullable_atMost.mp hr'⟩

end CancelRequest

namespace DecideRequest

structure Admits (r : DecideRequest) : Prop where
  requestId : RequestSchema.requestId.Admits r.requestId
  decidedBy : RequestSchema.requestedBy.Admits r.decidedBy
  evidenceRef : RequestSchema.requestedBy.Admits r.evidenceRef
  reason : AtMost 1000 r.reason

structure Members (r : DecideRequest) (fields : List (String × Json)) : Prop where
  decidedBy : Json.getField "decided_by" fields = some (.str r.decidedBy)
  decision : Json.getField "decision" fields = some r.decision.serialize
  evidenceRef : Json.getField "evidence_ref" fields = some (.str r.evidenceRef)
  reason : Json.getField "reason" fields = some (.ofOption r.reason)
  requestId : Json.getField "request_id" fields = some (.str r.requestId)

theorem deserialize_members (h : runtime.Lawful) {r : DecideRequest}
    {fields : List (String × Json)} (hnodup : (fields.map Prod.fst).Nodup)
    (hm : r.Members fields) : deserialize runtime (.obj fields) = some r := by
  unfold deserialize
  rw [Serde.isStruct_obj _ hnodup, field_required h hm.decidedBy (Json.asStr_str _),
    field_required h hm.decision (DecideRequestDecision.read_serialize _),
    field_required h hm.evidenceRef (Json.asStr_str _),
    field_required h hm.reason (Serde.option_asStr_ofOption _),
    field_required h hm.requestId (Json.asStr_str _)]
  rfl

theorem agree (h : runtime.Lawful) :
    Agree serialize (deserialize runtime) Published.decideRequest Admits := by
  refine .of_members Members (by simp) (by simp)
    (fun r => ⟨_, rfl, by simp, by simp, ⟨rfl, rfl, rfl, rfl, rfl⟩, ?_⟩) (deserialize_members h) ?_
  · intro hr
    simp (disch := simp) only [List.forall_mem_cons, List.not_mem_nil, false_implies,
      implies_true, and_true, meets_required]
    exact ⟨⟨_, rfl, string_bounded.mpr hr.requestId⟩, ⟨_, rfl, decision_iff.mpr ⟨_, rfl⟩⟩,
      ⟨_, rfl, string_bounded.mpr hr.decidedBy⟩, ⟨_, rfl, string_bounded.mpr hr.evidenceRef⟩, _,
      rfl, nullable_atMost.mpr hr.reason⟩
  · intro fields hmeets
    simp (disch := simp) only [List.forall_mem_cons, List.not_mem_nil, false_implies,
      implies_true, and_true, meets_required] at hmeets
    obtain ⟨⟨_, hid, requestId, rfl, hid'⟩, ⟨_, hd, hd'⟩, ⟨_, hby, decidedBy, rfl, hby'⟩,
      ⟨_, he, evidenceRef, rfl, he'⟩, _, hr, hr'⟩ := hmeets
    obtain ⟨decision, rfl⟩ := decision_iff.mp hd'
    obtain ⟨reason, rfl, -⟩ := nullable_iff.mp hr'
    exact ⟨⟨requestId, decision, decidedBy, evidenceRef, reason⟩, ⟨hby, hd, he, hr, hid⟩,
      string_bounded.mp (string_str.mpr hid'), string_bounded.mp (string_str.mpr hby'),
      string_bounded.mp (string_str.mpr he'), nullable_atMost.mp hr'⟩

end DecideRequest

/-- What `read` and `expire` take is a request id. -/
theorem meets_requestId {fields : List (String × Json)} :
    (∀ property ∈ [("request_id",
        string [minLength 1, maxLength 128, pattern identifierPattern])],
      Meets ["request_id"] fields property)
      ↔ ∃ id, Json.getField "request_id" fields = some (.str id)
        ∧ RequestSchema.requestId.Admits id := by
  simp (disch := simp) only [List.forall_mem_cons, List.not_mem_nil, false_implies,
    implies_true, and_true, meets_required]
  constructor
  · rintro ⟨_, hid, requestId, rfl, hid'⟩
    exact ⟨requestId, hid, string_bounded.mp (string_str.mpr hid')⟩
  · rintro ⟨id, hid, hadmits⟩
    exact ⟨_, hid, string_bounded.mpr hadmits⟩

theorem ReadRequest.agree (h : runtime.Lawful) :
    Agree ReadRequest.serialize (ReadRequest.deserialize runtime) Published.readRequest
      fun r => RequestSchema.requestId.Admits r.requestId := by
  refine .of_members
    (fun r fields => Json.getField "request_id" fields = some (.str r.requestId))
    (by simp) (by simp)
    (fun r => ⟨_, rfl, by simp, by simp, rfl, fun hr => meets_requestId.mpr ⟨_, rfl, hr⟩⟩) ?_ ?_
  · intro r fields hnodup hm
    unfold ReadRequest.deserialize
    rw [Serde.isStruct_obj _ hnodup, field_required h hm (Json.asStr_str _)]
    rfl
  · intro fields hmeets
    obtain ⟨id, hid, hadmits⟩ := meets_requestId.mp hmeets
    exact ⟨⟨id⟩, hid, hadmits⟩

theorem ExpireRequest.agree (h : runtime.Lawful) :
    Agree ExpireRequest.serialize (ExpireRequest.deserialize runtime) Published.expireRequest
      fun r => RequestSchema.requestId.Admits r.requestId := by
  refine .of_members
    (fun r fields => Json.getField "request_id" fields = some (.str r.requestId))
    (by simp) (by simp)
    (fun r => ⟨_, rfl, by simp, by simp, rfl, fun hr => meets_requestId.mpr ⟨_, rfl, hr⟩⟩) ?_ ?_
  · intro r fields hnodup hm
    unfold ExpireRequest.deserialize
    rw [Serde.isStruct_obj _ hnodup, field_required h hm (Json.asStr_str _)]
    rfl
  · intro fields hmeets
    obtain ⟨id, hid, hadmits⟩ := meets_requestId.mp hmeets
    exact ⟨⟨id⟩, hid, hadmits⟩

namespace RequestRequestSubject

structure Admits (s : RequestRequestSubject) : Prop where
  kind : RequestSchema.subjectKind.Admits s.kind
  id : RequestSchema.subjectId.Admits s.id

structure Members (s : RequestRequestSubject) (fields : List (String × Json)) : Prop where
  id : Json.getField "id" fields = some (.str s.id)
  kind : Json.getField "kind" fields = some (.str s.kind)

theorem deserialize_members (h : runtime.Lawful) {s : RequestRequestSubject}
    {fields : List (String × Json)} (hnodup : (fields.map Prod.fst).Nodup)
    (hm : s.Members fields) : deserialize runtime (.obj fields) = some s := by
  unfold deserialize
  rw [Serde.isStruct_obj _ hnodup, field_required h hm.id (Json.asStr_str _),
    field_required h hm.kind (Json.asStr_str _)]
  rfl

theorem agree (h : runtime.Lawful) :
    Agree serialize (deserialize runtime) Published.requestSubject Admits := by
  refine .of_members Members (by simp) (by simp)
    (fun r => ⟨_, rfl, by simp, by simp, ⟨rfl, rfl⟩, ?_⟩) (deserialize_members h) ?_
  · intro hs
    simp (disch := simp) only [List.forall_mem_cons, List.not_mem_nil, false_implies,
      implies_true, and_true, meets_required]
    exact ⟨⟨_, rfl, string_bounded.mpr hs.kind⟩, _, rfl, string_bounded.mpr hs.id⟩
  · intro fields hmeets
    simp (disch := simp) only [List.forall_mem_cons, List.not_mem_nil, false_implies,
      implies_true, and_true, meets_required] at hmeets
    obtain ⟨⟨_, hk, kind, rfl, hk'⟩, _, hi, id, rfl, hi'⟩ := hmeets
    exact ⟨⟨kind, id⟩, ⟨hi, hk⟩, string_bounded.mp (string_str.mpr hk'),
      string_bounded.mp (string_str.mpr hi')⟩

end RequestRequestSubject

namespace RequestRequest

structure Admits (dateTime : Keyword) (r : RequestRequest) : Prop where
  requestId : RequestSchema.requestId.Admits r.requestId
  idempotencyKey : RequestSchema.idempotencyKey.Admits r.idempotencyKey
  requestedBy : RequestSchema.requestedBy.Admits r.requestedBy
  approvalKind : RequestSchema.approvalKind.Admits r.approvalKind
  subject : r.subject.Admits
  expiresAt : dateTime r.expiresAt
  intentDigest : DigestAdmits r.intentDigest

structure Members (runtime : ContractRuntime) (r : RequestRequest)
    (fields : List (String × Json)) : Prop where
  approvalKind : Json.getField "approval_kind" fields = some (.str r.approvalKind)
  expiresAt : Json.getField "expires_at" fields = some (.str r.expiresAt)
  idempotencyKey : Json.getField "idempotency_key" fields = some (.str r.idempotencyKey)
  intentDigest : Json.getField "intent_digest" fields = r.intentDigest.map Json.str
  requestId : Json.getField "request_id" fields = some (.str r.requestId)
  requestedBy : Json.getField "requested_by" fields = some (.str r.requestedBy)
  subject : ∃ v, Json.getField "subject" fields = some v
    ∧ RequestRequestSubject.deserialize runtime v = some r.subject

theorem deserialize_members (h : runtime.Lawful) {r : RequestRequest}
    {fields : List (String × Json)} (hnodup : (fields.map Prod.fst).Nodup)
    (hm : r.Members runtime fields) : deserialize runtime (.obj fields) = some r := by
  obtain ⟨v, hv, hsubject⟩ := hm.subject
  unfold deserialize
  rw [Serde.isStruct_obj _ hnodup, field_required h hm.approvalKind (Json.asStr_str _),
    field_required h hm.expiresAt (Json.asStr_str _),
    field_required h hm.idempotencyKey (Json.asStr_str _), Serde.field_optional hm.intentDigest,
    field_required h hm.requestId (Json.asStr_str _),
    field_required h hm.requestedBy (Json.asStr_str _), field_required h hv hsubject]
  rfl

/-- The members of a request that is written, with or without a digest. -/
theorem serialize_members (h : runtime.Lawful) (r : RequestRequest) :
    ∃ fields, r.serialize = .obj fields ∧ (fields.map Prod.fst).Nodup
      ∧ fields.map Prod.fst ⊆ ["request_id", "idempotency_key", "requested_by", "approval_kind",
        "subject", "expires_at", "intent_digest"]
      ∧ r.Members runtime fields ∧ Json.getField "subject" fields = some r.subject.serialize := by
  have hsubject := (RequestRequestSubject.agree h).roundTrip r.subject
  obtain ⟨requestId, idempotencyKey, requestedBy, approvalKind, subject, expiresAt, digest⟩ := r
  cases digest with
  | none =>
      exact ⟨_, rfl, by simp [Serde.skipNone], by simp [Serde.skipNone],
        ⟨rfl, rfl, rfl, rfl, rfl, rfl, _, rfl, hsubject⟩, rfl⟩
  | some digest =>
      exact ⟨_, rfl, by simp [Serde.skipNone], by simp [Serde.skipNone],
        ⟨rfl, rfl, rfl, rfl, rfl, rfl, _, rfl, hsubject⟩, rfl⟩

theorem agree (h : runtime.Lawful) :
    Agree serialize (deserialize runtime) (Published.requestRequest dateTime)
      (Admits dateTime) := by
  have hsubject := RequestRequestSubject.agree h
  refine .of_members (Members runtime) (by simp) (by simp) (fun r => ?_) (deserialize_members h) ?_
  · obtain ⟨fields, heq, hnodup, hclosed, hm, hs⟩ := r.serialize_members h
    refine ⟨fields, heq, hnodup, hclosed, hm, fun hr => ?_⟩
    simp (disch := simp) only [List.forall_mem_cons, List.not_mem_nil, false_implies,
      implies_true, and_true, meets_required, meets_digest]
    exact ⟨⟨_, hm.requestId, string_bounded.mpr hr.requestId⟩,
      ⟨_, hm.idempotencyKey, string_bounded.mpr hr.idempotencyKey⟩,
      ⟨_, hm.requestedBy, string_bounded.mpr hr.requestedBy⟩,
      ⟨_, hm.approvalKind, string_bounded.mpr hr.approvalKind⟩,
      ⟨_, hs, (hsubject.writes r.subject).mpr hr.subject⟩,
      ⟨_, hm.expiresAt, string_single.mpr hr.expiresAt⟩, _, hm.intentDigest, hr.intentDigest⟩
  · intro fields hmeets
    simp (disch := simp) only [List.forall_mem_cons, List.not_mem_nil, false_implies,
      implies_true, and_true, meets_required, meets_digest] at hmeets
    obtain ⟨⟨_, hi, requestId, rfl, hi'⟩, ⟨_, hk, idempotencyKey, rfl, hk'⟩,
      ⟨_, hb, requestedBy, rfl, hb'⟩, ⟨_, ha, approvalKind, rfl, ha'⟩, ⟨v, hs, hs'⟩,
      ⟨_, he, expiresAt, rfl, he'⟩, digest, hd, hd'⟩ := hmeets
    obtain ⟨subject, hread, hadmits⟩ := hsubject.reads v hs'
    exact ⟨⟨requestId, idempotencyKey, requestedBy, approvalKind, subject, expiresAt, digest⟩,
      ⟨ha, he, hk, hd, hi, hb, v, hs, hread⟩, string_bounded.mp (string_str.mpr hi'),
      string_bounded.mp (string_str.mpr hk'), string_bounded.mp (string_str.mpr hb'),
      string_bounded.mp (string_str.mpr ha'), hadmits, string_single.mp (string_str.mpr he'), hd'⟩

end RequestRequest

end Requests

/-! ## Responses -/

section Responses

namespace RequestResponse

structure Members (r : RequestResponse) (fields : List (String × Json)) : Prop where
  created : Json.getField "created" fields = some (.bool r.created)
  requestId : Json.getField "request_id" fields = some (.str r.requestId)
  revision : Json.getField "revision" fields = some (.str r.revision)
  status : Json.getField "status" fields = some r.status.serialize

theorem deserialize_members (h : runtime.Lawful) {r : RequestResponse}
    {fields : List (String × Json)} (hnodup : (fields.map Prod.fst).Nodup)
    (hm : r.Members fields) : deserialize runtime (.obj fields) = some r := by
  unfold deserialize
  rw [Serde.isStruct_obj _ hnodup, field_required h hm.created (show Json.asBool _ = _ from rfl),
    field_required h hm.requestId (Json.asStr_str _),
    field_required h hm.revision (Json.asStr_str _),
    field_required h hm.status (ResponseStatus.read_serialize _)]
  rfl

theorem agree (h : runtime.Lawful) :
    Agree serialize (deserialize runtime) Published.requestResponse
      fun r => Published.revisionPattern.Matches r.revision := by
  refine .of_members Members (by simp) (by simp)
    (fun r => ⟨_, rfl, by simp, by simp, ⟨rfl, rfl, rfl, rfl⟩, ?_⟩) (deserialize_members h) ?_
  · intro hr
    simp (disch := simp) only [List.forall_mem_cons, List.not_mem_nil, false_implies,
      implies_true, and_true, meets_required]
    exact ⟨⟨_, rfl, _, rfl⟩, ⟨_, rfl, string_plain.mpr ⟨_, rfl⟩⟩, ⟨_, rfl, status_iff.mpr ⟨_, rfl⟩⟩,
      _, rfl, string_single.mpr hr⟩
  · intro fields hmeets
    simp (disch := simp) only [List.forall_mem_cons, List.not_mem_nil, false_implies,
      implies_true, and_true, meets_required] at hmeets
    obtain ⟨⟨_, hc, created, rfl⟩, ⟨_, hi, requestId, rfl, -⟩, ⟨_, hs, hs'⟩,
      _, hr, revision, rfl, hr'⟩ := hmeets
    obtain ⟨status, rfl⟩ := status_iff.mp hs'
    exact ⟨⟨created, requestId, status, revision⟩, ⟨hc, hi, hr, hs⟩,
      string_single.mp (string_str.mpr hr')⟩

end RequestResponse

namespace TransitionResponse

structure Admits (dateTime : Keyword) (r : TransitionResponse) : Prop where
  revision : Published.revisionPattern.Matches r.revision
  terminalAt : dateTime r.terminalAt

structure Members (r : TransitionResponse) (fields : List (String × Json)) : Prop where
  evidenceRef : Json.getField "evidence_ref" fields = some (.ofOption r.evidenceRef)
  reason : Json.getField "reason" fields = some (.ofOption r.reason)
  requestId : Json.getField "request_id" fields = some (.str r.requestId)
  revision : Json.getField "revision" fields = some (.str r.revision)
  status : Json.getField "status" fields = some r.status.serialize
  terminalActor : Json.getField "terminal_actor" fields = some (.ofOption r.terminalActor)
  terminalAt : Json.getField "terminal_at" fields = some (.str r.terminalAt)
  terminalCallerInstance :
    Json.getField "terminal_caller_instance" fields = some (.str r.terminalCallerInstance)

theorem deserialize_members (h : runtime.Lawful) {r : TransitionResponse}
    {fields : List (String × Json)} (hnodup : (fields.map Prod.fst).Nodup)
    (hm : r.Members fields) : deserialize runtime (.obj fields) = some r := by
  unfold deserialize
  rw [Serde.isStruct_obj _ hnodup,
    field_required h hm.evidenceRef (Serde.option_asStr_ofOption _),
    field_required h hm.reason (Serde.option_asStr_ofOption _),
    field_required h hm.requestId (Json.asStr_str _),
    field_required h hm.revision (Json.asStr_str _),
    field_required h hm.status (TransitionResponseStatus.read_serialize _),
    field_required h hm.terminalActor (Serde.option_asStr_ofOption _),
    field_required h hm.terminalAt (Json.asStr_str _),
    field_required h hm.terminalCallerInstance (Json.asStr_str _)]
  rfl

theorem agree (h : runtime.Lawful) :
    Agree serialize (deserialize runtime) (Published.transitionResponse dateTime)
      (Admits dateTime) := by
  refine .of_members Members (by simp) (by simp)
    (fun r => ⟨_, rfl, by simp, by simp, ⟨rfl, rfl, rfl, rfl, rfl, rfl, rfl, rfl⟩, ?_⟩)
    (deserialize_members h) ?_
  · intro hr
    simp (disch := simp) only [List.forall_mem_cons, List.not_mem_nil, false_implies,
      implies_true, and_true, meets_required]
    exact ⟨⟨_, rfl, string_plain.mpr ⟨_, rfl⟩⟩, ⟨_, rfl, transitionStatus_iff.mpr ⟨_, rfl⟩⟩,
      ⟨_, rfl, string_single.mpr hr.revision⟩, ⟨_, rfl, string_plain.mpr ⟨_, rfl⟩⟩,
      ⟨_, rfl, nullable_plain.mpr ⟨_, rfl⟩⟩, ⟨_, rfl, nullable_plain.mpr ⟨_, rfl⟩⟩,
      ⟨_, rfl, nullable_plain.mpr ⟨_, rfl⟩⟩, _, rfl, string_single.mpr hr.terminalAt⟩
  · intro fields hmeets
    simp (disch := simp) only [List.forall_mem_cons, List.not_mem_nil, false_implies,
      implies_true, and_true, meets_required] at hmeets
    obtain ⟨⟨_, hi, requestId, rfl, -⟩, ⟨_, hs, hs'⟩, ⟨_, hr, revision, rfl, hr'⟩,
      ⟨_, hc, caller, rfl, -⟩, ⟨_, ha, ha'⟩, ⟨_, he, he'⟩, ⟨_, hn, hn'⟩,
      _, ht, terminalAt, rfl, ht'⟩ := hmeets
    obtain ⟨status, rfl⟩ := transitionStatus_iff.mp hs'
    obtain ⟨actor, rfl⟩ := nullable_plain.mp ha'
    obtain ⟨evidenceRef, rfl⟩ := nullable_plain.mp he'
    obtain ⟨reason, rfl⟩ := nullable_plain.mp hn'
    exact ⟨⟨requestId, status, revision, caller, actor, evidenceRef, reason, terminalAt⟩,
      ⟨he, hn, hi, hr, hs, ha, ht, hc⟩, string_single.mp (string_str.mpr hr'),
      string_single.mp (string_str.mpr ht')⟩

end TransitionResponse

theorem ReadResponseSubject.agree (h : runtime.Lawful) :
    Agree ReadResponseSubject.serialize (ReadResponseSubject.deserialize runtime)
      Published.readSubject fun _ => True := by
  refine .of_members (fun s fields => Json.getField "id" fields = some (.str s.id)
      ∧ Json.getField "kind" fields = some (.str s.kind)) (by simp) (by simp)
    (fun s => ⟨_, rfl, by simp, by simp, ⟨rfl, rfl⟩, fun _ => ?_⟩) ?_ ?_
  · simp (disch := simp) only [List.forall_mem_cons, List.not_mem_nil, false_implies,
      implies_true, and_true, meets_required]
    exact ⟨⟨_, rfl, string_plain.mpr ⟨_, rfl⟩⟩, _, rfl, string_plain.mpr ⟨_, rfl⟩⟩
  · rintro s fields hnodup ⟨hid, hkind⟩
    unfold ReadResponseSubject.deserialize
    rw [Serde.isStruct_obj _ hnodup, field_required h hid (Json.asStr_str _),
      field_required h hkind (Json.asStr_str _)]
    rfl
  · intro fields hmeets
    simp (disch := simp) only [List.forall_mem_cons, List.not_mem_nil, false_implies,
      implies_true, and_true, meets_required] at hmeets
    obtain ⟨⟨_, hk, kind, rfl, -⟩, _, hi, id, rfl, -⟩ := hmeets
    exact ⟨⟨kind, id⟩, ⟨hi, hk⟩, trivial⟩

namespace ReadResponse

structure Admits (dateTime : Keyword) (r : ReadResponse) : Prop where
  revision : Published.revisionPattern.Matches r.revision
  requestedAt : dateTime r.requestedAt
  expiresAt : dateTime r.expiresAt
  terminalAt : ∀ s, r.terminalAt = some s → dateTime s
  intentDigest : DigestAdmits r.intentDigest

structure Members (runtime : ContractRuntime) (r : ReadResponse)
    (fields : List (String × Json)) : Prop where
  approvalKind : Json.getField "approval_kind" fields = some (.str r.approvalKind)
  evidenceRef : Json.getField "evidence_ref" fields = some (.ofOption r.evidenceRef)
  expiresAt : Json.getField "expires_at" fields = some (.str r.expiresAt)
  idempotencyKey : Json.getField "idempotency_key" fields = some (.str r.idempotencyKey)
  intentDigest : Json.getField "intent_digest" fields = r.intentDigest.map Json.str
  reason : Json.getField "reason" fields = some (.ofOption r.reason)
  requestId : Json.getField "request_id" fields = some (.str r.requestId)
  requestedAt : Json.getField "requested_at" fields = some (.str r.requestedAt)
  requestedBy : Json.getField "requested_by" fields = some (.str r.requestedBy)
  requesterInstance : Json.getField "requester_instance" fields = some (.str r.requesterInstance)
  revision : Json.getField "revision" fields = some (.str r.revision)
  status : Json.getField "status" fields = some r.status.serialize
  subject : ∃ v, Json.getField "subject" fields = some v
    ∧ ReadResponseSubject.deserialize runtime v = some r.subject
  terminalActor : Json.getField "terminal_actor" fields = some (.ofOption r.terminalActor)
  terminalAt : Json.getField "terminal_at" fields = some (.ofOption r.terminalAt)
  terminalCallerInstance :
    Json.getField "terminal_caller_instance" fields = some (.ofOption r.terminalCallerInstance)

theorem deserialize_members (h : runtime.Lawful) {r : ReadResponse}
    {fields : List (String × Json)} (hnodup : (fields.map Prod.fst).Nodup)
    (hm : r.Members runtime fields) : deserialize runtime (.obj fields) = some r := by
  obtain ⟨v, hv, hsubject⟩ := hm.subject
  unfold deserialize
  rw [Serde.isStruct_obj _ hnodup, field_required h hm.approvalKind (Json.asStr_str _),
    field_required h hm.evidenceRef (Serde.option_asStr_ofOption _),
    field_required h hm.expiresAt (Json.asStr_str _),
    field_required h hm.idempotencyKey (Json.asStr_str _), Serde.field_optional hm.intentDigest,
    field_required h hm.reason (Serde.option_asStr_ofOption _),
    field_required h hm.requestId (Json.asStr_str _),
    field_required h hm.requestedAt (Json.asStr_str _),
    field_required h hm.requestedBy (Json.asStr_str _),
    field_required h hm.requesterInstance (Json.asStr_str _),
    field_required h hm.revision (Json.asStr_str _),
    field_required h hm.status (ResponseStatus.read_serialize _), field_required h hv hsubject,
    field_required h hm.terminalActor (Serde.option_asStr_ofOption _),
    field_required h hm.terminalAt (Serde.option_asStr_ofOption _),
    field_required h hm.terminalCallerInstance (Serde.option_asStr_ofOption _)]
  rfl

/-- The members of a response that is written, with or without a digest. -/
theorem serialize_members (h : runtime.Lawful) (r : ReadResponse) :
    ∃ fields, r.serialize = .obj fields ∧ (fields.map Prod.fst).Nodup
      ∧ fields.map Prod.fst ⊆ ["request_id", "idempotency_key", "approval_kind", "subject",
        "requester_instance", "requested_by", "status", "revision", "requested_at", "expires_at",
        "terminal_caller_instance", "terminal_actor", "evidence_ref", "reason", "terminal_at",
        "intent_digest"]
      ∧ r.Members runtime fields ∧ Json.getField "subject" fields = some r.subject.serialize := by
  have hsubject := (ReadResponseSubject.agree h).roundTrip r.subject
  obtain ⟨requestId, idempotencyKey, approvalKind, subject, digest, _⟩ := r
  cases digest with
  | none =>
      exact ⟨_, rfl, by simp [Serde.skipNone], by simp [Serde.skipNone],
        ⟨rfl, rfl, rfl, rfl, rfl, rfl, rfl, rfl, rfl, rfl, rfl, rfl, ⟨_, rfl, hsubject⟩, rfl, rfl,
          rfl⟩, rfl⟩
  | some digest =>
      exact ⟨_, rfl, by simp [Serde.skipNone], by simp [Serde.skipNone],
        ⟨rfl, rfl, rfl, rfl, rfl, rfl, rfl, rfl, rfl, rfl, rfl, rfl, ⟨_, rfl, hsubject⟩, rfl, rfl,
          rfl⟩, rfl⟩

theorem agree (h : runtime.Lawful) :
    Agree serialize (deserialize runtime) (Published.readResponse dateTime) (Admits dateTime) := by
  have hsubject := ReadResponseSubject.agree h
  refine .of_members (Members runtime) (by simp) (by simp) (fun r => ?_) (deserialize_members h) ?_
  · obtain ⟨fields, heq, hnodup, hclosed, hm, hs⟩ := r.serialize_members h
    refine ⟨fields, heq, hnodup, hclosed, hm, fun hr => ?_⟩
    simp (disch := simp) only [List.forall_mem_cons, List.not_mem_nil, false_implies,
      implies_true, and_true, meets_required, meets_digest]
    exact ⟨⟨_, hm.requestId, string_plain.mpr ⟨_, rfl⟩⟩,
      ⟨_, hm.idempotencyKey, string_plain.mpr ⟨_, rfl⟩⟩,
      ⟨_, hm.approvalKind, string_plain.mpr ⟨_, rfl⟩⟩,
      ⟨_, hs, (hsubject.writes r.subject).mpr trivial⟩,
      ⟨_, hm.requesterInstance, string_plain.mpr ⟨_, rfl⟩⟩,
      ⟨_, hm.requestedBy, string_plain.mpr ⟨_, rfl⟩⟩, ⟨_, hm.status, status_iff.mpr ⟨_, rfl⟩⟩,
      ⟨_, hm.revision, string_single.mpr hr.revision⟩,
      ⟨_, hm.requestedAt, string_single.mpr hr.requestedAt⟩,
      ⟨_, hm.expiresAt, string_single.mpr hr.expiresAt⟩,
      ⟨_, hm.terminalCallerInstance, nullable_plain.mpr ⟨_, rfl⟩⟩,
      ⟨_, hm.terminalActor, nullable_plain.mpr ⟨_, rfl⟩⟩,
      ⟨_, hm.evidenceRef, nullable_plain.mpr ⟨_, rfl⟩⟩,
      ⟨_, hm.reason, nullable_plain.mpr ⟨_, rfl⟩⟩,
      ⟨_, hm.terminalAt, nullable_single.mpr hr.terminalAt⟩, _, hm.intentDigest, hr.intentDigest⟩
  · intro fields hmeets
    simp (disch := simp) only [List.forall_mem_cons, List.not_mem_nil, false_implies,
      implies_true, and_true, meets_required, meets_digest] at hmeets
    obtain ⟨⟨_, hi, requestId, rfl, -⟩, ⟨_, hk, idempotencyKey, rfl, -⟩,
      ⟨_, hak, approvalKind, rfl, -⟩, ⟨v, hs, hs'⟩, ⟨_, hri, requesterInstance, rfl, -⟩,
      ⟨_, hb, requestedBy, rfl, -⟩, ⟨_, hst, hst'⟩, ⟨_, hr, revision, rfl, hr'⟩,
      ⟨_, hra, requestedAt, rfl, hra'⟩, ⟨_, he, expiresAt, rfl, he'⟩, ⟨_, hc, hc'⟩,
      ⟨_, ha, ha'⟩, ⟨_, hv, hv'⟩, ⟨_, hn, hn'⟩, ⟨_, ht, ht'⟩, digest, hd, hd'⟩ := hmeets
    obtain ⟨subject, hread, -⟩ := hsubject.reads v hs'
    obtain ⟨status, rfl⟩ := status_iff.mp hst'
    obtain ⟨caller, rfl⟩ := nullable_plain.mp hc'
    obtain ⟨actor, rfl⟩ := nullable_plain.mp ha'
    obtain ⟨evidenceRef, rfl⟩ := nullable_plain.mp hv'
    obtain ⟨reason, rfl⟩ := nullable_plain.mp hn'
    obtain ⟨terminalAt, rfl, -⟩ := nullable_iff.mp ht'
    exact ⟨⟨requestId, idempotencyKey, approvalKind, subject, digest, requesterInstance,
        requestedBy, status, revision, requestedAt, expiresAt, caller, actor, evidenceRef, reason,
        terminalAt⟩,
      ⟨hak, hv, he, hk, hd, hn, hi, hra, hb, hri, hr, hst, ⟨v, hs, hread⟩, ha, ht, hc⟩,
      string_single.mp (string_str.mpr hr'), string_single.mp (string_str.mpr hra'),
      string_single.mp (string_str.mpr he'), nullable_single.mp ht', hd'⟩

end ReadResponse

end Responses

/-! ## All messages -/

/-- The messages of the contract agree with the schemas that are published for them. -/
structure WireAgrees (runtime : ContractRuntime) (dateTime : Keyword) : Prop where
  requestRequest : Agree RequestRequest.serialize (RequestRequest.deserialize runtime)
    (Published.requestRequest dateTime) (RequestRequest.Admits dateTime)
  decideRequest : Agree DecideRequest.serialize (DecideRequest.deserialize runtime)
    Published.decideRequest DecideRequest.Admits
  cancelRequest : Agree CancelRequest.serialize (CancelRequest.deserialize runtime)
    Published.cancelRequest CancelRequest.Admits
  readRequest : Agree ReadRequest.serialize (ReadRequest.deserialize runtime)
    Published.readRequest fun r => RequestSchema.requestId.Admits r.requestId
  expireRequest : Agree ExpireRequest.serialize (ExpireRequest.deserialize runtime)
    Published.expireRequest fun r => RequestSchema.requestId.Admits r.requestId
  requestResponse : Agree RequestResponse.serialize (RequestResponse.deserialize runtime)
    Published.requestResponse fun r => Published.revisionPattern.Matches r.revision
  transitionResponse : Agree TransitionResponse.serialize (TransitionResponse.deserialize runtime)
    (Published.transitionResponse dateTime) (TransitionResponse.Admits dateTime)
  readResponse : Agree ReadResponse.serialize (ReadResponse.deserialize runtime)
    (Published.readResponse dateTime) (ReadResponse.Admits dateTime)

/-- **The contract's messages are those of its schemas**, whatever a `date-time` may be. -/
theorem wire_agrees (dateTime : Keyword) (h : runtime.Lawful) : WireAgrees runtime dateTime where
  requestRequest := RequestRequest.agree h
  decideRequest := DecideRequest.agree h
  cancelRequest := CancelRequest.agree h
  readRequest := ReadRequest.agree h
  expireRequest := ExpireRequest.agree h
  requestResponse := RequestResponse.agree h
  transitionResponse := TransitionResponse.agree h
  readResponse := ReadResponse.agree h

theorem wire_agrees_plain : WireAgrees ⟨fun read => read⟩ fun s => s.length = 20 :=
  wire_agrees (fun s => s.length = 20) fun _ _ => rfl

end BusinessApproval
