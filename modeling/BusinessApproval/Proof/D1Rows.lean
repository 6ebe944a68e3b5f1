import BusinessApproval.Lib.JsonRoundTrip
import BusinessApproval.Proof.Admission
import BusinessApproval.Proof.D1Stages
import BusinessApproval.Spec.Ledger

/-!
# D1 rows and the approvals they stand for

A D1 row says everything twice: in its columns, which the guards look at, and in
`record_json`, which the answers are read from. `StandsFor` says that both name one
approval. Creating a record and settling it keep the two in step.
-/

namespace BusinessApproval.D1

/-- What is relied on of the `time` crate for text that JavaScript wrote. -/
def ReadsIso (time : TimeCrate) : Prop :=
  ∀ ms, InYears (ms * 1000000) → time.parse (Rfc3339.isoMillis ms) = some (ms * 1000000)

/-- The properties of a value spell an approval. -/
structure Spells (time : TimeCrate) (value : Json) (a : StoredApproval) : Prop where
  requestId : requiredStr value "request_id" = some a.requestId
  requesterInstance : requiredStr value "requester_instance" = some a.requesterInstance
  idempotencyKey : requiredStr value "idempotency_key" = some a.idempotencyKey
  requestedBy : requiredStr value "requested_by" = some a.requestedBy
  approvalKind : requiredStr value "approval_kind" = some a.approvalKind
  subjectKind : requiredStr value "subject_kind" = some a.subjectKind
  subjectId : requiredStr value "subject_id" = some a.subjectId
  intentDigest : optionalStr value "intent_digest" = some a.intentDigest
  status : statusOf value = some a.status
  revision : safeInteger (value.get "revision") = some a.revision
  requestedAt : requiredInstant time value "requested_at" = some a.requestedAt
  expiresAt : requiredInstant time value "expires_at" = some a.expiresAt
  terminalCallerInstance :
    optionalStr value "terminal_caller_instance" = some a.terminalCallerInstance
  terminalActor : optionalStr value "terminal_actor" = some a.terminalActor
  evidenceRef : optionalStr value "evidence_ref" = some a.evidenceRef
  reason : optionalStr value "reason" = some a.reason
  terminalAt : optionalInstant time value "terminal_at" = some a.terminalAt

/-- Deserialising succeeds with exactly the approval the properties spell. -/
theorem ofJson_iff {time : TimeCrate} {value : Json} {a : StoredApproval} :
    StoredApproval.ofJson time value = some a ↔ Spells time value a := by
  constructor
  · intro h
    unfold StoredApproval.ofJson at h
    obtain ⟨_, h1, h⟩ := Option.bind_eq_some_iff.mp h
    obtain ⟨_, h2, h⟩ := Option.bind_eq_some_iff.mp h
    obtain ⟨_, h3, h⟩ := Option.bind_eq_some_iff.mp h
    obtain ⟨_, h4, h⟩ := Option.bind_eq_some_iff.mp h
    obtain ⟨_, h5, h⟩ := Option.bind_eq_some_iff.mp h
    obtain ⟨_, h6, h⟩ := Option.bind_eq_some_iff.mp h
    obtain ⟨_, h7, h⟩ := Option.bind_eq_some_iff.mp h
    obtain ⟨_, h8, h⟩ := Option.bind_eq_some_iff.mp h
    obtain ⟨_, h9, h⟩ := Option.bind_eq_some_iff.mp h
    obtain ⟨_, h10, h⟩ := Option.bind_eq_some_iff.mp h
    obtain ⟨_, h11, h⟩ := Option.bind_eq_some_iff.mp h
    obtain ⟨_, h12, h⟩ := Option.bind_eq_some_iff.mp h
    obtain ⟨_, h13, h⟩ := Option.bind_eq_some_iff.mp h
    obtain ⟨_, h14, h⟩ := Option.bind_eq_some_iff.mp h
    obtain ⟨_, h15, h⟩ := Option.bind_eq_some_iff.mp h
    obtain ⟨_, h16, h⟩ := Option.bind_eq_some_iff.mp h
    obtain ⟨_, h17, h⟩ := Option.bind_eq_some_iff.mp h
    cases h
    exact ⟨h1, h2, h3, h4, h5, h6, h7, h8, h9, h10, h11, h12, h13, h14, h15, h16, h17⟩
  · intro ⟨h1, h2, h3, h4, h5, h6, h7, h8, h9, h10, h11, h12, h13, h14, h15, h16, h17⟩
    unfold StoredApproval.ofJson
    rw [h1, h2, h3, h4, h5, h6, h7, h8, h9, h10, h11, h12, h13, h14, h15, h16, h17]
    rfl

@[simp] theorem ofOption_str (s : Option String) {value : Json} {name : String}
    (h : value.get name = some (.ofOption s)) : optionalStr value name = some s := by
  unfold optionalStr
  rw [h]
  cases s <;> rfl

/-- The record of a new intent spells its pending approval. -/
theorem spells_recordOf {time : TimeCrate} {intent : RequestIntent} {i : IntentInput}
    (hi : IntentInput.ofIntent time intent = some i)
    (hreq : time.parse i.requestedAt = some intent.requestedAt)
    (hexp : time.parse i.expiresAt = some intent.expiresAt) :
    Spells time (recordOf i) (.ofIntent intent) := by
  simp only [IntentInput.ofIntent, bind, Option.bind_eq_some_iff, pure, Option.some.injEq] at hi
  obtain ⟨requestedAt, -, expiresAt, -, rfl⟩ := hi
  refine ⟨rfl, rfl, rfl, rfl, rfl, rfl, rfl, ofOption_str _ rfl, rfl, rfl, ?_, ?_, rfl, rfl, rfl,
    rfl, rfl⟩
  · exact hreq
  · exact hexp

/-- Settling a record replaces what `json_set` names and nothing else. -/
theorem spells_setAll {time : TimeCrate} {value : Json} {a : StoredApproval}
    (hobj : value.IsObj) (h : Spells time value a) (set : Settlement) {at_ : String} {instant : Int}
    (hat : time.parse at_ = some instant) :
    Spells time (value.setAll (recordUpdates set.status.asStr set.caller set.actor set.evidenceRef
      set.reason at_)) (a.settle set instant) := by
  -- a member that is not named among the updates keeps its value
  have hkeep : ∀ name, name ∉ ["status", "revision", "terminal_caller_instance", "terminal_actor",
      "evidence_ref", "reason", "terminal_at"] →
      (value.setAll (recordUpdates set.status.asStr set.caller set.actor set.evidenceRef
        set.reason at_)).get name = value.get name := by
    intro name hn
    refine Json.get_setAll_of_notMem hobj (fun update hu hname => hn ?_)
    have hmem : update.1 ∈ (recordUpdates set.status.asStr set.caller set.actor set.evidenceRef
        set.reason at_).map Prod.fst := List.mem_map_of_mem hu
    rw [hname]
    exact hmem
  -- a member that is named has the last value it is given
  have hset : ∀ (before after : List (String × Json)) name v,
      recordUpdates set.status.asStr set.caller set.actor set.evidenceRef set.reason at_
        = before ++ (name, v) :: after → (∀ update ∈ after, name ≠ update.1) →
      (value.setAll (recordUpdates set.status.asStr set.caller set.actor set.evidenceRef
        set.reason at_)).get name = some v := by
    intro before after name v heq hn
    rw [heq]
    exact Json.get_setAll_of_last hobj hn
  -- from here on only these two facts about the new value matter
  generalize hnew : value.setAll _ = new at hkeep hset ⊢
  have hstr : ∀ name, new.get name = value.get name →
      requiredStr new name = requiredStr value name := fun name hg => by
    rw [requiredStr, hg, requiredStr]
  have hkeepStr : ∀ name, name ∉ ["status", "revision", "terminal_caller_instance",
      "terminal_actor", "evidence_ref", "reason", "terminal_at"] →
      requiredStr new name = requiredStr value name := fun name hn => hstr name (hkeep name hn)
  have hstatus : new.get "status" = some (.str set.status.asStr) :=
    hset [] _ _ _ rfl (by simp)
  have hrevision : new.get "revision" = some (.num 2) := hset [_] _ _ _ rfl (by simp)
  have hcaller : new.get "terminal_caller_instance" = some (.str set.caller) :=
    hset [_, _] _ _ _ rfl (by simp)
  have hactor : new.get "terminal_actor" = some (.ofOption set.actor) :=
    hset [_, _, _] _ _ _ rfl (by simp)
  have hevidence : new.get "evidence_ref" = some (.ofOption set.evidenceRef) :=
    hset [_, _, _, _] _ _ _ rfl (by simp)
  have hreason : new.get "reason" = some (.ofOption set.reason) :=
    hset [_, _, _, _, _] _ _ _ rfl (by simp)
  have hterminal : new.get "terminal_at" = some (.str at_) :=
    hset [_, _, _, _, _, _] [] _ _ rfl (by simp)
  exact {
    requestId := (hkeepStr _ (by decide)).trans h.requestId
    requesterInstance := (hkeepStr _ (by decide)).trans h.requesterInstance
    idempotencyKey := (hkeepStr _ (by decide)).trans h.idempotencyKey
    requestedBy := (hkeepStr _ (by decide)).trans h.requestedBy
    approvalKind := (hkeepStr _ (by decide)).trans h.approvalKind
    subjectKind := (hkeepStr _ (by decide)).trans h.subjectKind
    subjectId := (hkeepStr _ (by decide)).trans h.subjectId
    intentDigest := by
      rw [optionalStr, hkeep _ (by decide)]
      exact h.intentDigest
    status := by
      rw [statusOf, requiredStr, hstatus]
      change (ApprovalStatus.parse set.status.asStr).toOption = some set.status
      rw [ApprovalStatus.parse_asStr]
      rfl
    revision := by
      rw [hrevision]
      rfl
    requestedAt := by
      rw [requiredInstant, hkeepStr _ (by decide)]
      exact h.requestedAt
    expiresAt := by
      rw [requiredInstant, hkeepStr _ (by decide)]
      exact h.expiresAt
    terminalCallerInstance := by
      rw [optionalStr, hcaller]
      rfl
    terminalActor := ofOption_str _ hactor
    evidenceRef := ofOption_str _ hevidence
    reason := ofOption_str _ hreason
    terminalAt := by
      rw [optionalInstant, hterminal]
      simp only [hat, Option.map_some]
      rfl }

/-! ## Rows -/

/-- The text a terminal instant has, which JavaScript wrote from milliseconds. -/
def terminalText : Option Int → Json
  | some t => .str (Rfc3339.isoMillis (t / 1000000))
  | none => .null

/-- The record of an approval, property by property. -/
def recordFor (time : TimeCrate) (a : StoredApproval) : Json :=
  .obj [("request_id", .str a.requestId),
    ("requester_instance", .str a.requesterInstance),
    ("idempotency_key", .str a.idempotencyKey),
    ("requested_by", .str a.requestedBy),
    ("approval_kind", .str a.approvalKind),
    ("subject_kind", .str a.subjectKind),
    ("subject_id", .str a.subjectId),
    ("intent_digest", .ofOption a.intentDigest),
    ("requested_at", .str ((time.format a.requestedAt).getD "")),
    ("expires_at", .str ((time.format a.expiresAt).getD "")),
    ("status", .str a.status.asStr),
    ("revision", .num a.revision),
    ("terminal_caller_instance", .ofOption a.terminalCallerInstance),
    ("terminal_actor", .ofOption a.terminalActor),
    ("evidence_ref", .ofOption a.evidenceRef),
    ("reason", .ofOption a.reason),
    ("terminal_at", terminalText a.terminalAt)]

theorem recordFor_settle (time : TimeCrate) (a : StoredApproval) (set : Settlement) (date : Int) :
    (recordFor time a).setAll (recordUpdates set.status.asStr set.caller set.actor set.evidenceRef
      set.reason (Rfc3339.isoMillis date)) = recordFor time (a.settle set (date * 1000000)) := by
  have hdate : terminalText (some (date * 1000000)) = .str (Rfc3339.isoMillis date) := by
    rw [terminalText, Int.mul_ediv_cancel _ (by decide)]
  simp only [recordFor, StoredApproval.settle, hdate]
  rfl

/-- The columns of a row and its record name one approval, whose evidence is consistent. -/
structure StandsFor (time : TimeCrate) (row : D1Row) (a : StoredApproval) : Prop where
  requestId : row.requestId = a.requestId
  requesterInstance : row.requesterInstance = a.requesterInstance
  idempotencyKey : row.idempotencyKey = a.idempotencyKey
  status : row.status = a.status.asStr
  revision : row.revision = a.revision
  expiresUs : row.expiresUs * 1000 = a.expiresAt
  record : row.recordJson = recordFor time a
  decodes : StoredApproval.ofJson time row.recordJson = some a
  consistent : evidenceConsistent a = true

/-- The approval a row's record spells, when it spells one. -/
def approvalOf (time : TimeCrate) (row : D1Row) : StoredApproval :=
  (StoredApproval.ofJson time row.recordJson).getD default

namespace StandsFor

variable {time : TimeCrate} {row : D1Row} {a : StoredApproval}

theorem pair (h : StandsFor time row a) : row.pair = a.pair :=
  Prod.ext h.requesterInstance h.idempotencyKey

theorem isObj (h : StandsFor time row a) : row.recordJson.IsObj := ⟨_, h.record⟩

/-- An approval has one row that stands for it. -/
theorem row_eq {row' : D1Row} (h : StandsFor time row a) (h' : StandsFor time row' a) :
    row = row' := by
  have hus : row.expiresUs = row'.expiresUs := by
    have := h.expiresUs
    have := h'.expiresUs
    omega
  have h1 := h.requestId.trans h'.requestId.symm
  have h2 := h.requesterInstance.trans h'.requesterInstance.symm
  have h3 := h.idempotencyKey.trans h'.idempotencyKey.symm
  have h4 := h.status.trans h'.status.symm
  have h5 := h.revision.trans h'.revision.symm
  have h7 := h.record.trans h'.record.symm
  cases row
  cases row'
  simp only at h1 h2 h3 h4 h5 hus h7
  rw [h1, h2, h3, h4, h5, hus, h7]

theorem approvalOf_eq (h : StandsFor time row a) : approvalOf time row = a := by
  rw [approvalOf, h.decodes, Option.getD_some]

/-- The columns say whether the approval is pending. -/
theorem pending_iff (h : StandsFor time row a) :
    (row.status = "pending" ∧ row.revision = 1) ↔ a.status = .pending := by
  have hrev := revision_of_consistent h.consistent
  constructor
  · rintro ⟨hs, -⟩
    rw [h.status] at hs
    exact ApprovalStatus.asStr_injective (t := .pending) hs
  · intro hp
    refine ⟨by rw [h.status, hp]; rfl, ?_⟩
    rw [h.revision, hrev, if_pos hp]

theorem checks (h : StandsFor time row a) : row.checks = true := by
  have hrev := revision_of_consistent h.consistent
  unfold D1Row.checks
  rw [h.status, h.revision, hrev]
  cases a.status <;> decide

/-- A record is strings, nulls and one small number, under different names. -/
theorem plain (h : StandsFor time row a) : row.recordJson.Plain := by
  have hoption : ∀ s : Option String, (Json.ofOption s).Plain := by
    intro s
    cases s <;> exact trivial
  have hterminal : (terminalText a.terminalAt).Plain := by
    cases a.terminalAt <;> exact trivial
  have hrevision : Json.Safe a.revision := by
    rw [revision_of_consistent h.consistent]
    unfold Json.Safe
    split <;> decide
  have hnames : ["request_id", "requester_instance", "idempotency_key", "requested_by",
      "approval_kind", "subject_kind", "subject_id", "intent_digest", "requested_at", "expires_at",
      "status", "revision", "terminal_caller_instance", "terminal_actor", "evidence_ref", "reason",
      "terminal_at"].Nodup := by decide
  rw [h.record]
  exact ⟨⟨trivial, trivial, trivial, trivial, trivial, trivial, trivial, hoption _, trivial,
    trivial, trivial, hrevision, hoption _, hoption _, hoption _, hoption _, hterminal, trivial⟩,
    hnames⟩

/-- A row that comes with the characters of its record gives the value that is kept of it. -/
theorem decode_characters (h : StandsFor time row a) :
    decode (some (.obj [("record_json", .str (String.ofList row.recordJson.print))]))
      = decode (some row.toJson) := by
  have hparse := Json.parse_str_print h.plain
  unfold decode D1Row.toJson
  simp only [Json.get, Json.getField, if_true, Option.bind_some, hparse]
  rfl

end StandsFor

/-- SQLite's integer is the one the deadline was written as; nothing is cut off at 64 bits. -/
theorem castInteger_deadline {expiresAt : Int} (h : Storable expiresAt) :
    Decimal.castInteger (toString (expiresAt.tdiv 1000)) = expiresAt.tdiv 1000 := by
  obtain ⟨⟨hlow, hhigh⟩, hmicros⟩ := h
  have hexact := Int.tdiv_mul_cancel (Int.dvd_of_emod_eq_zero hmicros)
  apply Decimal.castInteger_toString
  · unfold Decimal.minInt64
    omega
  · unfold Decimal.maxInt64
    omega

/-- The row of a new intent stands for its pending approval. -/
theorem standsFor_ofIntent {time : TimeCrate} (hlaw : time.Lawful) {intent : RequestIntent}
    (hreq : Storable intent.requestedAt) (hexp : Storable intent.expiresAt) :
    ∃ i, IntentInput.ofIntent time intent = some i
      ∧ i.requestId = intent.requestId ∧ i.requesterInstance = intent.requesterInstance
      ∧ i.idempotencyKey = intent.idempotencyKey
      ∧ StandsFor time (D1Row.ofIntent i (toString (intent.expiresAt.tdiv 1000)))
        (.ofIntent intent) := by
  obtain ⟨requestedAt, hfr, hpr⟩ := hlaw.parse_format _ hreq.1
  obtain ⟨expiresAt, hfe, hpe⟩ := hlaw.parse_format _ hexp.1
  have hi : IntentInput.ofIntent time intent = some ⟨intent.requestId, intent.requesterInstance,
      intent.idempotencyKey, intent.requestedBy, intent.approvalKind, intent.subjectKind,
      intent.subjectId, intent.intentDigest, requestedAt, expiresAt⟩ := by
    unfold IntentInput.ofIntent
    rw [hfr, hfe]
    rfl
  have hmicros : intent.expiresAt.tdiv 1000 * 1000 = intent.expiresAt :=
    Int.tdiv_mul_cancel (Int.dvd_of_emod_eq_zero hexp.2)
  have hcast := castInteger_deadline hexp
  refine ⟨_, hi, rfl, rfl, rfl, rfl, rfl, rfl, rfl, rfl, ?_, ?_, ?_, rfl⟩
  · simp only [D1Row.ofIntent, hcast, StoredApproval.ofIntent, hmicros]
  · simp only [D1Row.ofIntent, recordFor, StoredApproval.ofIntent, hfr, hfe, Option.getD_some]
    rfl
  · exact ofJson_iff.mpr (spells_recordOf hi hpr hpe)

/-- Settling a row settles the approval it stands for. -/
theorem StandsFor.settle {time : TimeCrate} (hiso : ReadsIso time) {row : D1Row}
    {a : StoredApproval} (h : StandsFor time row a) (set : Settlement) {date : Int}
    (hdate : InYears (date * 1000000))
    (hset : evidenceConsistent (a.settle set (date * 1000000)) = true) :
    StandsFor time (D1Row.settle set.status.asStr set.caller set.actor set.evidenceRef set.reason
      (Rfc3339.isoMillis date) row) (a.settle set (date * 1000000)) where
  requestId := h.requestId
  requesterInstance := h.requesterInstance
  idempotencyKey := h.idempotencyKey
  status := rfl
  revision := rfl
  expiresUs := h.expiresUs
  record := by
    rw [D1Row.settle, h.record]
    exact recordFor_settle time a set date
  decodes := ofJson_iff.mpr
    (spells_setAll h.isObj (ofJson_iff.mp h.decodes) set (hiso date hdate))
  consistent := hset

end BusinessApproval.D1
