import BusinessApproval.Proof.Stages

/-!
# Rows and the records they decode to

A row that satisfies the `CHECK` constraints decodes, and its record carries
consistent evidence: the SQL constraints and `validate_evidence` say the same
thing. Settling a pending row is settling its record.
-/

namespace BusinessApproval

/-- The list of the `CHECK` constraints holds the texts of all statuses, and no other. -/
theorem ApprovalStatus.listed_iff {text : String} :
    ["pending", "approved", "rejected", "cancelled", "expired"].contains text = true
      ↔ ∃ status : ApprovalStatus, text = status.asStr := by
  simp only [List.contains_eq_mem, List.mem_cons, List.not_mem_nil, or_false, decide_eq_true_eq]
  constructor
  · rintro (h | h | h | h | h)
    · exact ⟨.pending, h⟩
    · exact ⟨.approved, h⟩
    · exact ⟨.rejected, h⟩
    · exact ⟨.cancelled, h⟩
    · exact ⟨.expired, h⟩
  · rintro ⟨status, rfl⟩
    cases status <;> decide

end BusinessApproval

namespace BusinessApproval.Postgres

namespace PgRow

/-- The record a row decodes to, when its status is one of the five. -/
def record (row : PgRow) : StoredApproval :=
  StoredApproval.ofRow row ((approvalStatus row).toOption.getD .pending)

theorem statusCheck_iff {row : PgRow} :
    row.statusCheck = true ↔ ∃ status : ApprovalStatus, row.status = status.asStr :=
  ApprovalStatus.listed_iff

theorem record_of_status {row : PgRow} (status : ApprovalStatus) (h : row.status = status.asStr) :
    row.record = StoredApproval.ofRow row status := by
  rw [record, approvalStatus, h, ApprovalStatus.parse_asStr]
  rfl

/-- The SQL evidence constraint says of a row what `validate_evidence` says of its record. -/
theorem evidenceCheck_eq {row : PgRow} {status : ApprovalStatus} (h : row.status = status.asStr) :
    row.evidenceCheck = evidenceConsistent (StoredApproval.ofRow row status) := by
  simp only [evidenceCheck, evidenceConsistent, StoredApproval.ofRow, h, Option.isNone_map,
    Option.isSome_map]
  cases status <;> simp [ApprovalStatus.asStr]

/-- What the constraints promise about a row, in terms of its record. -/
structure Holds (row : PgRow) : Prop where
  status : row.status = row.record.status.asStr
  consistent : evidenceConsistent row.record = true
  deadline : row.requestedAt < row.expiresAt
  digest : row.digestCheck = true

theorem checks_iff {row : PgRow} : row.checks = true ↔ row.Holds := by
  constructor
  · intro h
    simp only [checks, Bool.and_eq_true, decide_eq_true_eq] at h
    obtain ⟨⟨⟨⟨hs, hr⟩, hd⟩, he⟩, hg⟩ := h
    obtain ⟨status, hstatus⟩ := statusCheck_iff.mp hs
    have hrec := record_of_status status hstatus
    refine ⟨by rw [hrec]; exact hstatus, ?_, by omega, hg⟩
    rw [hrec, ← evidenceCheck_eq hstatus]
    exact he
  · rintro ⟨hs, he, hd, hg⟩
    have hrec := record_of_status _ hs
    have hrev : row.revision = if row.record.status = .pending then 1 else 2 :=
      revision_of_consistent he
    simp only [checks, Bool.and_eq_true, decide_eq_true_eq]
    refine ⟨⟨⟨⟨statusCheck_iff.mpr ⟨_, hs⟩, ?_⟩, by omega⟩, ?_⟩, hg⟩
    · rw [hrev]
      split <;> decide
    · rw [evidenceCheck_eq hs, ← hrec]
      exact he

@[simp] theorem record_requestId (row : PgRow) : row.record.requestId = row.requestId := rfl

@[simp] theorem record_requesterInstance (row : PgRow) :
    row.record.requesterInstance = row.requesterInstance := rfl

@[simp] theorem record_idempotencyKey (row : PgRow) :
    row.record.idempotencyKey = row.idempotencyKey := rfl

@[simp] theorem record_expiresAt (row : PgRow) :
    row.record.expiresAt = ofTimestamptz row.expiresAt := rfl

/-- A row within its constraints decodes. -/
theorem decode_of_checks {row : PgRow} (h : row.checks = true) :
    decodeApproval row = .ok row.record := by
  obtain ⟨hs, he, -, -⟩ := checks_iff.mp h
  have hrec := record_of_status _ hs
  have hrev : ¬ row.revision < 1 := by
    have hr : row.revision = if row.record.status = .pending then 1 else 2 :=
      revision_of_consistent he
    rw [hr]
    split <;> decide
  have hstatus : approvalStatus row = .ok row.record.status := by
    rw [approvalStatus, hs, ApprovalStatus.parse_asStr]
    rfl
  have hval : validateEvidence row.record = .ok () := by rw [validateEvidence, if_pos he]
  rw [decodeApproval, hstatus]
  simp only [bind, Except.bind, if_neg hrev, pure, Except.pure]
  rw [← hrec, hval]
  rfl

theorem ofTimestamptz_injective : Function.Injective ofTimestamptz := by
  intro a b h
  unfold ofTimestamptz at h
  omega

/-- Rows within their constraints are told apart by their records. -/
theorem record_injective {row row' : PgRow} (h : row.checks = true) (h' : row'.checks = true)
    (heq : row.record = row'.record) : row = row' := by
  -- the record keeps the parsed status; the constraint gives its text back
  have hs := (checks_iff.mp h).status
  rw [heq, ← (checks_iff.mp h').status] at hs
  simp only [record, StoredApproval.ofRow, StoredApproval.mk.injEq] at heq
  obtain ⟨h1, h2, h3, h4, h5, h6, h7, h8, -, h10, h11, h12, h13, h14, h15, h16, h17⟩ := heq
  have hreq := ofTimestamptz_injective h11
  have hexp := ofTimestamptz_injective h12
  have hterm := Option.map_injective ofTimestamptz_injective h17
  cases row
  cases row'
  rw [PgRow.mk.injEq]
  exact ⟨h1, h2, h3, h4, h5, h6, h7, hs, h10, hreq, hexp, h13, h14, h15, h16, hterm, h8⟩

/-! ## Settling -/

@[simp] theorem settle_requestId (set : Settlement) (now : Int) (row : PgRow) :
    (row.settle set now).requestId = row.requestId := rfl

@[simp] theorem settle_pair (set : Settlement) (now : Int) (row : PgRow) :
    (row.settle set now).pair = row.pair := rfl

/-- A settlement in the form one of the three transitions gives it. -/
inductive Settlement.Proper : Settlement → Prop
  | decided (status : ApprovalStatus) (h : status = .approved ∨ status = .rejected)
      (caller actor evidence : String) (reason : Option String) :
      Proper ⟨status.asStr, caller, some actor, some evidence, reason⟩
  | cancelled (caller actor : String) (reason : Option String) :
      Proper ⟨"cancelled", caller, some actor, none, reason⟩
  | expired (caller : String) : Proper ⟨"expired", caller, none, none, none⟩

theorem settle_checks {row : PgRow} {set : Settlement} (hset : set.Proper) (now : Int)
    (h : row.checks = true) (hp : row.record.status = .pending) :
    (row.settle set now).checks = true := by
  obtain ⟨hs, he, hd, hg⟩ := checks_iff.mp h
  have hrev : row.revision = 1 := by
    have hr : row.revision = if row.record.status = .pending then 1 else 2 :=
      revision_of_consistent he
    rw [hr, if_pos hp]
  simp only [checks, Bool.and_eq_true, decide_eq_true_eq]
  refine ⟨⟨⟨⟨?_, ?_⟩, hd⟩, ?_⟩, hg⟩
  · cases hset with
    | decided status => exact statusCheck_iff.mpr ⟨status, rfl⟩
    | cancelled => exact statusCheck_iff.mpr ⟨.cancelled, rfl⟩
    | expired => exact statusCheck_iff.mpr ⟨.expired, rfl⟩
  · simp only [settle]
    omega
  · cases hset with
    | decided status h =>
        rcases h with rfl | rfl <;> simp [evidenceCheck, settle, ApprovalStatus.asStr, hrev]
    | cancelled => simp [evidenceCheck, settle, hrev]
    | expired => simp [evidenceCheck, settle, hrev]

/-- The record of a settled row, with the status the settlement names. -/
theorem record_settle {row : PgRow} {set : Settlement} (status : ApprovalStatus)
    (hstatus : set.status = status.asStr) (now : Int) :
    (row.settle set now).record = { row.record with
      status := status
      revision := row.revision + 1
      terminalCallerInstance := some set.terminalCallerInstance
      terminalActor := set.terminalActor
      evidenceRef := set.evidenceRef
      reason := set.reason
      terminalAt := some (ofTimestamptz now) } := by
  rw [record_of_status status hstatus]
  rfl

end PgRow

/-! ## Sound tables -/

theorem requestId_of_lookup {table : Table} {requestId : String} {row : PgRow}
    (h : lookup table requestId = some row) : row.requestId = requestId :=
  Keyed.key_of_lookup h

/-- A row that has been settled is found in place of the one it was. -/
theorem lookup_put_settle {table : Table} {requestId : String} {old : PgRow}
    (hold : lookup table requestId = some old) (set : PgRow.Settlement) (now : Int) :
    lookup (Keyed.put PgRow.requestId table (old.settle set now)) requestId
      = some (old.settle set now) := by
  have hkey : (old.settle set now).requestId = requestId := by
    rw [PgRow.settle_requestId, requestId_of_lookup hold]
  have hself : lookup (Keyed.put PgRow.requestId table (old.settle set now))
      (old.settle set now).requestId = some (old.settle set now) := Keyed.lookup_put_self _ _
  rwa [hkey] at hself

/-- The constraints of the table: unique keys, and the checks on every row. -/
structure Sound (table : Table) : Prop where
  unique : Keyed.Unique PgRow.requestId PgRow.pair table
  checked : ∀ row ∈ table, row.checks = true

theorem sound_nil : Sound [] := ⟨Keyed.unique_nil, by simp⟩

namespace Sound

variable {table : Table}

theorem checks_of_lookup (h : Sound table) {requestId : String} {row : PgRow}
    (hrow : lookup table requestId = some row) : row.checks = true :=
  h.checked row (Keyed.mem_of_lookup hrow)

/-- Adding a checked row with free keys keeps the table sound. -/
theorem put_fresh (h : Sound table) {row : PgRow} (hfree : taken table row = false)
    (hrow : row.checks = true) : Sound (Keyed.put PgRow.requestId table row) := by
  refine ⟨h.unique.put_fresh hfree, fun r hr => ?_⟩
  rcases Keyed.mem_put hr with rfl | hr
  · exact hrow
  · exact h.checked r hr

/-- Replacing a row by a checked one with its keys keeps the table sound. -/
theorem put_same (h : Sound table) {row old : PgRow} (hold : lookup table row.requestId = some old)
    (hpair : row.pair = old.pair) (hrow : row.checks = true) :
    Sound (Keyed.put PgRow.requestId table row) := by
  refine ⟨h.unique.put_same hold hpair, fun r hr => ?_⟩
  rcases Keyed.mem_put hr with rfl | hr
  · exact hrow
  · exact h.checked r hr

/-- `WHERE request_id=$1` selects the row with that key, if any. -/
theorem filter_id (h : Sound table) (requestId : String) :
    table.filter (fun row => row.requestId == requestId) = (lookup table requestId).toList :=
  Keyed.filter_key h.unique.keys requestId

end Sound

end BusinessApproval.Postgres
