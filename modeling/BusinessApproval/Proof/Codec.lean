import BusinessApproval.Model.Codec
import BusinessApproval.Proof.Rows
import BusinessApproval.Proof.Standard

/-!
# What is written is read back

The record of an approval is written by Rust when it serialises, by JavaScript when it
creates a record, and by SQLite's `json_set` when it settles one; the readers are Rust. Here
each of the three is read back as what was meant: the approval itself, the pending approval
of the intent, and the approval with its settlement. A status has one text, wherever it is
written or looked for.
-/

namespace BusinessApproval

open D1

/-! ## Statuses -/

namespace ApprovalStatus

@[simp] theorem serdeName_eq (status : ApprovalStatus) : status.serdeName = status.asStr := by
  cases status <;> decide +kernel

theorem ofSerdeName_iff {name : String} {status : ApprovalStatus} :
    ofSerdeName name = some status ↔ name = status.asStr := by
  constructor
  · intro h
    have hname := List.find?_some h
    rw [beq_iff_eq, serdeName_eq] at hname
    exact hname.symm
  · rintro rfl
    cases status <;> decide +kernel

theorem parse_iff {name : String} {status : ApprovalStatus} :
    parse name = .ok status ↔ name = status.asStr := by
  constructor
  · intro h
    unfold parse at h
    split at h <;> cases h <;> rfl
  · rintro rfl
    exact parse_asStr status

/-- The two readers of a status agree. -/
theorem ofSerdeName_eq (name : String) : ofSerdeName name = (parse name).toOption := by
  refine Option.ext fun status => ?_
  rw [ofSerdeName_iff, ← parse_iff]
  cases parse name with
  | ok other => exact ⟨fun h => by cases h; rfl, fun h => by cases h; rfl⟩
  | error e => exact iff_of_false (fun h => by cases h) fun h => by cases h

end ApprovalStatus

/-- A status has one name for serde, and that is its text. -/
structure StatusNamed (status : ApprovalStatus) : Prop where
  serialized : status.serdeName = status.asStr
  deserialized : ∀ name, ApprovalStatus.ofSerdeName name = some status ↔ name = status.asStr
  parsed : ∀ name, ApprovalStatus.parse name = .ok status ↔ name = status.asStr

theorem status_named (status : ApprovalStatus) : StatusNamed status :=
  ⟨status.serdeName_eq, fun _ => ApprovalStatus.ofSerdeName_iff, fun _ => ApprovalStatus.parse_iff⟩

/-! ## Integers -/

theorem Integers.deserialize_serialize {integers : Integers} {n : Int} {v : Json}
    (h : integers.serialize n = some v) : integers.deserialize (some v) = some n := by
  unfold Integers.serialize at h
  obtain ⟨⟨hleast, hgreatest⟩, hv⟩ := Option.ite_none_right_eq_some.mp h
  cases hv
  refine Option.filter_eq_some_iff.mpr ⟨rfl, ?_⟩
  rw [Bool.and_eq_true, decide_eq_true_eq, decide_eq_true_eq]
  exact ⟨hleast, hgreatest⟩

/-! ## Records -/

/-- RFC 3339 text is read back as the instant it was written for. -/
def TextRoundTrips (time : TimeCrate) : Prop :=
  ∀ t text, time.format t = some text → time.parse text = some t

theorem Standard.time_roundTrips : TextRoundTrips Standard.time :=
  fun _ _ h => Rfc3339.parse_of_format h

section Records

variable {time : TimeCrate} {integers : Integers} {a : StoredApproval} {v : Json}

/-- The reader of D1 records is the one serde derives, on the integers of JavaScript. -/
theorem ofJson_eq (time : TimeCrate) :
    D1.StoredApproval.ofJson time = StoredApproval.deserialize time .serdeWasm := by
  funext v
  unfold D1.StoredApproval.ofJson StoredApproval.deserialize statusOf
  simp only [ApprovalStatus.ofSerdeName_eq]
  rfl

theorem optionalInstant_serialize (htext : TextRoundTrips time) {instant : Option Int}
    {name : String} {w : Json} (hget : v.get name = some w)
    (hw : serializeInstant time instant = some w) : optionalInstant time v name = some instant := by
  unfold optionalInstant
  rw [hget]
  cases instant with
  | none =>
      cases hw
      rfl
  | some t =>
      obtain ⟨text, hformat, rfl⟩ := Option.map_eq_some_iff.mp hw
      exact Option.map_eq_some_iff.mpr ⟨t, htext t text hformat, rfl⟩

/-- **A serialised approval is read back.** -/
theorem deserialize_serialize (htext : TextRoundTrips time)
    (h : StoredApproval.serialize time integers a = some v) :
    StoredApproval.deserialize time integers v = some a := by
  simp only [StoredApproval.serialize, bind, Option.bind_eq_some_iff, pure, Option.some.injEq] at h
  obtain ⟨revision, hrevision, requestedAt, hreq, expiresAt, hexp, terminalAt, hterminal, rfl⟩ := h
  have hstatus : ApprovalStatus.ofSerdeName a.status.serdeName = some a.status :=
    ApprovalStatus.ofSerdeName_iff.mpr a.status.serdeName_eq
  have hrev := Integers.deserialize_serialize hrevision
  have hrequested := htext _ _ hreq
  have hexpires := htext _ _ hexp
  -- member after member, in the order of the fields
  unfold StoredApproval.deserialize
  iterate 7 refine Option.bind_eq_some_iff.mpr ⟨_, rfl, ?_⟩
  refine Option.bind_eq_some_iff.mpr ⟨_, ofOption_str a.intentDigest rfl, ?_⟩
  refine Option.bind_eq_some_iff.mpr ⟨_, hstatus, ?_⟩
  refine Option.bind_eq_some_iff.mpr ⟨_, hrev, ?_⟩
  refine Option.bind_eq_some_iff.mpr ⟨_, hrequested, ?_⟩
  refine Option.bind_eq_some_iff.mpr ⟨_, hexpires, ?_⟩
  refine Option.bind_eq_some_iff.mpr ⟨_, ofOption_str a.terminalCallerInstance rfl, ?_⟩
  refine Option.bind_eq_some_iff.mpr ⟨_, ofOption_str a.terminalActor rfl, ?_⟩
  refine Option.bind_eq_some_iff.mpr ⟨_, ofOption_str a.evidenceRef rfl, ?_⟩
  refine Option.bind_eq_some_iff.mpr ⟨_, ofOption_str a.reason rfl, ?_⟩
  exact Option.bind_eq_some_iff.mpr ⟨_, optionalInstant_serialize htext rfl hterminal, rfl⟩

/-- An approval is serialised when its revision is carried and its instants have texts. -/
theorem serialize_isSome_iff : (StoredApproval.serialize time integers a).isSome = true ↔
    (integers.least ≤ a.revision ∧ a.revision ≤ integers.greatest)
      ∧ (time.format a.requestedAt).isSome = true ∧ (time.format a.expiresAt).isSome = true
      ∧ ∀ t, a.terminalAt = some t → (time.format t).isSome = true := by
  have hrevision : (integers.serialize a.revision).isSome = true ↔
      integers.least ≤ a.revision ∧ a.revision ≤ integers.greatest := by
    unfold Integers.serialize
    split <;> simp_all
  have hterminal : (serializeInstant time a.terminalAt).isSome = true ↔
      ∀ t, a.terminalAt = some t → (time.format t).isSome = true := by
    cases a.terminalAt with
    | none => exact iff_of_true rfl fun t h => by cases h
    | some t => simp [serializeInstant]
  rw [← hrevision, ← hterminal]
  unfold StoredApproval.serialize
  cases integers.serialize a.revision <;> cases time.format a.requestedAt <;>
    cases time.format a.expiresAt <;> cases serializeInstant time a.terminalAt <;> simp

/-- **The record of a new intent** is read back as the pending approval of that intent. -/
theorem ofJson_recordOf (htext : TextRoundTrips time) {intent : RequestIntent} {i : IntentInput}
    (hi : IntentInput.ofIntent time intent = some i) :
    D1.StoredApproval.ofJson time (recordOf i) = some (.ofIntent intent) := by
  have hinstants : time.format intent.requestedAt = some i.requestedAt
      ∧ time.format intent.expiresAt = some i.expiresAt := by
    simp only [IntentInput.ofIntent, bind, Option.bind_eq_some_iff, pure, Option.some.injEq] at hi
    obtain ⟨requestedAt, hreq, expiresAt, hexp, rfl⟩ := hi
    exact ⟨hreq, hexp⟩
  exact ofJson_iff.mpr
    (spells_recordOf hi (htext _ _ hinstants.1) (htext _ _ hinstants.2))

/-- What an approval is read from is an object. -/
theorem isObj_of_ofJson (h : D1.StoredApproval.ofJson time v = some a) : v.IsObj := by
  have hid := (ofJson_iff.mp h).requestId
  unfold requiredStr at hid
  cases v with
  | obj fields => exact ⟨fields, rfl⟩
  | _ => cases hid

/-- **A settled record** is read back as the approval with its settlement. -/
theorem ofJson_setAll (h : D1.StoredApproval.ofJson time v = some a) (set : Settlement)
    {at_ : String} {instant : Int} (hat : time.parse at_ = some instant) :
    D1.StoredApproval.ofJson time (v.setAll (recordUpdates set.status.asStr set.caller set.actor
      set.evidenceRef set.reason at_)) = some (a.settle set instant) :=
  ofJson_iff.mpr (spells_setAll (isObj_of_ofJson h) (ofJson_iff.mp h) set hat)

end Records

/-! ## Statuses in SQL -/

/-- What a D1 write says of statuses: a new row has one of the given, and an update takes
pending rows to one of them, in their columns and in their records. -/
def D1.Write.Names (among : List ApprovalStatus) : Write → Prop
  | .insert row => ∃ status ∈ among, row.status = status.asStr
      ∧ row.recordJson.get "status" = some (.str status.asStr)
  | .update condition set =>
      (∀ row, condition row = true → row.status = ApprovalStatus.pending.asStr)
      ∧ ∃ status ∈ among, ∃ caller actor evidence reason at_,
        set = D1Row.settle status.asStr caller actor evidence reason at_

def D1.D1Op.Names (among : List ApprovalStatus) : D1Op → Prop
  | .batch write _ => write.Names among
  | _ => True

/-- What a PostgreSQL statement says of statuses. -/
def Postgres.SqlOp.Names (among : List ApprovalStatus) : Postgres.SqlOp → Prop
  | .insert row => ∃ status ∈ among, row.status = status.asStr
  | .update _ set => ∃ status ∈ among, set.status = status.asStr
  | _ => True

/-- The statuses a transition of D1 leads to. -/
def D1.Kind.statuses : Kind → List ApprovalStatus
  | .decide => [.approved, .rejected]
  | .cancel => [.cancelled]
  | .expire => [.expired]

theorem D1.d1Row_checks_iff {row : D1Row} : row.checks = true ↔
    (∃ status : ApprovalStatus, row.status = status.asStr)
      ∧ (row.revision = 1 ∨ row.revision = 2) := by
  rw [D1Row.checks, Bool.and_eq_true]
  refine and_congr ApprovalStatus.listed_iff ?_
  simp

theorem D1.request_names (i : IntentInput) (expiresUs : String) :
    (D1.request i expiresUs).run.Emits (D1Op.Names [.pending]) (fun _ _ => True) := by
  refine Prog.emits_run_bind ⟨⟨.pending, List.mem_singleton_self _, rfl, rfl⟩, fun _ _ => trivial⟩
    fun result => ?_
  refine Prog.emits_run_bind (Prog.emits_ofExcept _) fun _ => ?_
  exact Prog.emits_run_bind (Prog.emits_ofExcept _) fun _ => trivial

theorem D1.decided_iff {input : Input} :
    ["approved", "rejected"].contains (transitionStatus .decide input) = true
      ↔ ∃ status ∈ Kind.decide.statuses, transitionStatus .decide input = status.asStr := by
  simp [Kind.statuses, ApprovalStatus.asStr]

/-- A decision for any other status is refused before anything else happens. -/
theorem D1.decides_iff {input : Input} :
    (transition .decide input).run ≠ .ret (.error "invalid_approval_transition")
      ↔ ∃ status ∈ Kind.decide.statuses, transitionStatus .decide input = status.asStr := by
  rw [← decided_iff]
  unfold transition
  cases hallowed : ["approved", "rejected"].contains (transitionStatus .decide input) with
  | true =>
      simp only [hallowed]
      exact iff_of_true (fun h => by cases h) trivial
  | false =>
      simp only [hallowed]
      exact iff_of_false (fun h => h rfl) Bool.false_ne_true

theorem D1.transition_names (kind : Kind) (input : Input) :
    (transition kind input).run.Emits (D1Op.Names kind.statuses) (fun _ _ => True) := by
  unfold transition
  cases hrefused : kind == .decide && !(["approved", "rejected"].contains
      (transitionStatus kind input)) with
  | true =>
      simp only [hrefused]
      trivial
  | false =>
      -- the status is one of those the kind leads to
      obtain ⟨status, hmem, hstatus⟩ :
          ∃ status ∈ kind.statuses, transitionStatus kind input = status.asStr := by
        cases kind with
        | decide => exact decided_iff.mp ((Bool.not_eq_false' _).mp hrefused)
        | cancel => exact ⟨.cancelled, List.mem_singleton_self _, rfl⟩
        | expire => exact ⟨.expired, List.mem_singleton_self _, rfl⟩
      simp only [hrefused]
      rw [hstatus]
      refine ⟨trivial, fun date _ => ⟨trivial, fun now _ =>
        ⟨⟨fun row hrow => ?_, status, hmem, _, _, _, _, _, rfl⟩, fun answer _ => ?_⟩⟩⟩
      · simp only [Bool.and_eq_true, beq_iff_eq] at hrow
        exact hrow.1.1.2
      · cases answer with
        | error message => trivial
        | ok result =>
            exact Prog.emits_run_bind (Prog.emits_ofExcept _) fun _ =>
              Prog.emits_run_bind (Prog.emits_ofExcept _) fun _ => trivial

section Postgres

variable {among : List ApprovalStatus}

theorem Postgres.lockRequest_names (requestId : String) :
    (Postgres.lockRequest requestId).run.Emits (SqlOp.Names among) (fun _ _ => True) := by
  refine Prog.emits_run_bind ⟨trivial, fun _ _ => trivial⟩ fun row => ?_
  cases row with
  | none => trivial
  | some row => exact Prog.emits_run_bind ⟨trivial, fun _ _ => trivial⟩ fun _ => trivial

theorem Postgres.request_names (timestamptz : Int → Int) (intent : RequestIntent) :
    (Postgres.request timestamptz intent).run.Emits (SqlOp.Names [.pending]) (fun _ _ => True) := by
  refine Prog.emits_run_bind ⟨trivial, fun _ _ => trivial⟩ fun _ => ?_
  refine Prog.emits_run_bind ⟨⟨.pending, List.mem_singleton_self _, rfl⟩, fun _ _ => trivial⟩
    fun inserted => ?_
  cases inserted with
  | some row =>
      refine Prog.emits_run_bind ⟨trivial, fun _ _ => trivial⟩ fun approval => ?_
      exact Prog.emits_run_bind ⟨trivial, fun _ _ => trivial⟩ fun _ => trivial
  | none =>
      refine Prog.emits_run_bind ⟨trivial, fun _ _ => trivial⟩ fun rows => ?_
      match rows with
      | [] => trivial
      | [row] =>
          refine Prog.emits_run_bind ⟨trivial, fun _ _ => trivial⟩ fun approval => ?_
          split
          · trivial
          · exact Prog.emits_run_bind ⟨trivial, fun _ _ => trivial⟩ fun _ => trivial
      | _ :: _ :: _ => trivial

/-- The last steps of a transition, from its `UPDATE` on. -/
theorem Postgres.update_names {requestId operation : String} {set : PgRow.Settlement}
    {status : ApprovalStatus} (hmem : status ∈ among) (hstatus : set.status = status.asStr)
    {α : Type} {result : StoredApproval → α} {finish : String} :
    (do
      let row ← Postgres.database operation (.update requestId set) Postgres.fetchOne
      let approval ← Postgres.decode row
      Postgres.commit finish
      return result approval : Postgres.Storage α).run.Emits (SqlOp.Names among)
        (fun _ _ => True) := by
  refine Prog.emits_run_bind ⟨⟨status, hmem, hstatus⟩, fun _ _ => trivial⟩ fun row => ?_
  refine Prog.emits_run_bind ⟨trivial, fun _ _ => trivial⟩ fun approval => ?_
  exact Prog.emits_run_bind ⟨trivial, fun _ _ => trivial⟩ fun _ => trivial

theorem Postgres.decide_names (requestId : String) (decision : ApprovalStatus)
    (caller actor evidenceRef : String) (reason : Option String) :
    (Postgres.decide requestId decision caller actor evidenceRef reason).run.Emits
      (SqlOp.Names [decision]) (fun _ _ => True) := by
  refine Prog.emits_run_bind ⟨trivial, fun _ _ => trivial⟩ fun _ => ?_
  refine Prog.emits_run_bind (Postgres.lockRequest_names requestId) fun current => ?_
  split
  next current =>
      split
      · trivial
      · exact Postgres.update_names (List.mem_singleton_self _) rfl
  next => trivial

theorem Postgres.cancel_names (requestId caller actor : String) (reason : Option String) :
    (Postgres.cancel requestId caller actor reason).run.Emits (SqlOp.Names [.cancelled])
      (fun _ _ => True) := by
  refine Prog.emits_run_bind ⟨trivial, fun _ _ => trivial⟩ fun _ => ?_
  refine Prog.emits_run_bind (Postgres.lockRequest_names requestId) fun current => ?_
  split
  next current =>
      split
      · trivial
      · split
        · trivial
        · exact Postgres.update_names (List.mem_singleton_self _) rfl
  next => trivial

theorem Postgres.expire_names (requestId caller : String) :
    (Postgres.expire requestId caller).run.Emits (SqlOp.Names [.expired]) (fun _ _ => True) := by
  refine Prog.emits_run_bind ⟨trivial, fun _ _ => trivial⟩ fun _ => ?_
  refine Prog.emits_run_bind (Postgres.lockRequest_names requestId) fun current => ?_
  split
  next current =>
      split
      · trivial
      · refine Prog.emits_run_bind ⟨trivial, fun _ _ => trivial⟩ fun due => ?_
        split
        · trivial
        · exact Postgres.update_names (List.mem_singleton_self _) rfl
  next => trivial

end Postgres

/-- Wherever SQL or the code around it names a status, it is by the text of that status. -/
structure StatusesInSql : Prop where
  d1Check : ∀ row : D1Row, row.checks = true ↔
    (∃ status : ApprovalStatus, row.status = status.asStr) ∧ (row.revision = 1 ∨ row.revision = 2)
  d1Request : ∀ i expiresUs,
    (D1.request i expiresUs).run.Emits (D1Op.Names [.pending]) (fun _ _ => True)
  d1Decides : ∀ input,
    (transition .decide input).run ≠ .ret (.error "invalid_approval_transition")
      ↔ ∃ status ∈ Kind.decide.statuses, transitionStatus .decide input = status.asStr
  d1Transition : ∀ kind input,
    (transition kind input).run.Emits (D1Op.Names kind.statuses) (fun _ _ => True)
  postgresCheck : ∀ row : Postgres.PgRow, row.statusCheck = true ↔
    ∃ status : ApprovalStatus, row.status = status.asStr
  postgresEvidence : ∀ (row : Postgres.PgRow) (status : ApprovalStatus),
    row.status = status.asStr →
      row.evidenceCheck = evidenceConsistent (Postgres.StoredApproval.ofRow row status)
  postgresRequest : ∀ timestamptz intent,
    (Postgres.request timestamptz intent).run.Emits (Postgres.SqlOp.Names [.pending])
      (fun _ _ => True)
  postgresDecide : ∀ id decision caller actor evidenceRef reason,
    (Postgres.decide id decision caller actor evidenceRef reason).run.Emits
      (Postgres.SqlOp.Names [decision]) (fun _ _ => True)
  postgresCancel : ∀ id caller actor reason,
    (Postgres.cancel id caller actor reason).run.Emits (Postgres.SqlOp.Names [.cancelled])
      (fun _ _ => True)
  postgresExpire : ∀ id caller,
    (Postgres.expire id caller).run.Emits (Postgres.SqlOp.Names [.expired]) (fun _ _ => True)

theorem statuses_in_sql : StatusesInSql where
  d1Check _ := D1.d1Row_checks_iff
  d1Request := D1.request_names
  d1Decides _ := D1.decides_iff
  d1Transition := D1.transition_names
  postgresCheck _ := Postgres.PgRow.statusCheck_iff
  postgresEvidence _ _ := Postgres.PgRow.evidenceCheck_eq
  postgresRequest := Postgres.request_names
  postgresDecide := Postgres.decide_names
  postgresCancel := Postgres.cancel_names
  postgresExpire := Postgres.expire_names

/-! ## All together -/

/-- What is written of an approval is read back as it was meant. -/
structure RecordRoundTrips (time : TimeCrate) : Prop where
  /-- The record of a new intent. -/
  created : ∀ intent i, IntentInput.ofIntent time intent = some i →
    ∃ a, D1.StoredApproval.ofJson time (recordOf i) = some a ∧ sameIntent a intent = true
      ∧ a.requestedAt = intent.requestedAt ∧ validateEvidence a = .ok ()
  /-- An approval that is serialised, over the integers of any format. -/
  serialized : ∀ integers a v, StoredApproval.serialize time integers a = some v →
    StoredApproval.deserialize time integers v = some a
  serializes : ∀ integers a, (StoredApproval.serialize time integers a).isSome = true ↔
    (integers.least ≤ a.revision ∧ a.revision ≤ integers.greatest)
      ∧ (time.format a.requestedAt).isSome = true ∧ (time.format a.expiresAt).isSome = true
      ∧ ∀ t, a.terminalAt = some t → (time.format t).isSome = true
  /-- The reader of D1 records is the one serde derives. -/
  reader : D1.StoredApproval.ofJson time = StoredApproval.deserialize time .serdeWasm
  /-- A record after `json_set`. -/
  settled : ∀ v a, D1.StoredApproval.ofJson time v = some a →
    ∀ (status : ApprovalStatus) caller actor evidenceRef reason at_ instant,
      time.parse at_ = some instant →
        D1.StoredApproval.ofJson time
            (v.setAll (recordUpdates status.asStr caller actor evidenceRef reason at_))
          = some { a with
              status := status
              revision := 2
              terminalCallerInstance := some caller
              terminalActor := actor
              evidenceRef := evidenceRef
              reason := reason
              terminalAt := some instant }
  statuses : ∀ status, StatusNamed status
  sql : StatusesInSql

/-- **Every record is read back.** -/
theorem record_round_trips (time : TimeCrate) (htext : TextRoundTrips time) :
    RecordRoundTrips time where
  created intent _ hi := ⟨.ofIntent intent, ofJson_recordOf htext hi,
    StoredApproval.sameIntent_ofIntent intent, rfl, rfl⟩
  serialized _ _ _ := deserialize_serialize htext
  serializes _ _ := serialize_isSome_iff
  reader := ofJson_eq time
  settled _ _ h status caller actor evidenceRef reason _ _ hat :=
    ofJson_setAll h ⟨status, caller, actor, evidenceRef, reason⟩ hat
  statuses := status_named
  sql := statuses_in_sql

theorem record_round_trips_standard : RecordRoundTrips Standard.time :=
  record_round_trips Standard.time Standard.time_roundTrips

end BusinessApproval
