import BusinessApproval.Proof.Serving
import BusinessApproval.Proof.Standard

/-!
# What both tables always satisfy

Every D1 row says the same in its columns and in its record. On PostgreSQL no
statement the store sends is ever refused: no row violates a `CHECK`, every row
decodes, and the rows that are looked for are there. So none of the error branches
of either store is taken while its database does what it is asked to.
-/

namespace BusinessApproval

open ApprovalService

/-! ## PostgreSQL: every statement succeeds -/

namespace Postgres

/-- A statement, or a step of the driver, that did not fail. -/
def Succeeds : (q : SqlOp) → SqlRes q → Prop
  | .nowUtc, _ => True
  | .begin, r => Except.isOk r
  | .insert _, r => Except.isOk r
  | .selectForUpdate _, r => Except.isOk r
  | .select _, r => Except.isOk r
  | .selectDue _, r => Except.isOk r
  | .update _ _, r => Except.isOk r
  | .decode _, r => Except.isOk r
  | .commit, r => Except.isOk r

/-- Every step of a program run alone succeeds. -/
def Smooth {α : Type} (clock : Clock) (p : Prog SqlRes α) (s : Session) : Prop :=
  Prog.All (Session.perform clock) (fun q s => Succeeds q (Session.perform clock q s).1) p s

section Smooth

variable {β : Type} (clock : Clock) {table : Table}

@[simp] theorem smooth_ret {α : Type} (a : α) (s : Session) : Smooth clock (.ret a) s := trivial

theorem smooth_call {α : Type} (q : SqlOp) (k : SqlRes q → Prog SqlRes α) (s : Session) :
    Smooth clock (.call q k) s ↔ Succeeds q (Session.perform clock q s).1
      ∧ Smooth clock (k (Session.perform clock q s).1) (Session.perform clock q s).2 := Iff.rfl

@[simp] theorem isOk_ok {ε α : Type} (a : α) : Except.isOk (.ok a : Except ε α) = true := rfl

theorem smooth_write {t : Transition β} {row : PgRow} (hrow : lookup table t.requestId = some row)
    (hc : (row.settle t.set clock.transactionTimestamp).checks = true) (s : Table) :
    Smooth clock t.write ⟨s, some ⟨clock.transactionTimestamp, table⟩⟩ := by
  simp [smooth_call, Succeeds, Transition.write, Transition.decodeWritten, Transition.finish,
    Session.perform, Session.within, Transaction.update, hrow, hc, PgRow.decode_of_checks hc]

theorem smooth_transition {t : Transition β} (hs : Sound table) (hset : t.set.Proper)
    (hpending : ∀ a, t.refuse a = none → a.status = .pending) :
    Smooth clock t.start (Session.idle table) := by
  cases hrow : lookup table t.requestId with
  | none =>
      simp [smooth_call, Succeeds, Transition.start, Transition.lock, Transition.refused,
        Session.perform, Session.within, Session.idle, hs.filter_id, hrow]
  | some row =>
      have hchecks := hs.checks_of_lookup hrow
      have hdec := PgRow.decode_of_checks hchecks
      have hwrite := fun hr => smooth_write clock (t := t) hrow
        (PgRow.settle_checks hset _ hchecks (hpending row.record hr)) table
      simp only [smooth_call, Succeeds, Transition.start, Transition.lock,
        Transition.decodeLocked, Transition.settle, Session.perform, Session.within, Session.idle,
        hs.filter_id, hrow, Option.toList_some, hdec, isOk_ok, true_and]
      cases hr : t.refuse row.record with
      | some failure => exact smooth_ret clock _ _
      | none =>
          cases t.deadline with
          | false => exact hwrite hr
          | true =>
              by_cases hdue : row.expiresAt ≤ clock.transactionTimestamp
              · simp only [Transition.checkDue, smooth_call, Succeeds, Session.perform,
                  Session.within, Transaction.due, hrow, Option.toList_some, List.map_cons,
                  List.map_nil, hdue, decide_true, if_true, isOk_ok, true_and]
                exact hwrite hr
              · simp [Transition.checkDue, smooth_call, Succeeds, Session.perform, Session.within,
                  Transaction.due, hrow, hdue, Transition.refused]

theorem smooth_creation {c : Creation β} (hs : Sound table) (hc : c.row.checks = true) :
    Smooth clock c.start (Session.idle table) := by
  cases ht : taken table c.row with
  | false =>
      simp [smooth_call, Succeeds, Creation.start, Creation.insert, Creation.decodeInserted,
        Creation.finish, Session.perform, Session.within, Session.idle, Transaction.insert, hc, ht,
        PgRow.decode_of_checks hc]
  | true =>
      simp only [smooth_call, Succeeds, Creation.start, Creation.insert, Creation.select,
        Session.perform, Session.within, Session.idle, Transaction.insert, hc, ht, Bool.not_true,
        Bool.false_eq_true, if_false, if_true, isOk_ok, true_and]
      rcases hrows : table.filter (sharesKey c.intent) with _ | ⟨row, _ | ⟨row', rows⟩⟩
      · exact smooth_ret clock _ _
      · have hmem : row ∈ table := List.mem_of_mem_filter (hrows ▸ List.mem_singleton_self row)
        have hdec := PgRow.decode_of_checks (hs.checked row hmem)
        cases hsame : sameIntent row.record c.intent <;>
        simp [smooth_call, Succeeds, Creation.resolve, Creation.decodeExisting, Creation.compare,
          Creation.conflict, Creation.finish, Session.perform, hdec, hsame]
      · exact smooth_ret clock _ _

theorem smooth_inspection {i : Inspection β} (hs : Sound table) :
    Smooth clock i.start (Session.idle table) := by
  simp only [smooth_call, Succeeds, Inspection.start, Session.perform, Session.idle,
    hs.filter_condition, isOk_ok, true_and]
  cases hrow : (lookup table i.requestId).filter i.condition with
  | none => exact smooth_ret clock _ _
  | some row =>
      have hlook := (Option.filter_eq_some_iff.mp hrow).1
      have hdec := PgRow.decode_of_checks (hs.checks_of_lookup hlook)
      simp [smooth_call, Succeeds, Inspection.decodeFound, Session.perform, hdec]

/-- **Every step of an admissible store method succeeds on a sound table.** -/
theorem smooth_method {timestamptz : Int → Int} (hexact : Exact timestamptz) {o : StoreOp}
    (ho : Admissible o) (hs : Sound table) :
    Smooth clock (PostgresStore timestamptz true o) (Session.idle table) := by
  cases o with
  | now => exact ⟨trivial, trivial⟩
  | request intent =>
      have hrow := (Creation.row_of_admissible
        (c := (⟨timestamptz, intent, unavailableError⟩ : Creation _)) hexact ho).1
      have hsmooth := smooth_creation clock hs hrow
      rw [← request_eq] at hsmooth
      exact hsmooth
  | read id requester =>
      have hsmooth := smooth_inspection clock
        (i := (⟨id, requester, unavailableError⟩ : Inspection _)) hs
      rw [← read_eq] at hsmooth
      exact hsmooth
  | decide id status caller actor evidence reason =>
      have hsmooth := smooth_transition clock
        (t := Transition.decide unavailableError id status caller actor evidence reason) hs
        (.decided status ho _ _ _ _) (fun _ => Ledger.pending_of_refuseSettled)
      rw [← decide_eq] at hsmooth
      exact hsmooth
  | cancel id caller actor reason =>
      have hsmooth := smooth_transition clock
        (t := Transition.cancel unavailableError id caller actor reason) hs
        (.cancelled _ _ _) (fun _ => Ledger.pending_of_refuseOthers)
      rw [← cancel_eq] at hsmooth
      exact hsmooth
  | expire id caller =>
      have hsmooth := smooth_transition clock
        (t := Transition.expire unavailableError id caller) hs
        (.expired _) (fun _ => Ledger.pending_of_refuseSettled)
      rw [← expire_eq] at hsmooth
      exact hsmooth

end Smooth

end Postgres

/-! ## D1: columns and records in step -/

namespace D1

/-- A row whose columns repeat what its record says, which decodes with consistent evidence. -/
structure InStep (time : TimeCrate) (row : D1Row) : Prop where
  requestId : requiredStr row.recordJson "request_id" = some row.requestId
  requesterInstance : requiredStr row.recordJson "requester_instance" = some row.requesterInstance
  idempotencyKey : requiredStr row.recordJson "idempotency_key" = some row.idempotencyKey
  status : requiredStr row.recordJson "status" = some row.status
  revision : safeInteger (row.recordJson.get "revision") = some row.revision
  approval : ∃ a, StoredApproval.ofJson time row.recordJson = some a
    ∧ row.expiresUs * 1000 = a.expiresAt ∧ validateEvidence a = .ok ()

theorem StandsFor.inStep {time : TimeCrate} {row : D1Row} {a : StoredApproval}
    (h : StandsFor time row a) : InStep time row := by
  have hspells := ofJson_iff.mp h.decodes
  have hstatus : requiredStr row.recordJson "status" = some a.status.asStr := by
    rw [h.record]
    rfl
  exact {
    requestId := by rw [h.requestId, hspells.requestId]
    requesterInstance := by rw [h.requesterInstance, hspells.requesterInstance]
    idempotencyKey := by rw [h.idempotencyKey, hspells.idempotencyKey]
    status := by rw [h.status, hstatus]
    revision := by rw [h.revision, hspells.revision]
    approval := ⟨a, h.decodes, h.expiresUs, by rw [validateEvidence, if_pos h.consistent]⟩ }

end D1

/-! ## What every service call meets -/

/-- A store method that did not fail. -/
def Answered : (o : StoreOp) → StoreRes o → Prop
  | .now, r => Except.isOk (r : Except StorageError Int)
  | .request _, r => Except.isOk (r : Except StorageError (Except DomainFailure RequestOutcome))
  | .read _ _, r => Except.isOk (r : Except StorageError (Option StoredApproval))
  | .decide _ _ _ _ _ _, r =>
      Except.isOk (r : Except StorageError (Except DomainFailure StoredApproval))
  | .cancel _ _ _ _, r => Except.isOk (r : Except StorageError (Except DomainFailure StoredApproval))
  | .expire _ _, r => Except.isOk (r : Except StorageError (Except DomainFailure StoredApproval))

theorem answered_ledger (m : Moments) (o : StoreOp) (L : Ledger) :
    Answered o (Ledger.perform m o L).1 := by
  cases o <;> rfl

section Calls

variable {Ctx Clock State Row : Type} {B : Backend Clock State Row}
  {represents : State → Ledger → Prop} {moments : Clock → Moments} {deps : Deps Ctx}

/-- What holds of every admissible store call from a sound state holds along a service call. -/
theorem Implements.serve_all (config : ApprovalPolicy) (hB : Implements B represents moments)
    (hlaw : deps.time.Lawful) {clock : Clock} (hclock : B.inYears clock) {G : StoreOp → State → Prop}
    (hG : ∀ o s L, Admissible o → represents s L → G o s) (call : ServiceCall Ctx) {s : State}
    (hs : B.Reachable deps config s) :
    Prog.All (B.perform clock) G (BusinessApproval.serve deps config call) s := by
  obtain ⟨L, hL⟩ := hB.reachable hlaw hs
  refine (Prog.all_of_inv (I := fun s => ∃ L, represents s L) (fun o s ho hs => ?_)
    (serve_emits deps config hlaw call) ⟨L, hL.represents⟩).1
  -- the invariant is that the state stands for some ledger
  obtain ⟨L, hrep⟩ := hs
  obtain ⟨heq, hnext⟩ := hB.refines hclock (Sends.admissible ho) hrep
  refine ⟨hG o s L (Sends.admissible ho) hrep, ?_, _, hnext⟩
  rw [heq]
  cases o with
  | now => exact (hB.inYears hclock).now
  | _ => trivial

theorem Implements.answered (hB : Implements B represents moments) {clock : Clock}
    (hclock : B.inYears clock) {o : StoreOp} {s : State} {L : Ledger} (ho : Admissible o)
    (hrep : represents s L) : Answered o (B.perform clock o s).1 := by
  rw [(hB.refines hclock ho hrep).1]
  exact answered_ledger _ o L

end Calls

variable {Ctx : Type}

/-- What holds of the PostgreSQL table in every reachable state, and of every call from there. -/
structure Postgres.Constrained (deps : Deps Ctx) (config : ApprovalPolicy) : Prop where
  unique : ∀ table, (backend deps).Reachable deps config table →
    Keyed.Unique PgRow.requestId PgRow.pair table
  rows : ∀ table, (backend deps).Reachable deps config table → ∀ row ∈ table,
    row.checks = true ∧ ∃ a, decodeApproval row = .ok a ∧ validateEvidence a = .ok ()
  /-- No statement fails: no `CHECK` is violated, and every row decodes. -/
  statements : ∀ table, (backend deps).Reachable deps config table →
    ∀ clock : Clock, clock.InYears → ∀ call,
      Prog.All (alone deps.timestamptz clock)
        (fun o table => Smooth clock (PostgresStore deps.timestamptz true o) (Session.idle table))
        (serve deps config call) table
  /-- No store method fails. -/
  methods : ∀ table, (backend deps).Reachable deps config table →
    ∀ clock : Clock, clock.InYears → ∀ call,
      Prog.All (alone deps.timestamptz clock)
        (fun o table => Answered o (alone deps.timestamptz clock o table).1)
        (serve deps config call) table

/-- What holds of the D1 table in every reachable state, and of every call from there. -/
structure D1.Constrained (deps : Deps Ctx) (config : ApprovalPolicy) : Prop where
  unique : ∀ table, (backend deps).Reachable deps config table →
    Keyed.Unique D1Row.requestId D1Row.pair table
  rows : ∀ table, (backend deps).Reachable deps config table → ∀ row ∈ table, InStep deps.time row
  /-- No store method fails; the last branch of `classify` is not taken. -/
  methods : ∀ table, (backend deps).Reachable deps config table →
    ∀ clock : Clock, clock.InYears → ∀ call,
      Prog.All (alone deps.time clock) (fun o table => Answered o (alone deps.time clock o table).1)
        (serve deps config call) table

theorem Postgres.constrained {deps : Deps Ctx} (h : deps.Lawful) (config : ApprovalPolicy) :
    Postgres.Constrained deps config where
  unique table ht := by
    obtain ⟨L, hL⟩ := (implements h).reachable h.time ht
    exact hL.represents.sound.unique
  rows table ht row hrow := by
    obtain ⟨L, hL⟩ := (implements h).reachable h.time ht
    have hchecks := hL.represents.sound.checked row hrow
    refine ⟨hchecks, row.record, PgRow.decode_of_checks hchecks, ?_⟩
    rw [validateEvidence, if_pos (PgRow.checks_iff.mp hchecks).consistent]
  statements table ht clock hclock call :=
    (implements h).serve_all config h.time hclock
      (fun _ _ _ ho hrep => smooth_method clock h.timestamptz ho hrep.sound) call ht
  methods table ht clock hclock call :=
    (implements h).serve_all config h.time hclock
      (fun _ _ _ ho hrep => (implements h).answered hclock ho hrep) call ht

theorem D1.constrained {deps : Deps Ctx} (h : deps.Lawful) (config : ApprovalPolicy) :
    D1.Constrained deps config where
  unique table ht := by
    obtain ⟨L, hL⟩ := (implements h).reachable h.time ht
    exact hL.represents.unique
  rows table ht row hrow := by
    obtain ⟨L, hL⟩ := (implements h).reachable h.time ht
    obtain ⟨a, ha⟩ := hL.represents.rows row hrow
    exact ha.inStep
  methods table ht clock hclock call :=
    (implements h).serve_all config h.time hclock
      (fun _ _ _ ho hrep => (implements h).answered hclock ho hrep) call ht

/-- **Both tables keep their constraints, and no error branch of either store is taken.** -/
theorem constraints_hold (deps : Deps Ctx) (h : deps.Lawful) (config : ApprovalPolicy) :
    Postgres.Constrained deps config ∧ D1.Constrained deps config :=
  ⟨Postgres.constrained h config, D1.constrained h config⟩

theorem constraints_hold_standard :
    Postgres.Constrained Standard.deps Standard.policy
      ∧ D1.Constrained Standard.deps Standard.policy :=
  constraints_hold Standard.deps Standard.deps_lawful Standard.policy

end BusinessApproval
