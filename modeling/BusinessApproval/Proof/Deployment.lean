import BusinessApproval.Proof.D1Stages
import BusinessApproval.Proof.Lifecycle
import BusinessApproval.Proof.Setup

/-!
# The D1 store on its database

The rows of the store are kept as typed rows elsewhere, under constraints that are said
again. Here they are rows of the table that setup creates, in a database with other tables,
under the constraints that setup declares; and the two come to the same. So whatever the
order of setups, preparations and calls, the calls from the first setup on are those of the
store, the calls before it are without a store, and no other table is touched.
-/

namespace BusinessApproval.D1.Setup

/-! ## Constraints -/

theorem ofSql_toSql (row : D1Row) : D1Row.ofSql row.toSql = some row := rfl

/-- **What setup declares is what is asked of a typed row**: its checks, and that its keys
are free. -/
theorem admits_rows (rows : Table) (row : D1Row) :
    requestsTable.admits (rows.map D1Row.toSql) row.toSql = (row.checks && !taken rows row) := by
  have hkeys : ∀ other : D1Row,
      (!((some row.requestId).isSome && some other.requestId == some row.requestId)
        && !(some other.requesterInstance == some row.requesterInstance
          && some other.idempotencyKey == some row.idempotencyKey))
      = !(other.requestId == row.requestId || decide (other.pair = row.pair)) := by
    intro other
    rw [Bool.eq_iff_iff]
    simp [D1Row.pair]
  -- no column is null, and the checks are of the same texts
  have hrow : admitsRequest (rows.map D1Row.toSql) row.toSql
      = (row.checks && rows.all fun other =>
          !((some row.requestId).isSome && some other.requestId == some row.requestId)
            && !(some other.requesterInstance == some row.requesterInstance
              && some other.idempotencyKey == some row.idempotencyKey)) := by
    rw [admitsRequest, List.all_map]
    rfl
  change admitsRequest _ _ = _
  simp only [hrow, hkeys, taken, Keyed.taken, List.not_any_eq_all_not]
  rfl

theorem admits_nil (row : D1Row) : requestsTable.admits [] row.toSql = row.checks :=
  (admits_rows [] row).trans (Bool.and_true _)

/-! ## The table of requests -/

/-- The table that setup creates, with the rows of the store. -/
def requestsOf (rows : Table) : SqlTable := { requestsTable with rows := rows.map D1Row.toSql }

theorem stored_requestsOf (rows : Table) : (requestsOf rows).stored = rows := by
  rw [SqlTable.stored, requestsOf, List.filterMap_map]
  exact List.filterMap_some

theorem updated_toSql (condition : D1Row → Bool) (set : D1Row → D1Row) (row : D1Row) :
    updated condition set row.toSql = (if condition row then set row else row).toSql := by
  rw [updated, ofSql_toSql]
  exact (apply_ite D1Row.toSql _ _ _).symm

/-- A write does to the table what it does to the typed rows. -/
theorem write_requestsOf (write : Write) (rows : Table) : (requestsOf rows).write write
    = (write.apply rows).map fun written => (written.1, requestsOf written.2) := by
  cases write with
  | insert row =>
      change (if !requestsTable.admits [] row.toSql then _ else
        if !requestsTable.admits (rows.map D1Row.toSql) row.toSql then _ else _) = _
      rw [admits_nil, admits_rows, Write.apply]
      -- a row that breaks a check is an error
      cases row.checks with
      | false => rfl
      | true =>
          cases htaken : taken rows row with
          | true => rfl
          | false =>
              -- a new key is put at the end
              have hfresh : Keyed.put D1Row.requestId rows row = rows ++ [row] :=
                Keyed.put_of_fresh (Keyed.lookup_eq_none.mpr (Keyed.taken_eq_false.mp htaken).1)
              simp [hfresh, requestsOf, Except.map]
  | update condition set =>
      -- the checks of the table are those of the typed rows
      have hchecks : ((requestsOf rows).stored.filter condition).any
            (fun row => !(requestsOf rows).admits [] (set row).toSql)
          = (rows.filter condition).any fun row => !(set row).checks := by
        rw [stored_requestsOf]
        exact congrArg _ (funext fun row => congrArg _ (admits_nil (set row)))
      rw [SqlTable.write, hchecks, Write.apply, stored_requestsOf]
      split
      · rfl
      · simp [requestsOf, Except.map, Function.comp_def, updated_toSql]

/-! ## The database -/

/-- The ledger that setup leaves. -/
def currentLedger : SqlTable :=
  { ledgerTable with rows := [[("singleton", .num 1), ("version", .num 1)]] }

theorem insertVersion_ledgerTable : ledgerTable.insertVersion = .ok currentLedger := rfl

theorem insertVersion_currentLedger : currentLedger.insertVersion = .ok currentLedger := rfl

theorem current_currentLedger : currentLedger.Current := ⟨.obj [("version", .num 1)], rfl, rfl⟩

/-- The names that are not those of the two tables. -/
def Foreign (name : String) : Prop :=
  folded name ≠ folded "lenso_approval_schema" ∧ folded name ≠ folded "business_approval_requests"

/-- The two databases have the same other tables. -/
def Beside (db db' : Database) : Prop := ∀ name, Foreign name → db'.find name = db.find name

theorem Beside.refl (db : Database) : Beside db db := fun _ _ => rfl

theorem Beside.trans {db db' db'' : Database} (h : Beside db db') (h' : Beside db' db'') :
    Beside db db'' :=
  fun name hname => (h' name hname).trans (h name hname)

/-- Neither of the two tables is there. -/
structure Bare (db : Database) : Prop where
  ledger : db.find "lenso_approval_schema" = none
  requests : db.find "business_approval_requests" = none

example : Bare ⟨[], List.nodup_nil⟩ := ⟨rfl, rfl⟩

/-- Both tables are there, and the second has these rows. -/
structure Hosts (db : Database) (rows : Table) : Prop where
  ledger : db.find "lenso_approval_schema" = some currentLedger
  requests : db.find "business_approval_requests" = some (requestsOf rows)

theorem key_requestsOf (rows : Table) :
    (requestsOf rows).key = folded "business_approval_requests" := rfl

theorem key_currentLedger : currentLedger.key = folded "lenso_approval_schema" := rfl

theorem ne_keys : folded "lenso_approval_schema" ≠ folded "business_approval_requests" := by
  decide

/-- Other rows in their place, and all else as it was. -/
theorem Hosts.put {db : Database} {rows : Table} (h : Hosts db rows) (rows' : Table) :
    Hosts (db.put (requestsOf rows')) rows' ∧ Beside db (db.put (requestsOf rows')) := by
  refine ⟨⟨?_, ?_⟩, fun name hname => ?_⟩
  · rw [Database.find_put, key_requestsOf, if_neg ne_keys]
    exact h.ledger
  · rw [Database.find_put, key_requestsOf, if_pos rfl]
  · rw [Database.find_put, key_requestsOf, if_neg hname.2]

/-! ## Setup and readiness -/

/-- What the batch leaves of a database without the two tables. -/
def Database.installed (db : Database) : Database := db.completed.put currentLedger

/-- The batch makes both tables, and touches no other. -/
theorem Bare.installs {db : Database} (h : Bare db) :
    db.ledger.insertVersion = .ok currentLedger ∧ Hosts db.installed [] ∧ Beside db db.installed := by
  refine ⟨?_, ⟨?_, ?_⟩, fun name hname => ?_⟩
  · rw [Database.ledger, h.ledger, Option.getD_none]
    exact insertVersion_ledgerTable
  · rw [Database.installed, Database.find_put, key_currentLedger, if_pos rfl]
  · rw [Database.installed, Database.find_put, key_currentLedger, if_neg ne_keys.symm,
      Database.find_completed_requests, h.requests]
    rfl
  · have hrequests : folded name ≠ requestsTable.key := hname.2
    have hledger : folded name ≠ ledgerTable.key := hname.1
    rw [Database.installed, Database.find_put, key_currentLedger, if_neg hname.1,
      Database.completed, Database.find_create, if_neg hrequests, Database.find_create,
      if_neg hledger]

/-- Where they are, it changes nothing. -/
theorem Hosts.installs {db : Database} {rows : Table} (h : Hosts db rows) :
    db.ledger.insertVersion = .ok currentLedger ∧ db.completed.put currentLedger = db := by
  refine ⟨?_, ?_⟩
  · rw [Database.ledger, h.ledger, Option.getD_some]
    exact insertVersion_currentLedger
  · rw [Database.completed_of_found h.ledger h.requests]
    exact Database.put_self h.ledger

/-- **The first setup** makes both tables, and touches no other. -/
theorem Bare.setup {db : Database} (h : Bare db) : ∃ db',
    runSetup db = (.ok (), db') ∧ Hosts db' [] ∧ Beside db db' := by
  obtain ⟨hinsert, hhosts, hbeside⟩ := h.installs
  have hpasses : db.Passes := Or.inr ⟨Database.not_names h.ledger, Database.not_names h.requests⟩
  rcases (runSetup_end db).passed hpasses hinsert with ⟨-, hend⟩ | ⟨hnot, -⟩
  · exact ⟨_, hend, hhosts, hbeside⟩
  · exact absurd current_currentLedger hnot

/-- Every other one changes nothing. -/
theorem Hosts.setup {db : Database} {rows : Table} (h : Hosts db rows) :
    runSetup db = (.ok (), db) := by
  obtain ⟨hinsert, hput⟩ := h.installs
  have hpasses : db.Passes := Or.inl ⟨currentLedger, h.ledger, rfl, current_currentLedger⟩
  rcases (runSetup_end db).passed hpasses hinsert with ⟨-, hend⟩ | ⟨hnot, -⟩
  · rw [hend, hput]
  · exact absurd current_currentLedger hnot

theorem run_handleReadiness (db : Database) : Prog.run perform handleReadiness db
    = (match (runReadiness db).1 with
      | .ok _ => .ok ()
      | .error _ => .error unavailable, db) := by
  have hsame : (runReadiness db).2 = db := congrArg Prod.snd (runReadiness_eq db)
  rw [handleReadiness, Prog.run_bind]
  change Prog.run perform _ (runReadiness db).2 = _
  rw [hsame]
  change Prog.run perform (match (runReadiness db).1 with | .ok _ => _ | .error _ => _) db = _
  cases (runReadiness db).1 with
  | error message => rfl
  | ok ready => rfl

theorem Hosts.prepare {db : Database} {rows : Table} (h : Hosts db rows) :
    Prog.run perform handleReadiness db = (.ok (), db) := by
  rw [run_handleReadiness, runReadiness_of_current h.ledger current_currentLedger]

theorem Bare.prepare {db : Database} (h : Bare db) :
    Prog.run perform handleReadiness db = (.error unavailable, db) := by
  rw [run_handleReadiness, runReadiness_eq, Database.selectVersion, h.ledger]
  rfl

/-! ## Calls -/

/-- A batch does to the table of the store what it does to the typed rows. -/
theorem Hosts.runStore {db : Database} {rows : Table} (h : Hosts db rows) (write : Write)
    (condition : D1Row → Bool) :
    (db.runStore write condition).1 = (runBatch write condition rows).1
      ∧ Hosts (db.runStore write condition).2 (runBatch write condition rows).2
      ∧ Beside db (db.runStore write condition).2 := by
  rw [Database.runStore, h.requests, runBatch]
  simp only [write_requestsOf]
  cases write.apply rows with
  | error message => exact ⟨rfl, h, .refl db⟩
  | ok written =>
      obtain ⟨changes, rows'⟩ := written
      refine ⟨?_, h.put rows'⟩
      change Except.ok (batchReply changes ((requestsOf rows').stored.filter condition)) = _
      rw [stored_requestsOf]

theorem Hosts.selectFirst {db : Database} {rows : Table} (h : Hosts db rows)
    (condition : D1Row → Bool) : db.selectFirst condition
      = .ok (((rows.filter condition).head?.map D1Row.toJson).getD .null) := by
  rw [Database.selectFirst, h.requests]
  change Except.ok ((((requestsOf rows).stored.filter condition).head?.map _).getD _) = _
  rw [stored_requestsOf]

/-- What the host does to the table of the store it does to the typed rows. -/
theorem Hosts.store {db : Database} {rows : Table} (h : Hosts db rows) (clock : Clock) (o : D1Op) :
    (Database.store clock o db).1 = (D1.perform clock o rows).1
      ∧ Hosts (Database.store clock o db).2 (D1.perform clock o rows).2
      ∧ Beside db (Database.store clock o db).2 := by
  cases o with
  | dateNow | newDate => exact ⟨rfl, h, .refl db⟩
  | first condition => exact ⟨h.selectFirst condition, h, .refl db⟩
  | batch write condition => exact h.runStore write condition

/-- Without the table every batch fails, and every read. -/
theorem Bare.runStore {db : Database} (h : Bare db) (write : Write) (condition : D1Row → Bool) :
    db.runStore write condition = (.error "no such table", db) := by
  rw [Database.runStore, h.requests]

theorem Bare.selectFirst {db : Database} (h : Bare db) (condition : D1Row → Bool) :
    db.selectFirst condition = .error "no such table" := by
  rw [Database.selectFirst, h.requests]

section Calls

variable {Ctx : Type} (deps : Deps Ctx) (config : ApprovalPolicy) (clock : Clock)

/-- **A call on the database is one of the store**, from the first setup on. -/
theorem Hosts.serve {db : Database} {rows : Table} (h : Hosts db rows) (call : ServiceCall Ctx) :
    ∃ db', Prog.run ((Database.store clock).through (StoreHandle deps.time))
        (BusinessApproval.serve deps config call) db
      = (((backend deps).serve deps config clock call rows).1, db')
      ∧ Hosts db' ((backend deps).serve deps config clock call rows).2 ∧ Beside db db' := by
  have hsim := Prog.run_sim (R := fun d r => Hosts d r ∧ Beside db d)
    (fun o d r _ hR => by
      obtain ⟨heq, hnext, hbeside⟩ := Hosts.store hR.1 clock o
      exact ⟨heq, trivial, hnext, hR.2.trans hbeside⟩)
    (Prog.emits_all (Prog.subst (StoreHandle deps.time) (BusinessApproval.serve deps config call)))
    ⟨h, .refl db⟩
  rw [Prog.run_subst, Prog.run_subst] at hsim
  obtain ⟨heq, hhosts, hbeside⟩ := hsim
  exact ⟨_, Prod.ext heq rfl, hhosts, hbeside⟩

theorem Bare.batch {db : Database} (h : Bare db) (write : Write) (condition : D1Row → Bool) :
    Database.store clock (.batch write condition) db = (.error "no such table", db) :=
  h.runStore write condition

theorem Bare.first {db : Database} (h : Bare db) (condition : D1Row → Bool) :
    Database.store clock (.first condition) db = (.error "no such table", db) :=
  congrArg (·, db) (h.selectFirst condition)

theorem Bare.transition {db : Database} (h : Bare db) {kind : Kind} {input : Input}
    (hproper : Proper kind input) :
    Prog.run (Database.store clock) (transitionMethod deps.time kind input).run db
      = (.error .unavailable, db) := by
  rw [transitionMethod_eq deps.time hproper, Prog.run_call, Prog.run_call]
  change Prog.run _ (Prog.call (D1Op.batch _ _) _) db = _
  rw [Prog.run_call, h.batch]
  rfl

/-- So do the methods of the store, but for the clock. -/
theorem Bare.store {db : Database} (h : Bare db) {o : StoreOp} (ho : o ≠ .now) :
    (Database.store clock).through (StoreHandle deps.time) o db
      = (Postgres.failed o .unavailable, db) := by
  cases o with
  | now => exact absurd rfl ho
  | request intent =>
      change Prog.run _ (requestMethod deps.time intent).run db = _
      cases hinput : IntentInput.ofIntent deps.time intent with
      | none =>
          unfold requestMethod
          rw [hinput]
          rfl
      | some i =>
          rw [requestMethod_eq deps.time hinput, Prog.run_call, h.batch]
          rfl
  | read id requester =>
      change Prog.run _ (readMethod deps.time id requester).run db = _
      rw [readMethod_eq, Prog.run_call, h.first]
      rfl
  | decide id status caller actor evidence reason =>
      cases status with
      | approved => exact h.transition deps clock ⟨fun _ => Or.inl rfl⟩
      | rejected => exact h.transition deps clock ⟨fun _ => Or.inr rfl⟩
      -- no other status is a decision
      | pending | cancelled | expired => rfl
  | cancel id caller actor reason => exact h.transition deps clock ⟨fun h => by cases h⟩
  | expire id caller => exact h.transition deps clock ⟨fun h => by cases h⟩

/-- **A call before the first setup** leaves the database as it is. -/
theorem Bare.serve {db : Database} (h : Bare db) (call : ServiceCall Ctx) : ∃ r,
    Prog.run ((Database.store clock).through (StoreHandle deps.time))
        (BusinessApproval.serve deps config call) db = (r, db)
      ∧ Unserved (backend deps) deps config clock call r := by
  obtain ⟨hsame, hunserved⟩ := run_unserved (backend deps) clock (fun _ => rfl) rfl
    (fun o ho => h.store deps clock ho) deps config call
  exact ⟨_, Prod.ext rfl hsame, hunserved⟩

end Calls

/-! ## The whole life -/

section Life

variable {Ctx : Type} (deps : Deps Ctx) (config : ApprovalPolicy)

def HostEvent.call? : HostEvent Ctx → Option (Clock × ServiceCall Ctx)
  | .call clock made => some (clock, made)
  | _ => none

/-- What is answered before the first setup. -/
inductive Early : HostEvent Ctx → HostAnswer → Prop
  | prepare : Early .prepare (.prepare (.error unavailable))
  | call {clock : Clock} {made : ServiceCall Ctx} {r : Response}
      (h : Unserved (backend deps) deps config clock made r) : Early (.call clock made) (.response r)

/-- What is answered from the first setup on, with the answers to the calls in their places. -/
def weave : List (HostEvent Ctx) → List Response → List HostAnswer
  | [], _ => []
  | .setup :: events, answers => .setup (.ok ()) :: weave events answers
  | .prepare :: events, answers => .prepare (.ok ()) :: weave events answers
  | .call _ _ :: events, answer :: answers => .response answer :: weave events answers
  | .call _ _ :: _, [] => []

theorem run_cons (event : HostEvent Ctx) (events : List (HostEvent Ctx)) (db : Database) :
    Database.run deps config (event :: events) db
      = ((db.step deps config event).1
          :: (Database.run deps config events (db.step deps config event).2).1,
        (Database.run deps config events (db.step deps config event).2).2) := rfl

theorem run_append (first second : List (HostEvent Ctx)) (db : Database) :
    Database.run deps config (first ++ second) db
      = ((Database.run deps config first db).1
          ++ (Database.run deps config second (Database.run deps config first db).2).1,
        (Database.run deps config second (Database.run deps config first db).2).2) := by
  induction first generalizing db with
  | nil => rfl
  | cons event first ih =>
      rw [List.cons_append, run_cons, run_cons, ih]
      rfl

theorem Bare.run {db : Database} (h : Bare db) {events : List (HostEvent Ctx)}
    (hnone : ∀ event ∈ events, event ≠ .setup) : ∃ answers,
      Database.run deps config events db = (answers, db)
        ∧ List.Forall₂ (Early deps config) events answers := by
  induction events with
  | nil => exact ⟨[], rfl, .nil⟩
  | cons event events ih =>
      obtain ⟨answers, hrun, hearly⟩ := ih fun e he => hnone e (List.mem_cons_of_mem _ he)
      -- nothing before the first setup touches the database
      have hstep : ∃ answer, db.step deps config event = (answer, db)
          ∧ Early deps config event answer := by
        cases event with
        | setup => exact absurd rfl (hnone _ List.mem_cons_self)
        | prepare =>
            refine ⟨_, ?_, .prepare⟩
            rw [Database.step, h.prepare]
        | call clock made =>
            obtain ⟨r, hserve, hunserved⟩ := h.serve deps config clock made
            refine ⟨_, ?_, .call hunserved⟩
            rw [Database.step, hserve]
      obtain ⟨answer, hanswer, hfirst⟩ := hstep
      refine ⟨answer :: answers, ?_, .cons hfirst hearly⟩
      rw [run_cons, hanswer, hrun]

theorem Hosts.run {db : Database} {rows : Table} (h : Hosts db rows)
    (events : List (HostEvent Ctx)) : ∃ db', Database.run deps config events db
        = (weave events ((backend deps).run deps config (events.filterMap HostEvent.call?) rows).1,
          db')
      ∧ Hosts db' ((backend deps).run deps config (events.filterMap HostEvent.call?) rows).2
      ∧ Beside db db' := by
  induction events generalizing db rows with
  | nil => exact ⟨db, rfl, h, .refl db⟩
  | cons event events ih =>
      rw [run_cons]
      cases event with
      | setup =>
          obtain ⟨db', hrun, hend⟩ := ih h
          refine ⟨db', ?_, hend⟩
          rw [Database.step, h.setup, hrun]
          rfl
      | prepare =>
          obtain ⟨db', hrun, hend⟩ := ih h
          refine ⟨db', ?_, hend⟩
          rw [Database.step, h.prepare, hrun]
          rfl
      | call clock made =>
          obtain ⟨next, hserve, hnext, hbeside⟩ := h.serve deps config clock made
          obtain ⟨db', hrun, hhosts, hbeside'⟩ := ih hnext
          refine ⟨db', ?_, hhosts, hbeside.trans hbeside'⟩
          rw [Database.step, hserve, hrun]
          rfl

/-- The life of a database, from before its first setup. -/
structure Deploys : Prop where
  /-- Until then nothing is kept, and nothing is ready. -/
  before : ∀ (events : List (HostEvent Ctx)) db, Bare db → (∀ event ∈ events, event ≠ .setup) →
    ∃ answers, Database.run deps config events db = (answers, db)
      ∧ List.Forall₂ (Early deps config) events answers
  /-- From then on setups and preparations succeed and change nothing, the calls are those of
  the store, and the other tables are as they were. -/
  after : ∀ (early late : List (HostEvent Ctx)) db, Bare db →
    (∀ event ∈ early, event ≠ .setup) →
    let served := (backend deps).run deps config (late.filterMap HostEvent.call?) []
    ∃ answers db', Database.run deps config (early ++ .setup :: late) db
        = (answers ++ .setup (.ok ()) :: weave late served.1, db')
      ∧ List.Forall₂ (Early deps config) early answers ∧ Hosts db' served.2 ∧ Beside db db'

/-- **The store on a database is the store**, from the first setup on and whatever the order. -/
theorem database_deploys : Deploys deps config where
  before _ _ hbare hnone := hbare.run deps config hnone
  after early late db hbare hnone := by
    obtain ⟨answers, hrun, hearly⟩ := hbare.run deps config hnone
    obtain ⟨first, hsetup, hhosts, hbeside⟩ := hbare.setup
    obtain ⟨db', hlate, hend, hbeside'⟩ := hhosts.run deps config late
    refine ⟨answers, db', ?_, hearly, hend, hbeside.trans hbeside'⟩
    rw [run_append, hrun, run_cons, Database.step, hsetup, hlate]

end Life

end BusinessApproval.D1.Setup
