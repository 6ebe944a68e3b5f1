import BusinessApproval.Model.Hosting
import BusinessApproval.Proof.D1Linear
import BusinessApproval.Proof.Deployment

/-!
# Setups side by side with calls

Nothing stops two setups of one database from running at once, or the service from being
called meanwhile. The batch of a setup is atomic, so the two tables are there or they are
not; but a setup reads twice before it, and when another one's batch comes between the two
reads it finds a table it did not expect, and throws. That is the one thing that can go
wrong, and nothing is lost by it. The service, whose batches fail without the table, does
not notice any of this.
-/

namespace BusinessApproval.D1.Setup

open Concurrent

/-! ## The two phases -/

theorem Bare.selectMaster {db : Database} (h : Bare db) :
    (db.selectMaster "lenso_approval_schema").truthy = false
      ∧ (db.selectMaster "business_approval_requests").truthy = false := by
  simp only [← Bool.not_eq_true, Database.selectMaster_truthy]
  exact ⟨Database.not_names h.ledger, Database.not_names h.requests⟩

theorem Hosts.selectMaster {db : Database} {rows : Table} (h : Hosts db rows) :
    (db.selectMaster "lenso_approval_schema").truthy = true
      ∧ (db.selectMaster "business_approval_requests").truthy = true := by
  simp only [Database.selectMaster_truthy]
  exact ⟨⟨_, h.ledger, rfl⟩, ⟨_, h.requests, rfl⟩⟩

theorem Hosts.selectVersion {db : Database} {rows : Table} (h : Hosts db rows) :
    db.selectVersion = .ok (.obj [("version", .num 1)]) := by
  rw [Database.selectVersion, h.ledger]
  rfl

theorem Bare.selectVersion {db : Database} (h : Bare db) :
    db.selectVersion = .error "no such table" := by
  rw [Database.selectVersion, h.ledger]

/-- The database is as it was, or the tables have been made and have these rows. -/
inductive Phase (db : Database) (s : Hosted) (rows : Table) : Prop
  | bare (hdb : s.db = db) (hnone : s.installed = []) (hrows : rows = [])
  | made (hhosts : Hosts s.db rows) (hbeside : Beside db s.db) (hsome : s.installed ≠ [])

namespace Phase

variable {db : Database} {s s' : Hosted} {rows : Table} {t : Nat}

/-- The batch of a setup is run. -/
theorem install (h : Phase db s rows) (hbare : Bare db) (t : Nat) :
    Phase db (s.carryOut t (.batch ddl)) rows
      ∧ Hosts (s.carryOut t (.batch ddl)).db rows ∧ (perform (.batch ddl) s.db).1 = .ok () := by
  have hrun : ∀ d : Database, d.ledger.insertVersion = .ok currentLedger →
      d.runBatch ddl = (.ok (), d.installed) := by
    intro d hinsert
    rw [Database.runBatch_ddl, hinsert]
    rfl
  change Phase db ⟨(s.db.runBatch ddl).2, (t, .batch ddl) :: s.log, s.failed⟩ rows
    ∧ Hosts (s.db.runBatch ddl).2 rows ∧ (s.db.runBatch ddl).1 = .ok ()
  cases h with
  | bare hdb hnone hrows =>
      -- the tables are made, with no rows
      subst hrows
      obtain ⟨hinsert, hhosts, hbeside⟩ := hbare.installs
      rw [hdb, hrun db hinsert]
      exact ⟨.made hhosts hbeside (List.cons_ne_nil _ _), hhosts, rfl⟩
  | made hhosts hbeside hsome =>
      -- they are there, and the batch changes nothing
      obtain ⟨hinsert, hput⟩ := hhosts.installs
      rw [hrun s.db hinsert, Database.installed, hput]
      exact ⟨.made hhosts hbeside (List.cons_ne_nil _ _), hhosts, rfl⟩

/-- What is neither of the tables nor of the batches does not matter. -/
theorem same (h : Phase db s rows) (hlog : s'.installed = s.installed) (hdb : s'.db = s.db) :
    Phase db s' rows := by
  cases h with
  | bare hbare hnone hrows => exact .bare (hdb.trans hbare) (hlog.trans hnone) hrows
  | made hhosts hbeside hsome =>
      exact .made (hdb ▸ hhosts) (hdb ▸ hbeside) (hlog ▸ hsome)

theorem fail (h : Phase db s rows) (t : Nat) : Phase db (s.fail t) rows := h.same rfl rfl

/-- A batch of the service that goes through is one on the rows. -/
theorem batch (h : Phase db s rows) (hbare : Bare db) {write : Write} {condition : D1Row → Bool}
    {reply : Json} {next : Database}
    (hbatch : s.db.runStore write condition = (.ok reply, next)) :
    ∃ rows', runBatch write condition rows = (.ok reply, rows')
      ∧ Phase db { s with db := next } rows' := by
  cases h with
  | bare hdb =>
      -- without the table none goes through
      rw [hdb, hbare.runStore] at hbatch
      cases hbatch
  | made hhosts hbeside hsome =>
      obtain ⟨hreply, hnext, hbeside'⟩ := hhosts.runStore write condition
      rw [hbatch] at hreply hnext hbeside'
      exact ⟨_, Prod.ext hreply.symm rfl, .made hnext (hbeside.trans hbeside') hsome⟩

end Phase

/-! ## The service among setups -/

/-- All that a setup asks for. -/
def Asked (o : SetupOp) : Prop := ∀ statements, o = .batch statements → statements = ddl

/-- An operation of a setup leaves the rows as they are. -/
theorem Phase.carryOut {db : Database} {s : Hosted} {rows : Table} (h : Phase db s rows)
    (hbare : Bare db) (t : Nat) {o : SetupOp} (ho : Asked o) : Phase db (s.carryOut t o) rows := by
  cases o with
  | selectMaster name => exact h.same rfl rfl
  | selectVersion => exact h.same rfl rfl
  | batch statements =>
      cases ho statements rfl
      exact (h.install hbare t).1

/-- **The service does not see the setups**: before the first one its batches fail, and then
they are run on the table. -/
theorem hides {db : Database} (hbare : Bare db) :
    Hides machine D1.machine Asked fun s d => Phase db s d.table where
  hidden {t o s r s' u} ho hs h := by
    cases hs with
    | setup => exact h.carryOut hbare t ho
    | setupAborted => exact h.fail t
    | setupLost => exact (h.carryOut hbare t ho).fail t
  hiddenWorks _ hs _ := hs.elim
  answers {t o s r s' u} hs h := by
    cases hs with
    | newDate ms hms => exact ⟨_, .newDate ms hms, h⟩
    | dateNow ms hms => exact ⟨_, .dateNow ms hms, h⟩
    | batch hbatch =>
        obtain ⟨rows', hrun, h'⟩ := h.batch hbare hbatch
        exact ⟨_, .batch hrun, h'⟩
    | aborted write condition message => exact ⟨u, .aborted write condition message, h⟩
    | lost message hbatch =>
        obtain ⟨rows', hrun, h'⟩ := h.batch hbare hbatch
        exact ⟨_, .lost message hrun, h'⟩
    | @first condition row hrow =>
        -- a read fails as well without the table
        cases h with
        | bare hdb => cases (hdb ▸ hbare.selectFirst condition).symm.trans hrow
        | made hhosts hbeside hsome =>
            rw [hhosts.selectFirst condition] at hrow
            cases hrow
            exact ⟨u, .first condition, .made hhosts hbeside hsome⟩
    | firstFailed condition message => exact ⟨u, .firstFailed condition message, h⟩
  works hs _ := hs.elim
  moves hs _ := hs.elim

/-! ## A setup, stage by stage -/

/-- After the batch: what the ledger says. -/
def verify : Action Unit := do
  if !versionIs (← selectVersion) then
    throw "approval_schema_incompatible"

/-- A ledger was found. -/
def compatible : Action Unit := do
  if !versionIs (← selectVersion) then
    throw "approval_schema_incompatible"
  finish

/-- No ledger was found. -/
def unmanaged : Action Unit := do
  if (← selectMaster "business_approval_requests").truthy then
    throw "approval_schema_unmanaged"
  finish

/-- A setup that goes on like this, and answers. -/
def answering (rest : Action Unit) : Prog SetupRes HostResult :=
  rest.run >>= fun result => .ret (.setup result)

theorem answering_setup : answering setup
    = .call (.selectMaster "lenso_approval_schema") fun answer => match answer with
    | .error message => .ret (.setup (.error message))
    | .ok existing => if existing.truthy then answering compatible else answering unmanaged := by
  refine congrArg (Prog.call _) (funext fun answer => ?_)
  cases answer with
  | error message => rfl
  | ok existing =>
      change Prog.bind (ExceptT.run (if (!existing.truthy) = true then _ else _)) _
        = if existing.truthy = true then _ else _
      cases existing.truthy with
      | true => rfl
      | false => rfl

theorem answering_unmanaged : answering unmanaged
    = .call (.selectMaster "business_approval_requests") fun answer => match answer with
    | .error message => .ret (.setup (.error message))
    | .ok found =>
        if found.truthy then .ret (.setup (.error "approval_schema_unmanaged"))
        else answering finish := by
  refine congrArg (Prog.call _) (funext fun answer => ?_)
  cases answer with
  | error message => rfl
  | ok found =>
      change Prog.bind (ExceptT.run (if found.truthy = true then _ else _)) _
        = if found.truthy = true then _ else _
      cases found.truthy with
      | true => rfl
      | false => rfl

theorem answering_compatible : answering compatible
    = .call .selectVersion fun answer => match answer with
    | .error message => .ret (.setup (.error message))
    | .ok row =>
        if versionIs row then answering finish
        else .ret (.setup (.error "approval_schema_incompatible")) := by
  refine congrArg (Prog.call _) (funext fun answer => ?_)
  cases answer with
  | error message => rfl
  | ok row =>
      change Prog.bind (ExceptT.run (if (!versionIs row) = true then _ else _)) _
        = if versionIs row = true then _ else _
      cases versionIs row with
      | true => rfl
      | false => rfl

theorem answering_finish : answering finish = .call (.batch ddl) fun answer => match answer with
    | .error message => .ret (.setup (.error message))
    | .ok () => answering verify := by
  refine congrArg (Prog.call _) (funext fun answer => ?_)
  cases answer with
  | error message => rfl
  | ok u => rfl

theorem answering_verify : answering verify = .call .selectVersion fun answer => match answer with
    | .error message => .ret (.setup (.error message))
    | .ok row =>
        if versionIs row then .ret (.setup (.ok ()))
        else .ret (.setup (.error "approval_schema_incompatible")) := by
  refine congrArg (Prog.call _) (funext fun answer => ?_)
  cases answer with
  | error message => rfl
  | ok row =>
      change Prog.bind (ExceptT.run (if (!versionIs row) = true then _ else _)) _
        = if versionIs row = true then _ else _
      cases versionIs row with
      | true => rfl
      | false => rfl

theorem actionBody_prepare : actionBody .prepare
    = .call .selectVersion fun answer => match answer with
    | .error _ => .ret (.prepare (.error unavailable))
    | .ok row =>
        if versionIs row then .ret (.prepare (.ok ()))
        else .ret (.prepare (.error unavailable)) := by
  refine congrArg (Prog.call _) (funext fun answer => ?_)
  cases answer with
  | error message => rfl
  | ok row =>
      change Prog.bind (Prog.bind (ExceptT.run (if (!versionIs row) = true then _ else _)) _) _
        = if versionIs row = true then _ else _
      cases versionIs row with
      | true => rfl
      | false => rfl

/-! ### What a setup asks for -/

theorem asked_selectMaster (name : String) : Asked (.selectMaster name) := by
  intro statements h
  cases h

theorem asked_selectVersion : Asked .selectVersion := by
  intro statements h
  cases h

theorem asked_ddl : Asked (.batch ddl) := by
  intro statements h
  cases h
  rfl

theorem answering_finish_asks : (answering finish).Emits Asked fun _ _ => True := by
  rw [answering_finish]
  refine ⟨asked_ddl, fun answer _ => ?_⟩
  cases answer with
  | error message => trivial
  | ok u =>
      change (answering verify).Emits Asked fun _ _ => True
      rw [answering_verify]
      refine ⟨asked_selectVersion, fun answer _ => ?_⟩
      cases answer with
      | error message => trivial
      | ok row =>
          simp only
          split <;> trivial

theorem actionBody_asks (action : HostAction) :
    (actionBody action).Emits Asked fun _ _ => True := by
  cases action with
  | setup =>
      change (answering setup).Emits Asked fun _ _ => True
      rw [answering_setup]
      refine ⟨asked_selectMaster _, fun answer _ => ?_⟩
      cases answer with
      | error message => trivial
      | ok existing =>
          simp only
          split
          · rw [answering_compatible]
            refine ⟨asked_selectVersion, fun answer _ => ?_⟩
            cases answer with
            | error message => trivial
            | ok row =>
                simp only
                split
                · exact answering_finish_asks
                · trivial
          · rw [answering_unmanaged]
            refine ⟨asked_selectMaster _, fun answer _ => ?_⟩
            cases answer with
            | error message => trivial
            | ok found =>
                simp only
                split
                · trivial
                · exact answering_finish_asks
  | prepare =>
      rw [actionBody_prepare]
      refine ⟨asked_selectVersion, fun answer _ => ?_⟩
      cases answer with
      | error message => trivial
      | ok row =>
          simp only
          split <;> trivial

/-! ## Where a client stands -/

section Clients

variable {ι α : Type}

/-- No setup whose `DDL` has been run was over when the client `t` was called. -/
def Unprepared (t : Nat) (s : Hosted) (history : List (Event ι α)) : Prop :=
  ∀ u ∈ s.installed, ¬ Precedes (fun _ => True) u t history

/-- The client `t` has looked for a ledger, before any batch. -/
def FoundNone (t : Nat) (log : List (Nat × SetupOp)) : Prop :=
  ∃ before, (t, .selectMaster "lenso_approval_schema") :: before <:+ log ∧ batches before = []

/-- Another setup's batch has come between the two reads of the client `t`, and none before. -/
def Overtaken (t : Nat) (log : List (Nat × SetupOp)) : Prop :=
  ∃ between before, (t, .selectMaster "business_approval_requests") :: (between
      ++ (t, .selectMaster "lenso_approval_schema") :: before) <:+ log
    ∧ batches before = [] ∧ ∃ u ∈ batches between, u ≠ t

/-- What is answered when an operation throws. -/
def HostAction.down (message : String) : HostAction → HostResult
  | .setup => .setup (.error message)
  | .prepare => .prepare (.error unavailable)

/-- How a setup can end, and a preparation. -/
inductive Ends (t : Nat) (s : Hosted) (history : List (Event ι α)) : HostAction → HostResult → Prop
  | installed (h : t ∈ s.installed) : Ends t s history .setup (.setup (.ok ()))
  /-- Another setup has come between its two reads. -/
  | raced (hbetween : Overtaken t s.log) (hnone : Unprepared t s history) :
      Ends t s history .setup (.setup (.error "approval_schema_unmanaged"))
  | ready (h : s.installed ≠ []) : Ends t s history .prepare (.prepare (.ok ()))
  | unprepared (h : Unprepared t s history) :
      Ends t s history .prepare (.prepare (.error unavailable))
  | down {action : HostAction} (h : t ∈ s.failed) (message : String) :
      Ends t s history action (action.down message)

/-- Where a setup stands, or a preparation, by what is left of it. -/
inductive ActionAt (t : Nat) (s : Hosted) (history : List (Event ι α)) :
    HostAction → Prog SetupRes HostResult → Prop
  | start (h : t ∉ s.installed) : ActionAt t s history .setup (answering setup)
  | unmanaged (h : t ∉ s.installed) (hfirst : FoundNone t s.log)
      (hnone : Unprepared t s history) : ActionAt t s history .setup (answering unmanaged)
  | compatible (h : s.installed ≠ []) : ActionAt t s history .setup (answering compatible)
  | finish : ActionAt t s history .setup (answering finish)
  | verify (h : t ∈ s.installed) : ActionAt t s history .setup (answering verify)
  | prepare : ActionAt t s history .prepare (actionBody .prepare)
  | ended {action : HostAction} {result : HostResult} (h : Ends t s history action result) :
      ActionAt t s history action (.ret result)

/-- What stays as it is for a client while others take steps. -/
structure Keeps (t : Nat) (s s' : Hosted) (history history' : List (Event ι α)) : Prop where
  log : s.log <:+ s'.log
  mine : t ∈ s'.installed → t ∈ s.installed
  failed : t ∈ s.failed → t ∈ s'.failed
  unprepared : Unprepared t s history → Unprepared t s' history'

variable {t : Nat} {s s' : Hosted} {history history' : List (Event ι α)}

theorem FoundNone.mono {log log' : List (Nat × SetupOp)} (h : FoundNone t log)
    (hlog : log <:+ log') : FoundNone t log' := by
  obtain ⟨before, hsuffix, hnone⟩ := h
  exact ⟨before, hsuffix.trans hlog, hnone⟩

theorem Overtaken.mono {log log' : List (Nat × SetupOp)} (h : Overtaken t log)
    (hlog : log <:+ log') : Overtaken t log' := by
  obtain ⟨between, before, hsuffix, hnone, hother⟩ := h
  exact ⟨between, before, hsuffix.trans hlog, hnone, hother⟩

/-- A batch that has been run since the first read has come between. -/
theorem FoundNone.overtaken {log : List (Nat × SetupOp)} (h : FoundNone t log)
    (hsome : batches log ≠ []) (hother : t ∉ batches log) :
    Overtaken t ((t, .selectMaster "business_approval_requests") :: log) := by
  obtain ⟨before, ⟨between, rfl⟩, hnone⟩ := h
  -- all the batches have come since the first read
  have hbatches : batches (between ++ (t, .selectMaster "lenso_approval_schema") :: before)
      = batches between := by
    rw [batches, List.filterMap_append]
    change batches between ++ batches before = batches between
    rw [hnone, List.append_nil]
  rw [hbatches] at hsome hother
  obtain ⟨u, hu⟩ := List.exists_mem_of_ne_nil _ hsome
  exact ⟨between, before, List.suffix_refl _, hnone, u, hu, fun hut => hother (hut ▸ hu)⟩

theorem Keeps.installed (h : Keeps t s s' history history') : s.installed ⊆ s'.installed :=
  (h.log.filterMap _).subset

theorem ne_nil_of_subset {l l' : List Nat} (h : l ⊆ l') (hne : l ≠ []) : l' ≠ [] := by
  rintro rfl
  exact hne (List.subset_nil.mp h)

theorem Ends.keep (hkeeps : Keeps t s s' history history') {action : HostAction}
    {result : HostResult} (h : Ends t s history action result) :
    Ends t s' history' action result := by
  cases h with
  | installed h => exact .installed (hkeeps.installed h)
  | raced hbetween hnone => exact .raced (hbetween.mono hkeeps.log) (hkeeps.unprepared hnone)
  | ready h => exact .ready (ne_nil_of_subset hkeeps.installed h)
  | unprepared h => exact .unprepared (hkeeps.unprepared h)
  | down h message => exact .down (hkeeps.failed h) message

theorem ActionAt.keep (hkeeps : Keeps t s s' history history') {action : HostAction}
    {rest : Prog SetupRes HostResult} (h : ActionAt t s history action rest) :
    ActionAt t s' history' action rest := by
  cases h with
  | start h => exact .start fun hmem => h (hkeeps.mine hmem)
  | unmanaged h hfirst hnone =>
      exact .unmanaged (fun hmem => h (hkeeps.mine hmem)) (hfirst.mono hkeeps.log)
        (hkeeps.unprepared hnone)
  | compatible h => exact .compatible (ne_nil_of_subset hkeeps.installed h)
  | finish => exact .finish
  | verify h => exact .verify (hkeeps.installed h)
  | prepare => exact .prepare
  | ended h => exact .ended (h.keep hkeeps)

/-! ### Steps of others -/

/-- What the clients are told of is as it was. -/
theorem Keeps.same (hlog : s'.log = s.log) (hfailed : s'.failed = s.failed) :
    Keeps t s s' history history where
  log := by rw [hlog]
  mine := by rw [Hosted.installed, Hosted.installed, hlog]; exact id
  failed := by rw [hfailed]; exact id
  unprepared := by
    rw [Unprepared, Unprepared, Hosted.installed, Hosted.installed, hlog]; exact id

/-- A call that is made, or answered, but for one of the client itself. -/
theorem Keeps.event {event : Event ι α} (h : ∀ call, event ≠ .invoked t call) :
    Keeps t s s history (event :: history) where
  log := List.suffix_refl _
  mine := id
  failed := id
  unprepared hnone u hu hprecedes := by
    cases hprecedes with
    | invoked => exact h _ rfl
    | older holder => exact hnone u hu holder

/-- An operation of another setup is carried out. -/
theorem Keeps.carryOut {u : Nat} (hne : t ≠ u) (hrunning : ∀ call a, .responded u call a ∉ history)
    (o : SetupOp) : Keeps t s (s.carryOut u o) history history := by
  cases o with
  | selectMaster name => exact ⟨List.suffix_cons _ _, id, id, id⟩
  | selectVersion => exact ⟨List.suffix_cons _ _, id, id, id⟩
  | batch statements =>
      -- the other client has not answered, so it was not over before anyone was called
      refine ⟨List.suffix_cons _ _, ?_, id, ?_⟩
      · intro hmem
        exact (List.mem_cons.mp hmem).resolve_left hne
      · intro hnone v hv hprecedes
        -- this batch, or an older one
        rcases List.mem_cons.mp hv with rfl | hv
        · obtain ⟨call, a, hresponded, -⟩ := hprecedes.completed
          exact hrunning call a hresponded
        · exact hnone v hv hprecedes

theorem Keeps.fail (h : Keeps t s s' history history') (u : Nat) :
    Keeps t s (s'.fail u) history history' :=
  ⟨h.log, h.mine, fun hmem => List.mem_cons_of_mem _ (h.failed hmem), h.unprepared⟩

/-- An operation of another client is answered. -/
theorem Answers.keeps {u : Nat} {o : SetupOp ⊕ D1Op} {r : Sum.elim SetupRes D1Res o}
    (hs : Answers u s o r s') (hne : t ≠ u) (hrunning : ∀ call a, .responded u call a ∉ history) :
    Keeps t s s' history history := by
  cases hs with
  | setup o => exact .carryOut hne hrunning o
  | setupAborted o message => exact (Keeps.same rfl rfl).fail u
  | setupLost o message => exact (Keeps.carryOut hne hrunning o).fail u
  | newDate | dateNow | aborted | first | firstFailed => exact .same rfl rfl
  | batch | lost => exact .same rfl rfl

/-! ### Steps of its own -/

variable {action : HostAction} {o : SetupOp} {k : SetupRes o → Prog SetupRes HostResult}

/-- An operation throws, and that is the end. -/
theorem ActionAt.throws (h : ActionAt t s history action (.call o k)) (message : String) :
    k (thrown message o) = .ret (action.down message) := by
  generalize hp : Prog.call o k = rest at h
  cases h with
  | start =>
      rw [answering_setup] at hp
      cases hp
      rfl
  | unmanaged =>
      rw [answering_unmanaged] at hp
      cases hp
      rfl
  | compatible =>
      rw [answering_compatible] at hp
      cases hp
      rfl
  | finish =>
      rw [answering_finish] at hp
      cases hp
      rfl
  | verify =>
      rw [answering_verify] at hp
      cases hp
      rfl
  | prepare =>
      rw [actionBody_prepare] at hp
      cases hp
      rfl
  | ended => cases hp

/-- Only setups run a batch. -/
theorem ActionAt.setup_of_mem (h : ActionAt t s history action (.call o k))
    (hmem : t ∈ (s.carryOut t o).installed) : t ∈ s.installed ∨ action = .setup := by
  generalize hp : Prog.call o k = rest at h
  cases h with
  | start | unmanaged | compatible | finish | verify => exact Or.inr rfl
  | prepare =>
      rw [actionBody_prepare] at hp
      cases hp
      exact Or.inl hmem
  | ended => cases hp

/-- Before the first batch, nothing has been prepared by anyone. -/
theorem unprepared_of_none (h : s.installed = []) : Unprepared t s history := by
  intro u hu
  rw [h] at hu
  cases hu

/-- **An operation is carried out**, and the client stands somewhere again. -/
theorem ActionAt.answer {db : Database} {rows : Table} (hbare : Bare db)
    (hphase : Phase db s rows) (h : ActionAt t s history action (.call o k)) :
    ActionAt t (s.carryOut t o) history action (k (perform o s.db).1) := by
  generalize hp : Prog.call o k = rest at h
  cases h with
  | start h =>
      rw [answering_setup] at hp
      cases hp
      change ActionAt t (s.carryOut t _) history .setup
        (if (s.db.selectMaster "lenso_approval_schema").truthy then _ else _)
      cases hphase with
      | bare hdb hnone =>
          -- no batch has been run so far
          rw [hdb, if_neg (Bool.eq_false_iff.mp hbare.selectMaster.1)]
          exact .unmanaged h ⟨s.log, List.suffix_refl _, hnone⟩ (unprepared_of_none hnone)
      | made hhosts hbeside hsome =>
          rw [if_pos hhosts.selectMaster.1]
          exact .compatible hsome
  | unmanaged h hfirst hnone =>
      rw [answering_unmanaged] at hp
      cases hp
      change ActionAt t (s.carryOut t _) history .setup
        (if (s.db.selectMaster "business_approval_requests").truthy then _ else _)
      cases hphase with
      | bare hdb =>
          rw [hdb, if_neg (Bool.eq_false_iff.mp hbare.selectMaster.2)]
          exact .finish
      | made hhosts hbeside hsome =>
          -- the batch that has come between is another client's
          rw [if_pos hhosts.selectMaster.2]
          exact .ended (.raced (hfirst.overtaken hsome h) hnone)
  | compatible h =>
      rw [answering_compatible] at hp
      cases hp
      cases hphase with
      -- a ledger was found, so the tables have been made
      | bare hdb hnone => exact absurd hnone h
      | made hhosts =>
          have hread : (perform .selectVersion s.db).1 = .ok (.obj [("version", .num 1)]) :=
            hhosts.selectVersion
          rw [hread]
          exact .finish
  | finish =>
      rw [answering_finish] at hp
      cases hp
      -- its batch goes through, whoever has been first
      obtain ⟨-, -, hok⟩ := hphase.install hbare t
      rw [hok]
      exact .verify List.mem_cons_self
  | verify h =>
      rw [answering_verify] at hp
      cases hp
      cases hphase with
      -- its own batch has been run
      | bare hdb hnone => exact absurd h (by rw [hnone]; exact List.not_mem_nil)
      | made hhosts =>
          have hread : (perform .selectVersion s.db).1 = .ok (.obj [("version", .num 1)]) :=
            hhosts.selectVersion
          rw [hread]
          exact .ended (.installed h)
  | prepare =>
      rw [actionBody_prepare] at hp
      cases hp
      cases hphase with
      | bare hdb hnone =>
          -- nobody has prepared the database so far
          have hread : (perform .selectVersion s.db).1 = .error "no such table" := by
            rw [hdb]
            exact hbare.selectVersion
          rw [hread]
          exact .ended (.unprepared (unprepared_of_none hnone))
      | made hhosts hbeside hsome =>
          have hread : (perform .selectVersion s.db).1 = .ok (.obj [("version", .num 1)]) :=
            hhosts.selectVersion
          rw [hread]
          exact .ended (.ready hsome)
  | ended => cases hp

/-- **An operation is answered**, carried out or not. -/
theorem ActionAt.answered {db : Database} {rows : Table} (hbare : Bare db)
    (hphase : Phase db s rows) (h : ActionAt t s history action (.call o k)) {r : SetupRes o}
    (hs : Answers t s (.inl o) r s') :
    ActionAt t s' history action (k r)
      ∧ (t ∈ s'.installed → t ∈ s.installed ∨ action = .setup) := by
  cases hs with
  | setup => exact ⟨h.answer hbare hphase, h.setup_of_mem⟩
  | setupAborted _ message =>
      rw [h.throws message]
      exact ⟨.ended (.down List.mem_cons_self message), Or.inl⟩
  | setupLost _ message =>
      rw [h.throws message]
      exact ⟨.ended (.down List.mem_cons_self message), h.setup_of_mem⟩

/-- An operation of a call is answered: no setup has got any further. -/
theorem Answers.calling {o : D1Op} {r : D1Res o} (hs : Answers t s (.inr o) r s') :
    s'.installed = s.installed := by
  cases hs with
  | newDate | dateNow | aborted | first | firstFailed => rfl
  | batch | lost => rfl

end Clients

/-! ## Every world -/

section Worlds

variable {Ctx : Type} {deps : Deps Ctx} {config : ApprovalPolicy} {db : Database} {w w' : World Ctx}

/-- Where a client of either kind stands. -/
inductive ClientAt (t : Nat) (s : Hosted)
    (history : List (Event (HostAction ⊕ ServiceCall Ctx) (HostResult ⊕ Response))) :
    Status (Sum.elim SetupRes D1Res) (HostAction ⊕ ServiceCall Ctx) (HostResult ⊕ Response) → Prop
  | idle : ClientAt t s history .idle
  | acting (action : HostAction) {rest : Prog SetupRes HostResult}
      (h : ActionAt t s history action rest) :
      ClientAt t s history (.running (.inl action) (rest.onLeft .inl))
  | ended (action : HostAction) {result : HostResult} (h : Ends t s history action result) :
      ClientAt t s history (.finished (.inl action) (.inl result))
  | calling (call : ServiceCall Ctx) (rest : Prog D1Res Response) :
      ClientAt t s history (.running (.inr call) (rest.onRight .inr))
  | answered (call : ServiceCall Ctx) (response : Response) :
      ClientAt t s history (.finished (.inr call) (.inr response))

theorem ClientAt.keep {t : Nat} {s s' : Hosted}
    {history history' : List (Event (HostAction ⊕ ServiceCall Ctx) (HostResult ⊕ Response))}
    (hkeeps : Keeps t s s' history history')
    {status : Status (Sum.elim SetupRes D1Res) (HostAction ⊕ ServiceCall Ctx)
      (HostResult ⊕ Response)}
    (h : ClientAt t s history status) : ClientAt t s' history' status := by
  cases h with
  | idle => exact .idle
  | acting action h => exact .acting action (h.keep hkeeps)
  | ended action h => exact .ended action (h.keep hkeeps)
  | calling call rest => exact .calling call rest
  | answered call response => exact .answered call response

structure Inv (w : World Ctx) : Prop where
  /-- Only setups have had their `DDL` run. -/
  setups : ∀ t ∈ w.shared.installed, (w.clients t).call = some (.inl .setup)
  clients : ∀ t, ClientAt t w.shared w.history (w.clients t)

theorem inv_initial (db : Database) : Inv (.initial ⟨db, [], []⟩ : World Ctx) where
  setups t h := by cases h
  clients t := .idle

/-- The clients when one of them has taken a step. -/
theorem Inv.update (h : Inv w) {t : Nat} {s' : Hosted}
    {history' : List (Event (HostAction ⊕ ServiceCall Ctx) (HostResult ⊕ Response))}
    {status : Status (Sum.elim SetupRes D1Res) (HostAction ⊕ ServiceCall Ctx)
      (HostResult ⊕ Response)}
    (hself : ClientAt t s' history' status)
    (hkeeps : ∀ u, u ≠ t → Keeps u w.shared s' w.history history') (u : Nat) :
    ClientAt u s' history' (Function.update w.clients t status u) := by
  by_cases hu : u = t
  · subst hu
    rw [Function.update_self]
    exact hself
  · rw [Function.update_of_ne hu]
    exact (h.clients u).keep (hkeeps u hu)

/-- **Every step keeps the clients where they can be.** -/
theorem Inv.step (hbare : Bare db) {rows : Table} (hphase : Phase db w.shared rows)
    (hrec : w.Recorded) (h : Inv w)
    (hstep : Step machine (both actionBody (body deps config)) w w') : Inv w' := by
  -- a client at work has not answered
  have hunfinished : ∀ {t call rest}, w.clients t = .running call rest →
      ∀ call' a, .responded t call' a ∉ w.history := by
    intro t call rest hrunning call' a hmem
    rw [hrec.responded, hrunning] at hmem
    cases hmem
  have hkept : ∀ u ∈ w.shared.installed, (w'.clients u).call = some (.inl .setup) :=
    fun u hu => hstep.call (h.setups u hu)
  cases hstep with
  | invoke t call hidle =>
      -- a new client has run no batch
      have hnew : t ∉ w.shared.installed := by
        intro hmem
        have hcall := h.setups t hmem
        rw [hidle] at hcall
        cases hcall
      refine ⟨hkept, h.update ?_ ?_⟩
      · cases call with
        | inl action =>
            cases action with
            | setup => exact .acting .setup (.start hnew)
            | prepare => exact .acting .prepare .prepare
        | inr call => exact .calling call _
      · intro u hne
        refine .event fun call' heq => hne ?_
        cases heq
        rfl
  | @answer t call o k r s hrunning hs =>
      have hclient := h.clients t
      have hkeeps : ∀ u, u ≠ t → Keeps u w.shared s w.history w.history :=
        fun u hne => hs.keeps hne (hunfinished hrunning)
      rw [hrunning] at hclient
      generalize hp : Prog.call o k = p at hclient
      cases hclient with
      | @acting action rest hat =>
          cases rest with
          | ret a => cases hp
          | call o₁ k₁ =>
              cases hp
              -- the batch, if it is one, is that of this setup
              obtain ⟨hat', hmine⟩ := hat.answered hbare hphase hs
              refine ⟨fun u hu => ?_, h.update (.acting action hat') hkeeps⟩
              by_cases hut : u = t
              · subst hut
                rcases hmine hu with hmem | rfl
                · exact hkept u hmem
                · exact congrArg Status.call (Function.update_self u _ w.clients)
              · exact hkept u ((hkeeps u hut).mine hu)
      | calling call rest =>
          cases rest with
          | ret a => cases hp
          | call o₂ k₂ =>
              -- a call of the service runs none of these batches
              cases hp
              refine ⟨fun u hu => hkept u ?_, h.update (.calling call (k₂ r)) hkeeps⟩
              rwa [hs.calling] at hu
  | work hrunning hs => exact hs.elim
  | move hs => exact hs.elim
  | @respond t call a hrunning =>
      have hclient := h.clients t
      rw [hrunning] at hclient
      generalize hp : Prog.ret a = p at hclient
      refine ⟨hkept, h.update ?_ fun u hne => .event fun call' heq => by cases heq⟩
      cases hclient with
      | @acting action rest hat =>
          cases rest with
          | call o₁ k₁ => cases hp
          | ret result =>
              cases hp
              cases hat with
              | ended hends =>
                  exact .ended action (hends.keep (.event fun call' heq => by cases heq))
      | calling call rest =>
          cases rest with
          | call o₂ k₂ => cases hp
          | ret response =>
              cases hp
              exact .answered call response

theorem Hosting.projects (hbare : Bare db) (h : Hosting deps config db w) :
    ∃ v, D1.Running deps config v ∧ Projects Asked (fun s d => Phase db s d.table) w v :=
  Reachable.projects (hides hbare) actionBody_asks (.bare rfl rfl rfl) h

theorem Hosting.inv (hbare : Bare db) (h : Hosting deps config db w) : Inv w := by
  induction h with
  | initial => exact inv_initial db
  | step hw hstep ih =>
      obtain ⟨v, -, hprojects⟩ := Hosting.projects hbare hw
      exact ih.step hbare hprojects.shared (Reachable.recorded hw) hstep

/-- The answer of a setup that has succeeded, and of a preparation. -/
def HostAction.succeeded : HostAction → HostResult
  | .setup => .setup (.ok ())
  | .prepare => .prepare (.ok ())

/-- What holds of setups, preparations and calls side by side. -/
structure Coexists (deps : Deps Ctx) (config : ApprovalPolicy) (db : Database) (w : World Ctx) :
    Prop where
  /-- A setup or a preparation ends in one of the ways it can end in. -/
  ends : ∀ t action answer, .responded t (.inl action) answer ∈ w.history →
    ∃ result, answer = .inl result ∧ Ends t w.shared w.history action result
  /-- Only setups run the `DDL`. -/
  setups : ∀ t ∈ w.shared.installed, .invoked t (.inl .setup) ∈ w.history
  /-- After one has succeeded, the others do, and the preparations. -/
  later : ∀ t u action answer,
    Precedes (fun a => a = .inl HostAction.setup.succeeded) u t w.history →
    .responded t (.inl action) answer ∈ w.history → t ∉ w.shared.failed →
    answer = .inl action.succeeded
  /-- The tables are made whole, once, and nothing else is touched; and the calls are those of
  the store with the rows that are in the table. -/
  calls : ∃ v, D1.Running deps config v ∧ v.history = w.history.filterMap Event.second
    ∧ Phase db w.shared v.shared.table ∧ Linearizable deps config v

/-- How a client that has answered has ended. -/
theorem Inv.ends (hrec : w.Recorded) (h : Inv w) {t : Nat} {action : HostAction}
    {answer : HostResult ⊕ Response} (hresponded : .responded t (.inl action) answer ∈ w.history) :
    ∃ result, answer = .inl result ∧ Ends t w.shared w.history action result := by
  have hclient := h.clients t
  rw [(hrec.responded t _ _).mp hresponded] at hclient
  cases hclient with
  | ended _ hends => exact ⟨_, rfl, hends⟩

/-- A setup that has succeeded has had its `DDL` run. -/
theorem Inv.installed (hrec : w.Recorded) (h : Inv w) {t : Nat}
    {call : HostAction ⊕ ServiceCall Ctx}
    (hresponded : .responded t call (.inl HostAction.setup.succeeded) ∈ w.history) :
    t ∈ w.shared.installed := by
  have hclient := h.clients t
  rw [(hrec.responded t _ _).mp hresponded] at hclient
  generalize hresult : HostAction.setup.succeeded = result at hclient
  cases hclient with
  | ended action hends =>
      cases hends with
      | installed hmem => exact hmem
      | down hfailed message =>
          cases action with
          | setup => cases hresult
          | prepare => cases hresult
      | raced | ready | unprepared => cases hresult

/-- **Setups can be run at any time, by anyone, and as often as one likes**, while the service is
called in the years 0 to 9999: the tables are made at once or not at all, and once; no row is
lost, no other table is touched, and every call is as if it were made alone. A setup is refused
only when the tables of another one appear between its two reads, so never when that one was
over before it began. -/
theorem setups_coexist_with_calls (deps : Deps Ctx) (hlaw : deps.Lawful) (config : ApprovalPolicy)
    (db : Database) (hbare : Bare db) (w : World Ctx) (hw : Hosting deps config db w) :
    Coexists deps config db w := by
  have hrec : w.Recorded := Reachable.recorded hw
  have hinv := Hosting.inv hbare hw
  refine ⟨fun t action answer => hinv.ends hrec, ?_, ?_, ?_⟩
  · intro t ht
    rw [hrec.invoked]
    exact hinv.setups t ht
  · intro t u action answer hprecedes hresponded hsound
    obtain ⟨call, a, hr, rfl⟩ := hprecedes.completed
    -- the one that was over had run its batch
    have hinstalled := hinv.installed hrec hr
    have hnot : ¬ Unprepared t w.shared w.history :=
      fun hnone => hnone u hinstalled (Precedes.imp _ (fun _ _ => trivial) hprecedes)
    obtain ⟨result, rfl, hends⟩ := hinv.ends hrec hresponded
    cases hends with
    | installed | ready => rfl
    | raced _ hnone => exact absurd hnone hnot
    | unprepared hnone => exact absurd hnone hnot
    | down hfailed message => exact absurd hfailed hsound
  -- the calls alone make a world of the store
  · obtain ⟨v, hv, hprojects⟩ := Hosting.projects hbare hw
    obtain ⟨order, h⟩ := Running.inOrder hlaw hv
    exact ⟨v, hv, hprojects.history, hprojects.shared, order, h.linear, h.table, h.stamps⟩

end Worlds

/-- The batch of the second setup comes between the reads of the first. -/
theorem setups_coexist_with_calls_race : ∃ w,
    w.clients 1 = .finished (.inl .setup) (.inl (.setup (.error "approval_schema_unmanaged")))
      ∧ w.clients 2 = .finished (.inl .setup) (.inl (.setup (.ok ())))
      ∧ w.clients 3
        = .finished (.inr ask) (.inr (.request (.ok ⟨true, "apr_expense", .pending, "1"⟩)))
      ∧ Hosting Standard.deps Standard.policy ⟨[], List.nodup_nil⟩ w
      ∧ Coexists Standard.deps Standard.policy ⟨[], List.nodup_nil⟩ w := by
  have h : Hosting Standard.deps Standard.policy ⟨[], List.nodup_nil⟩ _ := .initial
  -- the first setup finds no ledger
  replace h := h.step (.invoke 1 (.inl .setup) rfl)
  replace h := h.step (.answer (t := 1) rfl (.setup _))
  -- the second one takes all its steps
  replace h := h.step (.invoke 2 (.inl .setup) rfl)
  replace h := h.step (.answer (t := 2) rfl (.setup _))
  replace h := h.step (.answer (t := 2) rfl (.setup _))
  replace h := h.step (.answer (t := 2) rfl (.setup _))
  replace h := h.step (.answer (t := 2) rfl (.setup _))
  replace h := h.step (.respond (t := 2) rfl)
  -- the first one finds the table of the second
  replace h := h.step (.answer (t := 1) rfl (.setup _))
  replace h := h.step (.respond (t := 1) rfl)
  -- the service is called
  replace h := h.step (.invoke 3 (.inr ask) rfl)
  replace h := h.step (.answer (t := 3) rfl (.dateNow 0 ⟨by decide, by decide⟩))
  replace h := h.step (.answer (t := 3) rfl (.batch rfl))
  replace h := h.step (.respond (t := 3) rfl)
  exact ⟨_, rfl, rfl, rfl, h, setups_coexist_with_calls Standard.deps Standard.deps_lawful
    Standard.policy _ ⟨rfl, rfl⟩ _ h⟩

end BusinessApproval.D1.Setup
