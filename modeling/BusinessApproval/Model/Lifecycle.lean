import BusinessApproval.Model.Backend
import BusinessApproval.Model.Config
import BusinessApproval.Model.Setup

/-!
# The life of the plugins

The plugin over PostgreSQL is activated, deactivated and called, in any order. An activation
asks for the secret that holds the database URL and has a pool prepared; it may fail at each
of these, and what is told of the failure is all that it leaves. A call works with the pool
there is when it begins.

The plugin over D1 has its tables in a database of its host, where `setup` makes them and
others may be beside them. It looks at the ledger when it is prepared.
-/

namespace BusinessApproval

/-- How the secrets refuse to resolve a reference, or fail to. -/
inductive SecretsInvocationError where
  | domain
  | runtime (failure : RuntimeFailure)
  deriving DecidableEq, Repr

/-! ## PostgreSQL -/

namespace Postgres

/-- What an activation is given: whether a secret may be asked for yet, what the secrets
answer, and the plans and the pools of `lenso_postgres_kit`. -/
structure Surroundings (SchemaPlan OwnedPostgres : Type) where
  invocationContextAfter : Except RuntimeFailure Unit
  resolveWithContext : String → Except SecretsInvocationError String
  schemaPlan : String → Except String SchemaPlan
  prepare : String → SchemaPlan → Except String OwnedPostgres

section Activation

variable {SchemaPlan OwnedPostgres : Type} (around : Surroundings SchemaPlan OwnedPostgres)

def resolveSecret (reference : String) : Except RuntimeFailure String := do
  around.invocationContextAfter
  (around.resolveWithContext reference).mapError fun
    | .domain => .pluginFailure ("database URL secret `" ++ reference ++ "` was rejected")
    | .runtime error => error

/-- `Lifecycle::activate`, up to the pool that is put in its place. -/
def BusinessApprovalConfig.activate (config : BusinessApprovalConfig) :
    Except RuntimeFailure OwnedPostgres := do
  let databaseUrl ← resolveSecret around config.databaseUrlSecret
  let plan ← (around.schemaPlan config.schema).mapError .invalidResolvedPlan
  (around.prepare databaseUrl plan).mapError .pluginFailure

end Activation

/-- The pool the plugin has, and the tables of the databases that pools lead to. Pools that
lead to one database are one here. -/
structure PluginState (OwnedPostgres : Type) where
  prepared : Option OwnedPostgres
  tables : OwnedPostgres → Table

inductive PluginEvent (Ctx SchemaPlan OwnedPostgres : Type) where
  | activate (around : Surroundings SchemaPlan OwnedPostgres)
  | deactivate
  | call (clock : Clock) (call : ServiceCall Ctx)

inductive PluginAnswer where
  | done (result : Except RuntimeFailure Unit)
  | response (response : Response)

section Life

variable {Ctx SchemaPlan OwnedPostgres : Type} [DecidableEq OwnedPostgres]

/-- The store methods with the pool there is, or with none. -/
def behind (timestamptz : Int → Int) (clock : Clock) :
    Option OwnedPostgres → Prog.Handler StoreRes (OwnedPostgres → Table)
  | none, o, tables =>
      ((Prog.run (Session.perform clock) (PostgresStore timestamptz false o)
        (Session.idle [])).1, tables)
  | some postgres, o, tables => (alone timestamptz clock).at postgres o tables

variable (deps : Deps Ctx) (config : BusinessApprovalConfig)

/-- `deactivate` closes the pool it takes. -/
def PluginState.step (s : PluginState OwnedPostgres) :
    PluginEvent Ctx SchemaPlan OwnedPostgres → PluginAnswer × PluginState OwnedPostgres
  | .activate around =>
      match config.activate around with
      | .error failure => (.done (.error failure), s)
      | .ok postgres => (.done (.ok ()), { s with prepared := some postgres })
  | .deactivate => (.done (.ok ()), { s with prepared := none })
  | .call clock call =>
      let (response, tables) := Prog.run (behind deps.timestamptz clock s.prepared)
        (serve deps config.policy call) s.tables
      (.response response, { s with tables })

/-- An event, with the pool there was and what it was answered. -/
structure PluginEntry (Ctx SchemaPlan OwnedPostgres : Type) where
  prepared : Option OwnedPostgres
  event : PluginEvent Ctx SchemaPlan OwnedPostgres
  answer : PluginAnswer

/-- Events one after another. -/
def PluginState.run : List (PluginEvent Ctx SchemaPlan OwnedPostgres) →
    PluginState OwnedPostgres →
    List (PluginEntry Ctx SchemaPlan OwnedPostgres) × PluginState OwnedPostgres
  | [], s => ([], s)
  | event :: events, s =>
      let (answer, next) := s.step deps config event
      let (log, last) := PluginState.run events next
      (⟨s.prepared, event, answer⟩ :: log, last)

end Life

end Postgres

/-! ## D1 -/

namespace D1

/-- The values of a row under the names of its columns. -/
def D1Row.toSql (row : D1Row) : Setup.SqlRow := [
  ("request_id", .str row.requestId),
  ("requester_instance", .str row.requesterInstance),
  ("idempotency_key", .str row.idempotencyKey),
  ("status", .str row.status),
  ("revision", .num row.revision),
  ("expires_us", .num row.expiresUs),
  ("record_json", .text row.recordJson)]

/-- A row as the statements of the store read it, if it is one that they write. -/
def D1Row.ofSql (row : Setup.SqlRow) : Option D1Row := do
  let str (name : String) : Option String := (Json.getField name row).bind Json.asStr
  let num (name : String) : Option Int := (Json.getField name row).bind Json.asNum
  return {
    requestId := ← str "request_id"
    requesterInstance := ← str "requester_instance"
    idempotencyKey := ← str "idempotency_key"
    status := ← str "status"
    revision := ← num "revision"
    expiresUs := ← num "expires_us"
    recordJson := ← (Json.getField "record_json" row).bind fun
      | .text value => some value
      | _ => none }

namespace Setup

/-- The rows that the conditions of the store are about. -/
def SqlTable.stored (table : SqlTable) : List D1Row := table.rows.filterMap D1Row.ofSql

/-- What an `UPDATE` makes of a row. -/
def updated (condition : D1Row → Bool) (set : D1Row → D1Row) (row : SqlRow) : SqlRow :=
  match D1Row.ofSql row with
  | some stored => if condition stored then (set stored).toSql else row
  | none => row

/-- What the constraints of a table make of a write: a row that breaks one beside the keys is an
error, and a new row whose keys are in use is not written. -/
def SqlTable.write (table : SqlTable) : Write → Except String (Nat × SqlTable)
  | .insert row =>
      if !table.admits [] row.toSql then .error "CHECK constraint failed"
      else if !table.admits table.rows row.toSql then .ok (0, table)
      else .ok (1, { table with rows := table.rows ++ [row.toSql] })
  | .update condition set =>
      if (table.stored.filter condition).any (fun row => !table.admits [] (set row).toSql) then
        .error "CHECK constraint failed"
      else .ok ((table.stored.filter condition).length,
        { table with rows := table.rows.map (updated condition set) })

namespace Database

/-- A batch of the store: a write, and a `SELECT` after it. -/
def runStore (db : Database) (write : Write) (condition : D1Row → Bool) :
    Except String Json × Database :=
  match db.find "business_approval_requests" with
  | none => (.error "no such table", db)
  | some table =>
      match table.write write with
      | .error message => (.error message, db)
      | .ok (changes, table) =>
          (.ok (batchReply changes (table.stored.filter condition)), db.put table)

def selectFirst (db : Database) (condition : D1Row → Bool) : Except String Json :=
  match db.find "business_approval_requests" with
  | none => .error "no such table"
  | some table =>
      .ok (((table.stored.filter condition).head?.map D1Row.toJson).getD .null)

/-- What the host does for the store. -/
def store (clock : Clock) : Prog.Handler D1Res Database
  | .dateNow, db => (clock.dateNow, db)
  | .newDate, db => (clock.newDate, db)
  | .batch write condition, db => db.runStore write condition
  | .first condition, db => (db.selectFirst condition, db)

end Database

def unavailable : RuntimeFailure :=
  .pluginFailure "D1 Approval storage unavailable; submitted transitions may have committed"

/-- `StoreHandle::readiness` -/
def handleReadiness : Prog SetupRes (Except RuntimeFailure Unit) :=
  readiness.run >>= fun
    | .ok _ => .ret (.ok ())
    | .error _ => .ret (.error unavailable)

inductive HostEvent (Ctx : Type) where
  | setup
  /-- `Lifecycle::prepare` -/
  | prepare
  | call (clock : Clock) (call : ServiceCall Ctx)

inductive HostAnswer where
  | setup (result : Except String Unit)
  | prepare (result : Except RuntimeFailure Unit)
  | response (response : Response)

variable {Ctx : Type} (deps : Deps Ctx) (config : ApprovalPolicy)

def Database.step (db : Database) : HostEvent Ctx → HostAnswer × Database
  | .setup => ((.setup (runSetup db).1), (runSetup db).2)
  | .prepare =>
      let (result, db) := Prog.run perform handleReadiness db
      (.prepare result, db)
  | .call clock call =>
      let (response, db) := Prog.run ((Database.store clock).through (StoreHandle deps.time))
        (serve deps config call) db
      (.response response, db)

/-- Events one after another. -/
def Database.run : List (HostEvent Ctx) → Database → List HostAnswer × Database
  | [], db => ([], db)
  | event :: events, db =>
      let (answer, next) := db.step deps config event
      let (answers, last) := Database.run events next
      (answer :: answers, last)

end Setup

end D1

end BusinessApproval
