import BusinessApproval.Lib.Json
import BusinessApproval.Lib.Keyed
import BusinessApproval.Lib.Prog

/-!
# Setting up a D1 database

`setup` and `readiness` of `store.mjs`, over any tables there may be before. The table
of versions is the ledger here, as in the tests: its one row, `singleton=1`, says which
version of the tables this is.

A statement finds a table or a column by its name in any case of the ASCII letters, and
so does `CREATE TABLE IF NOT EXISTS`. In `sqlite_master` a name is a text like any other:
`name=?` compares it as it was written. An object that `first()` answers has its
properties under the names of the columns as they were written too.

The host does what it is told: no statement fails but for its own reasons, and a batch
is atomic.
-/

namespace BusinessApproval.D1.Setup

/-! ## Tables -/

/-- What is left of a name when the case of its ASCII letters does not count. -/
def folded (name : String) : List Char := name.toList.map Char.toLower

/-- A row, with its values under the names of the columns. -/
abbrev SqlRow := List (String × Json)

/-- A column, as far as the statements here look at one. -/
structure SqlColumn where
  name : String
  /-- What the number 1 is stored as, by the affinity of the column. -/
  one : Json
  /-- The values that are equal to the number 1, by its affinity and collation. -/
  isOne : Json → Bool
  default : Json

def SqlColumn.value (column : SqlColumn) (row : SqlRow) : Json :=
  (Json.getField column.name row).getD .null

/-- A column of type `INTEGER`. -/
def integer (name : String) : SqlColumn where
  name := name
  one := .num 1
  isOne
    | .num n => n == 1
    | _ => false
  default := .null

/-- A column of type `TEXT`. -/
def text (name : String) : SqlColumn where
  name := name
  one := .str "1"
  isOne
    | .str s => s == "1"
    | _ => false
  default := .null

/-- A table. -/
structure SqlTable where
  name : String
  columns : List SqlColumn
  /-- The columns of each `PRIMARY KEY` and `UNIQUE` constraint. -/
  keys : List (List String)
  /-- Whether a new row gets past all other constraints, and past these keys but for the one
  whose conflicts the statement takes care of. -/
  admits : List SqlRow → SqlRow → Bool
  rows : List SqlRow

namespace SqlTable

def key (table : SqlTable) : List Char := folded table.name

/-- The column a statement means by a name. -/
def column (table : SqlTable) (name : String) : Option SqlColumn :=
  table.columns.find? (fun column => folded column.name == folded name)

/-- The row with `singleton=1`. -/
def singletonRow (table : SqlTable) : Option SqlRow :=
  (table.column "singleton").bind fun column =>
    table.rows.find? (fun row => column.isOne (column.value row))

/-- `SELECT version FROM … WHERE singleton=1`, then `first()`. -/
def selectVersion (table : SqlTable) : Except String Json :=
  match table.column "singleton", table.column "version" with
  | some _, some version =>
      .ok (table.singletonRow.elim .null fun row => .obj [(version.name, version.value row)])
  | _, _ => .error "no such column"

/-- The row of `VALUES(1,1)`. -/
def versionRow (table : SqlTable) : SqlRow :=
  table.columns.map fun column =>
    (column.name,
      if folded column.name = folded "singleton" ∨ folded column.name = folded "version" then
        column.one
      else column.default)

/-- `INSERT INTO …(singleton,version) VALUES(1,1) ON CONFLICT(singleton) DO NOTHING` -/
def insertVersion (table : SqlTable) : Except String SqlTable :=
  match table.column "singleton", table.column "version" with
  | some _, some _ =>
      if !table.keys.any (fun key => key.map folded == [folded "singleton"]) then
        .error "ON CONFLICT clause does not match any PRIMARY KEY or UNIQUE constraint"
      else if !table.admits table.rows table.versionRow then .error "constraint failed"
      else if table.singletonRow.isSome then .ok table
      else .ok { table with rows := table.rows ++ [table.versionRow] }
  | _, _ => .error "table has no column"

end SqlTable

/-- The tables of a database; no two have one name. -/
@[ext] structure Database where
  tables : List SqlTable
  distinct : (tables.map SqlTable.key).Nodup

namespace Database

/-- The table a statement means by a name. -/
def find (db : Database) (name : String) : Option SqlTable :=
  Keyed.lookup SqlTable.key db.tables (folded name)

/-- Write a table: over the one of its name, or beside the others. -/
def put (db : Database) (table : SqlTable) : Database :=
  ⟨Keyed.put SqlTable.key db.tables table, Keyed.nodup_put db.distinct table⟩

/-- `SELECT name FROM sqlite_master WHERE type='table' AND name=?`, then `first()`. -/
def selectMaster (db : Database) (name : String) : Json :=
  (db.tables.find? (fun table => table.name == name)).elim .null fun table =>
    .obj [("name", .str table.name)]

end Database

/-! ## The statements of `DDL` -/

def schemaVersion : Int := 1

def isNull : Json → Bool
  | .null => true
  | _ => false

/-- The table of the first `CREATE TABLE`. -/
def ledgerTable : SqlTable where
  name := "lenso_approval_schema"
  columns := [integer "singleton", integer "version"]
  keys := [["singleton"]]
  admits _ row :=
    (integer "singleton").isOne ((integer "singleton").value row)
      && !isNull ((integer "version").value row)
  rows := []

/-- What the second `CREATE TABLE` asks of a row: `NOT NULL`, the two `CHECK`s and the keys. -/
def admitsRequest (rows : List SqlRow) (row : SqlRow) : Bool :=
  let str (name : String) (row : SqlRow) := ((text name).value row).asStr
  [text "requester_instance", text "idempotency_key", text "status", integer "revision",
      integer "expires_us", text "record_json"].all (fun column => !isNull (column.value row))
    && (str "status" row).any
      (["pending", "approved", "rejected", "cancelled", "expired"].contains ·)
    && ((integer "revision").value row).asNum.any ([1, 2].contains ·)
    && rows.all (fun other =>
      !((str "request_id" row).isSome && str "request_id" other == str "request_id" row)
        && !(str "requester_instance" other == str "requester_instance" row
          && str "idempotency_key" other == str "idempotency_key" row))

/-- The table of the second `CREATE TABLE`. -/
def requestsTable : SqlTable where
  name := "business_approval_requests"
  columns := [text "request_id", text "requester_instance", text "idempotency_key", text "status",
    integer "revision", integer "expires_us", text "record_json"]
  keys := [["request_id"], ["requester_instance", "idempotency_key"]]
  admits := admitsRequest
  rows := []

inductive Statement where
  /-- `CREATE TABLE IF NOT EXISTS …` -/
  | create (table : SqlTable)
  /-- `INSERT INTO lenso_approval_schema …` -/
  | insertVersion

def ddl : List Statement := [.create ledgerTable, .create requestsTable, .insertVersion]

namespace Database

def create (db : Database) (table : SqlTable) : Database :=
  if (db.find table.name).isSome then db else db.put table

def insertVersion (db : Database) : Except String Database :=
  match db.find "lenso_approval_schema" with
  | some table => table.insertVersion.map db.put
  | none => .error "no such table"

def selectVersion (db : Database) : Except String Json :=
  match db.find "lenso_approval_schema" with
  | some table => table.selectVersion
  | none => .error "no such table"

def apply (db : Database) : Statement → Except String Database
  | .create table => .ok (db.create table)
  | .insertVersion => db.insertVersion

/-- A batch is atomic: when a statement fails, nothing is done. -/
def runBatch (db : Database) (statements : List Statement) : Except String Unit × Database :=
  match statements.foldlM apply db with
  | .error message => (.error message, db)
  | .ok db' => (.ok (), db')

end Database

/-! ## What the host offers -/

inductive SetupOp where
  /-- `SELECT name FROM sqlite_master …` -/
  | selectMaster (name : String)
  /-- `SELECT version FROM lenso_approval_schema WHERE singleton=1` -/
  | selectVersion
  | batch (statements : List Statement)

def SetupRes : SetupOp → Type
  | .selectMaster _ => Except String Json
  | .selectVersion => Except String Json
  | .batch _ => Except String Unit

/-- What each operation does; only a batch writes. -/
def perform : Prog.Handler SetupRes Database
  | .selectMaster name, db => (.ok (db.selectMaster name), db)
  | .selectVersion, db => (db.selectVersion, db)
  | .batch statements, db => db.runBatch statements

/-- A JavaScript function over these: a program that may throw. -/
abbrev Action (α : Type) := ExceptT String (Prog SetupRes) α

def selectMaster (name : String) : Action Json :=
  ExceptT.mk (Prog.perform (SetupOp.selectMaster name))

def selectVersion : Action Json := ExceptT.mk (Prog.perform SetupOp.selectVersion)

def batch (statements : List Statement) : Action Unit :=
  ExceptT.mk (Prog.perform (SetupOp.batch statements))

/-! ## `store.mjs` -/

/-- `row?.version===SCHEMA_VERSION` -/
def versionIs (row : Json) : Bool :=
  match row.get "version" with
  | some (.num n) => n == schemaVersion
  | _ => false

def setup : Action Unit := do
  let existing ← selectMaster "lenso_approval_schema"
  if !existing.truthy then
    if (← selectMaster "business_approval_requests").truthy then
      throw "approval_schema_unmanaged"
  if existing.truthy then
    if !versionIs (← selectVersion) then
      throw "approval_schema_incompatible"
  batch ddl
  if !versionIs (← selectVersion) then
    throw "approval_schema_incompatible"

def readiness : Action Bool := do
  if !versionIs (← selectVersion) then
    throw "approval_setup_required"
  return true

/-- A run of `setup` by itself: what it answers, and the database it leaves. -/
def runSetup (db : Database) : Except String Unit × Database := Prog.run perform setup.run db

def runReadiness (db : Database) : Except String Bool × Database :=
  Prog.run perform readiness.run db

end BusinessApproval.D1.Setup
