import BusinessApproval.Model.Setup

/-!
# What setup does to a database

`SetupEnd` lists every way a run of `setup` can end, over any tables. A run that is
refused before its batch leaves the database alone. A run that gets to its batch writes
what is missing, and then the ledger decides about the answer.

Setup means to refuse a ledger of another version, and requests without a ledger, before
it writes. It looks for the two tables by the text of their names, and then the statements
find them in any case of the letters. `Adopts` and `Overlooks` are the databases where
that makes a difference, and everywhere else `setup` is safe.
-/

namespace BusinessApproval.D1.Setup

/-! ## Finding and writing tables -/

namespace Database

variable {db : Database} {table : SqlTable} {name : String}

theorem key_of_find (h : db.find name = some table) : table.key = folded name :=
  Keyed.key_of_lookup h

theorem find_put (db : Database) (table : SqlTable) (name : String) :
    (db.put table).find name = if folded name = table.key then some table else db.find name :=
  Keyed.lookup_put db.tables table (folded name)

/-- Writing a table that is there changes nothing. -/
theorem put_self (h : db.find name = some table) : db.put table = db := by
  have hkey : Keyed.lookup SqlTable.key db.tables table.key = some table := by
    rw [key_of_find h]
    exact h
  exact Database.ext (Keyed.put_self db.distinct hkey)

theorem mem_put {other : SqlTable} (h : other ∈ db.tables) (hne : other.key ≠ table.key) :
    other ∈ (db.put table).tables :=
  Keyed.mem_put_of_ne h hne

/-- A name that is written exactly so. -/
def Names (db : Database) (name : String) : Prop :=
  ∃ table, db.find name = some table ∧ table.name = name

theorem names_iff (h : db.find name = some table) : db.Names name ↔ table.name = name := by
  constructor
  · rintro ⟨found, hfind, hname⟩
    rw [h] at hfind
    cases hfind
    exact hname
  · exact fun hname => ⟨table, h, hname⟩

theorem not_names (h : db.find name = none) : ¬ db.Names name := by
  rintro ⟨table, hfind, -⟩
  rw [h] at hfind
  cases hfind

/-- What `sqlite_master` answers is an object when a table is named exactly so. -/
theorem selectMaster_truthy : (db.selectMaster name).truthy = true ↔ db.Names name := by
  unfold selectMaster
  constructor
  · intro h
    cases hfind : db.tables.find? (fun table => table.name == name) with
    | none =>
        rw [hfind] at h
        cases h
    | some table =>
        -- it is named so letter for letter
        have hname : table.name = name := by
          simpa using List.find?_some hfind
        refine ⟨table, ?_, hname⟩
        rw [find, ← hname]
        exact Keyed.lookup_of_mem db.distinct (List.mem_of_find?_eq_some hfind)
  · rintro ⟨table, hfind, hname⟩
    have hsome : (db.tables.find? (fun table => table.name == name)).isSome = true :=
      List.find?_isSome.mpr ⟨table, Keyed.mem_of_lookup hfind, beq_iff_eq.mpr hname⟩
    obtain ⟨found, hfound⟩ := Option.isSome_iff_exists.mp hsome
    rw [hfound]
    rfl

theorem create_of_found (h : db.find table.name = some other) : db.create table = db := by
  rw [create, h]
  rfl

theorem find_create (db : Database) (table : SqlTable) (name : String) :
    (db.create table).find name
      = if folded name = table.key then some ((db.find table.name).getD table)
        else db.find name := by
  unfold create
  cases h : db.find table.name with
  | none => exact find_put db table name
  | some found =>
      simp only [Option.isSome_some, if_true, Option.getD_some]
      split
      next hkey =>
        rw [← h, find, hkey]
        rfl
      next => rfl

theorem mem_create {other : SqlTable} (h : other ∈ db.tables) :
    other ∈ (db.create table).tables := by
  unfold create
  split
  · exact h
  next hfind =>
    refine mem_put h ?_
    rw [Option.not_isSome_iff_eq_none] at hfind
    exact Keyed.lookup_eq_none.mp hfind other h

end Database

/-! ## The ledger -/

/-- A row of one value that is read as current has the version, under the name itself. -/
theorem getField_of_versionIs {name : String} {value : Json}
    (h : versionIs (.obj [(name, value)]) = true) :
    value = .num schemaVersion ∧ name = "version" := by
  have hget : (Json.obj [(name, value)]).get "version"
      = if name = "version" then some value else none := rfl
  rw [versionIs, hget] at h
  by_cases hname : name = "version"
  · rw [if_pos hname] at h
    split at h
    next n hvalue =>
      cases hvalue
      exact ⟨congrArg Json.num (beq_iff_eq.mp h), hname⟩
    next => cases h
  · rw [if_neg hname] at h
    cases h

namespace SqlTable

variable {table table' : SqlTable}

/-- Its version is read as the one this is. -/
def Current (table : SqlTable) : Prop :=
  ∃ row, table.selectVersion = .ok row ∧ versionIs row = true

/-- The version in its one row. -/
def version (table : SqlTable) : Option Json := do
  let column ← table.column "version"
  return column.value (← table.singletonRow)

/-- Every way an `INSERT` can succeed: it finds the one row, or adds it. -/
theorem insertVersion_cases (h : table.insertVersion = .ok table') :
    (table.column "version").isSome = true
      ∧ ((table.singletonRow.isSome = true ∧ table' = table)
        ∨ (table.singletonRow = none
          ∧ table' = { table with rows := table.rows ++ [table.versionRow] })) := by
  unfold insertVersion at h
  split at h
  next hsingleton hversion =>
    refine ⟨by rw [hversion]; rfl, ?_⟩
    -- `ON CONFLICT` asks for a key, and the row has to be admitted
    split at h
    · cases h
    · split at h
      · cases h
      · split at h
        next hrow =>
          cases h
          exact Or.inl ⟨hrow, rfl⟩
        next hrow =>
          cases h
          exact Or.inr ⟨Option.not_isSome_iff_eq_none.mp hrow, rfl⟩
  next => cases h

/-- It takes the `INSERT`: the columns are there, the row that is looked for is found by a key,
and nothing else refuses the new row. -/
structure Takes (table : SqlTable) : Prop where
  singleton : (table.column "singleton").isSome = true
  version : (table.column "version").isSome = true
  key : table.keys.any (fun key => key.map folded == [folded "singleton"]) = true
  admitted : table.admits table.rows table.versionRow = true

theorem takes_iff : table.Takes ↔ ∃ table', table.insertVersion = .ok table' := by
  unfold insertVersion
  constructor
  · rintro ⟨hsingleton, hversion, hkey, hadmitted⟩
    obtain ⟨singleton, hsingleton⟩ := Option.isSome_iff_exists.mp hsingleton
    obtain ⟨version, hversion⟩ := Option.isSome_iff_exists.mp hversion
    rw [hsingleton, hversion]
    simp only [hkey, hadmitted, Bool.not_true, Bool.false_eq_true, if_false]
    split
    · exact ⟨_, rfl⟩
    · exact ⟨_, rfl⟩
  · rintro ⟨table', h⟩
    split at h
    next hsingleton hversion =>
      split at h
      · cases h
      next hkey =>
        split at h
        · cases h
        next hadmitted =>
          rw [Bool.not_eq_true', Bool.not_eq_false] at hkey hadmitted
          exact ⟨by rw [hsingleton]; rfl, by rw [hversion]; rfl, hkey, hadmitted⟩
    next => cases h

theorem key_of_insertVersion (h : table.insertVersion = .ok table') : table'.key = table.key := by
  obtain ⟨-, ⟨-, rfl⟩ | ⟨-, rfl⟩⟩ := insertVersion_cases h
  · rfl
  · rfl

/-- What is read as current is: the row is there, and has this version. -/
theorem Current.version (h : table.Current) :
    table.singletonRow.isSome = true ∧ table.version = some (.num schemaVersion) := by
  obtain ⟨row, hselect, hrow⟩ := h
  unfold selectVersion at hselect
  split at hselect
  next column hsingleton hversion =>
    cases hfound : table.singletonRow with
    | none =>
        rw [hfound] at hselect
        cases hselect
        cases hrow
    | some found =>
        rw [hfound] at hselect
        cases hselect
        refine ⟨rfl, ?_⟩
        obtain ⟨hget, -⟩ := getField_of_versionIs hrow
        rw [SqlTable.version, hversion, hfound]
        exact congrArg some hget
  next => cases hselect

theorem version_of_missing (h : table.singletonRow = none) : table.version = none := by
  rw [SqlTable.version, h]
  cases table.column "version" with
  | none => rfl
  | some column => rfl

/-- The ledger that the batch creates. -/
theorem ledgerTable_fresh : ∃ table, ledgerTable.insertVersion = .ok table
    ∧ table.Current := by
  refine ⟨{ ledgerTable with rows := [[("singleton", .num 1), ("version", .num 1)]] }, ?_, ?_⟩
  · rfl
  · exact ⟨.obj [("version", .num 1)], rfl, rfl⟩

end SqlTable

/-! ## How a run ends -/

namespace Database

/-- The database with both tables. -/
def completed (db : Database) : Database := (db.create ledgerTable).create requestsTable

/-- The table the `INSERT` goes to. -/
def ledger (db : Database) : SqlTable := (db.find "lenso_approval_schema").getD ledgerTable

/-- What is checked before the batch: a current ledger, or none and no requests either. -/
def Passes (db : Database) : Prop :=
  (∃ table, db.find "lenso_approval_schema" = some table
      ∧ table.name = "lenso_approval_schema" ∧ table.Current)
    ∨ (¬ db.Names "lenso_approval_schema" ∧ ¬ db.Names "business_approval_requests")

variable {db : Database}

theorem find_completed_ledger (db : Database) :
    db.completed.find "lenso_approval_schema" = some db.ledger := by
  rw [completed, find_create, if_neg (by decide), find_create, if_pos (by decide)]
  rfl

theorem find_completed_requests (db : Database) :
    db.completed.find "business_approval_requests"
      = some ((db.find "business_approval_requests").getD requestsTable) := by
  rw [completed, find_create, if_pos (by decide)]
  change some (((db.create ledgerTable).find "business_approval_requests").getD _) = _
  rw [find_create, if_neg (by decide)]

theorem mem_completed {table : SqlTable} (h : table ∈ db.tables) : table ∈ db.completed.tables :=
  mem_create (mem_create h)

theorem completed_of_found {ledger requests : SqlTable}
    (hledger : db.find "lenso_approval_schema" = some ledger)
    (hrequests : db.find "business_approval_requests" = some requests) : db.completed = db := by
  have hfirst : db.create ledgerTable = db := create_of_found hledger
  rw [completed, hfirst]
  exact create_of_found hrequests

/-- The batch, as one change of the ledger of the completed database. -/
theorem runBatch_ddl (db : Database) : db.runBatch ddl = match db.ledger.insertVersion with
    | .error message => (.error message, db)
    | .ok table => (.ok (), db.completed.put table) := by
  have hfold : ddl.foldlM apply db = db.ledger.insertVersion.map db.completed.put := by
    change (db.completed.insertVersion >>= pure) = _
    rw [bind_pure, insertVersion, find_completed_ledger]
  rw [runBatch, hfold]
  cases db.ledger.insertVersion with
  | error message => rfl
  | ok table => rfl

theorem key_ledger (db : Database) : db.ledger.key = folded "lenso_approval_schema" :=
  key_of_find (find_completed_ledger db)

theorem selectVersion_put {table : SqlTable} (hkey : table.key = folded "lenso_approval_schema")
    (db : Database) : (db.put table).selectVersion = table.selectVersion := by
  rw [selectVersion, find_put, if_pos hkey.symm]

end Database

/-- The last steps of `setup`: the batch, and what the ledger says after it. -/
def finish : Action Unit := do
  batch ddl
  if !versionIs (← selectVersion) then
    throw "approval_schema_incompatible"

/-- A program goes on from reading the version if it is the one this is. -/
theorem run_versionRead {α : Type} (message : String) (rest : Action α) (db : Database) :
    Prog.run perform (ExceptT.run do
      if !versionIs (← selectVersion) then
        throw message
      rest) db
    = match db.selectVersion with
      | .error message => (.error message, db)
      | .ok row =>
          if versionIs row then Prog.run perform rest.run db else (.error message, db) := by
  change Prog.run perform (Prog.bind (Prog.ret db.selectVersion) _) db = _
  cases db.selectVersion with
  | error message => rfl
  | ok row =>
      change Prog.run perform (ExceptT.run (if (!versionIs row) = true then _ else _)) db
        = if versionIs row = true then _ else _
      cases versionIs row with
      | true => rfl
      | false => rfl

theorem runSetup_eq (db : Database) : runSetup db =
    if (db.selectMaster "lenso_approval_schema").truthy then
      match db.selectVersion with
      | .error message => (.error message, db)
      | .ok row =>
          if versionIs row then Prog.run perform finish.run db
          else (.error "approval_schema_incompatible", db)
    else if (db.selectMaster "business_approval_requests").truthy then
      (.error "approval_schema_unmanaged", db)
    else Prog.run perform finish.run db := by
  unfold runSetup setup
  change Prog.run perform (ExceptT.run
    (if (!(db.selectMaster "lenso_approval_schema").truthy) = true then _ else _)) db = _
  cases hledger : (db.selectMaster "lenso_approval_schema").truthy with
  | true =>
      -- a ledger of that name is read before anything is written
      exact run_versionRead "approval_schema_incompatible" finish db
  | false =>
      simp only [Bool.false_eq_true, if_false]
      change Prog.run perform (ExceptT.run
        (if (db.selectMaster "business_approval_requests").truthy = true then _ else _)) db = _
      cases (db.selectMaster "business_approval_requests").truthy with
      | true => rfl
      | false => rfl

/-- Every way a run of `setup` can end. -/
inductive SetupEnd (db : Database) : Except String Unit × Database → Prop
  /-- Before the batch, or because the batch fails. -/
  | refused (message : String)
      (h : db.Passes → ∀ table, db.ledger.insertVersion ≠ .ok table) :
      SetupEnd db (.error message, db)
  /-- After the batch. -/
  | outdated (message : String) {table : SqlTable} (hpasses : db.Passes)
      (hinsert : db.ledger.insertVersion = .ok table) (h : ¬ table.Current) :
      SetupEnd db (.error message, db.completed.put table)
  | done {table : SqlTable} (hpasses : db.Passes)
      (hinsert : db.ledger.insertVersion = .ok table) (h : table.Current) :
      SetupEnd db (.ok (), db.completed.put table)

variable {db : Database}

theorem finish_end (hpasses : db.Passes) : SetupEnd db (Prog.run perform finish.run db) := by
  change SetupEnd db (Prog.run perform (Prog.bind (Prog.ret (db.runBatch ddl).1) _)
    (db.runBatch ddl).2)
  rw [Database.runBatch_ddl]
  cases hinsert : db.ledger.insertVersion with
  | error message =>
      refine .refused message fun _ table heq => ?_
      rw [hinsert] at heq
      cases heq
  | ok table =>
      have hkey : table.key = folded "lenso_approval_schema" :=
        (SqlTable.key_of_insertVersion hinsert).trans db.key_ledger
      -- what is left is to read the version
      change SetupEnd db (Prog.run perform (ExceptT.run do
        if !versionIs (← selectVersion) then
          throw "approval_schema_incompatible"
        pure ()) (db.completed.put table))
      rw [run_versionRead, Database.selectVersion_put hkey]
      cases hselect : table.selectVersion with
      | error message =>
          refine .outdated message hpasses hinsert ?_
          rintro ⟨row, hrow, -⟩
          rw [hselect] at hrow
          cases hrow
      | ok row =>
          simp only
          split
          next hversion => exact .done hpasses hinsert ⟨row, hselect, hversion⟩
          next hversion =>
            refine .outdated _ hpasses hinsert ?_
            rintro ⟨row', hrow', hversion'⟩
            rw [hselect] at hrow'
            cases hrow'
            exact hversion hversion'

theorem runSetup_end (db : Database) : SetupEnd db (runSetup db) := by
  rw [runSetup_eq]
  split
  next htruthy =>
    obtain ⟨ledger, hfind, hname⟩ := Database.selectMaster_truthy.mp htruthy
    -- such a ledger has to be current
    have hcurrent : db.Passes → ledger.Current := by
      rintro (⟨table, hfind', -, h⟩ | ⟨habsent, -⟩)
      · rw [hfind] at hfind'
        cases hfind'
        exact h
      · exact absurd ⟨ledger, hfind, hname⟩ habsent
    have hselect : db.selectVersion = ledger.selectVersion := by
      rw [Database.selectVersion, hfind]
    rw [hselect]
    cases hrow : ledger.selectVersion with
    | error message =>
        refine .refused message fun hpasses => ?_
        obtain ⟨row, hrow', -⟩ := hcurrent hpasses
        rw [hrow] at hrow'
        cases hrow'
    | ok row =>
        simp only
        split
        next hversion => exact finish_end (Or.inl ⟨ledger, hfind, hname, row, hrow, hversion⟩)
        next hversion =>
          refine .refused _ fun hpasses => ?_
          obtain ⟨row', hrow', hversion'⟩ := hcurrent hpasses
          rw [hrow] at hrow'
          cases hrow'
          exact absurd hversion' hversion
  next habsent =>
    rw [Database.selectMaster_truthy] at habsent
    split
    next htruthy =>
      refine .refused _ ?_
      rintro (⟨ledger, hfind, hname, -⟩ | ⟨-, hrequests⟩)
      · exact absurd ⟨ledger, hfind, hname⟩ habsent
      · exact absurd (Database.selectMaster_truthy.mp htruthy) hrequests
    next hrequests =>
      exact finish_end (Or.inr ⟨habsent, mt Database.selectMaster_truthy.mpr hrequests⟩)

/-- Of a run that gets to its batch, when the ledger takes the `INSERT`, the ledger decides. -/
theorem SetupEnd.passed {outcome : Except String Unit × Database} (hend : SetupEnd db outcome)
    (hpasses : db.Passes) {table : SqlTable} (hinsert : db.ledger.insertVersion = .ok table) :
    (table.Current ∧ outcome = (.ok (), db.completed.put table))
      ∨ (¬ table.Current ∧ ∃ message, outcome = (.error message, db.completed.put table)) := by
  cases hend with
  | refused message h => exact absurd hinsert (h hpasses table)
  | outdated message _ hwritten h =>
      rw [hinsert] at hwritten
      cases hwritten
      exact Or.inr ⟨h, message, rfl⟩
  | done _ hwritten h =>
      rw [hinsert] at hwritten
      cases hwritten
      exact Or.inl ⟨h, rfl⟩

/-- A run changes nothing when both tables are there and the ledger has its one row. -/
theorem runSetup_same {ledger requests : SqlTable}
    (hledger : db.find "lenso_approval_schema" = some ledger)
    (hrow : ledger.singletonRow.isSome = true)
    (hrequests : db.find "business_approval_requests" = some requests) :
    (runSetup db).2 = db := by
  -- a ledger that has its row takes nothing more
  have hsame : ∀ {table}, db.ledger.insertVersion = .ok table → db.completed.put table = db := by
    intro table hinsert
    rw [Database.ledger, hledger, Option.getD_some] at hinsert
    obtain ⟨-, ⟨-, rfl⟩ | ⟨hnone, -⟩⟩ := SqlTable.insertVersion_cases hinsert
    · rw [Database.completed_of_found hledger hrequests]
      exact Database.put_self hledger
    · rw [hnone] at hrow
      cases hrow
  have hend := runSetup_end db
  generalize runSetup db = outcome at hend
  cases hend with
  | refused message h => rfl
  | outdated message hpasses hinsert h => exact hsame hinsert
  | done hpasses hinsert h => exact hsame hinsert

theorem runReadiness_eq (db : Database) : runReadiness db
    = (db.selectVersion.bind fun row =>
        if versionIs row then .ok true else .error "approval_setup_required", db) := by
  refine (run_versionRead "approval_setup_required" (pure true) db).trans ?_
  cases db.selectVersion with
  | error message => rfl
  | ok row =>
      change (if versionIs row = true then _ else _) = (if versionIs row = true then _ else _, db)
      cases versionIs row with
      | true => rfl
      | false => rfl

theorem runReadiness_of_current {ledger : SqlTable}
    (hledger : db.find "lenso_approval_schema" = some ledger) (h : ledger.Current) :
    (runReadiness db).1 = .ok true := by
  obtain ⟨row, hrow, hversion⟩ := h
  have hselect : db.selectVersion = .ok row := by
    rw [Database.selectVersion, hledger]
    exact hrow
  rw [runReadiness_eq, hselect]
  exact if_pos hversion

/-! ## When setup is safe -/

/-- What `readiness` looks for. -/
structure Database.Ready (db : Database) : Prop where
  ledger : ∃ table, db.find "lenso_approval_schema" = some table
    ∧ table.version = some (.num schemaVersion)
  requests : ∃ table, db.find "business_approval_requests" = some table
  readiness : (runReadiness db).1 = .ok true

/-- What is promised of `setup` and `readiness` on a database. -/
structure SafeSetup (db : Database) : Prop where
  /-- Setup throws and leaves everything as it was, or it makes the database ready. -/
  clean : ((∃ message, (runSetup db).1 = .error message) ∧ (runSetup db).2 = db)
    ∨ ((runSetup db).1 = .ok () ∧ (runSetup db).2.Ready)
  unmanaged : (∃ table, db.find "business_approval_requests" = some table) →
    db.find "lenso_approval_schema" = none → ∃ message, (runSetup db).1 = .error message
  incompatible : ∀ table, db.find "lenso_approval_schema" = some table →
    table.version ≠ some (.num schemaVersion) → ∃ message, (runSetup db).1 = .error message
  keeps : ∀ table ∈ db.tables, table ∈ (runSetup db).2.tables
  again : (runSetup db).1 = .ok () → (runSetup (runSetup db).2).2 = (runSetup db).2
  readiness : (runReadiness db).2 = db

/-- Requests without a ledger, under a name in other letters. -/
def Database.Adopts (db : Database) : Prop :=
  db.find "lenso_approval_schema" = none
    ∧ ∃ table, db.find "business_approval_requests" = some table
      ∧ table.name ≠ "business_approval_requests"

/-- A ledger under a name in other letters, and no requests that would stop setup: it takes
the `INSERT`, and either that gives it the row it lacks, or its version is not the one this
is and the requests are created beside it. -/
def Database.Overlooks (db : Database) : Prop :=
  ∃ table, db.find "lenso_approval_schema" = some table ∧ table.name ≠ "lenso_approval_schema"
    ∧ ¬ db.Names "business_approval_requests"
    ∧ table.Takes
    ∧ (table.singletonRow = none
      ∨ (db.find "business_approval_requests" = none ∧ ¬ table.Current))

/-! ### Elsewhere -/

/-- A run that is refused is safe. -/
theorem safe_of_refused {message : String} (h : runSetup db = (.error message, db)) :
    SafeSetup db where
  clean := Or.inl ⟨⟨message, by rw [h]⟩, by rw [h]⟩
  unmanaged _ _ := ⟨message, by rw [h]⟩
  incompatible _ _ _ := ⟨message, by rw [h]⟩
  keeps table htable := by
    rw [h]
    exact htable
  again hok := by
    rw [h] at hok
    cases hok
  readiness := by rw [runReadiness_eq]

/-- What the batch finds when the two tables cannot be mistaken: neither of them, or a ledger
with its one row. -/
theorem passed_cases (hadopts : ¬ db.Adopts) (hoverlooks : ¬ db.Overlooks) (hpasses : db.Passes)
    {table : SqlTable} (hinsert : db.ledger.insertVersion = .ok table) :
    (db.find "lenso_approval_schema" = none ∧ db.find "business_approval_requests" = none
        ∧ table.Current)
      ∨ (db.find "lenso_approval_schema" = some table ∧ table.singletonRow.isSome = true
        ∧ (table.Current ∨ ∃ requests, db.find "business_approval_requests" = some requests)) := by
  cases hledger : db.find "lenso_approval_schema" with
  | none =>
      refine Or.inl ⟨rfl, ?_, ?_⟩
      · cases hrequests : db.find "business_approval_requests" with
        | none => rfl
        | some requests =>
            rcases hpasses with ⟨ledger, hfind, -⟩ | ⟨-, hnames⟩
            · rw [hledger] at hfind
              cases hfind
            · exact absurd ⟨hledger, requests, hrequests,
                fun hname => hnames ⟨requests, hrequests, hname⟩⟩ hadopts
      · obtain ⟨fresh, hfresh, hcurrent⟩ := SqlTable.ledgerTable_fresh
        rw [Database.ledger, hledger, Option.getD_none, hfresh] at hinsert
        cases hinsert
        exact hcurrent
  | some ledger =>
      rw [Database.ledger, hledger, Option.getD_some] at hinsert
      -- unless the ledger is current, its name is in other letters, and nothing stops setup
      have hother : ¬ ledger.Current →
          ledger.name ≠ "lenso_approval_schema" ∧ ¬ db.Names "business_approval_requests" := by
        intro hcurrent
        rcases hpasses with ⟨found, hfind, -, h⟩ | ⟨hnames, hrequests⟩
        · rw [hledger] at hfind
          cases hfind
          exact absurd h hcurrent
        · exact ⟨fun hname => hnames ⟨ledger, hledger, hname⟩, hrequests⟩
      obtain ⟨-, ⟨hrow, rfl⟩ | ⟨hnone, -⟩⟩ := SqlTable.insertVersion_cases hinsert
      · refine Or.inr ⟨rfl, hrow, or_iff_not_imp_left.mpr fun hcurrent => ?_⟩
        obtain ⟨hname, hrequests⟩ := hother hcurrent
        by_contra hnone
        rw [not_exists, ← Option.eq_none_iff_forall_ne_some] at hnone
        exact hoverlooks ⟨table, hledger, hname, hrequests, SqlTable.takes_iff.mpr ⟨table, hinsert⟩,
          Or.inr ⟨hnone, hcurrent⟩⟩
      · have hcurrent : ¬ ledger.Current := by
          intro h
          have hrow := h.version.1
          rw [hnone] at hrow
          cases hrow
        obtain ⟨hname, hrequests⟩ := hother hcurrent
        have htakes : ledger.Takes := SqlTable.takes_iff.mpr ⟨table, hinsert⟩
        exact absurd ⟨ledger, hledger, hname, hrequests, htakes, Or.inl hnone⟩ hoverlooks

/-- A run that succeeds on such a database is safe. -/
theorem safe_of_done {table : SqlTable} (hrun : runSetup db = (.ok (), db.completed.put table))
    (hkey : table.key = folded "lenso_approval_schema") (h : table.Current)
    (hcases : (db.find "lenso_approval_schema" = none
        ∧ db.find "business_approval_requests" = none ∧ table.Current)
      ∨ (db.find "lenso_approval_schema" = some table ∧ table.singletonRow.isSome = true
        ∧ (table.Current ∨ ∃ requests, db.find "business_approval_requests" = some requests))) :
    SafeSetup db := by
  have hledger : (db.completed.put table).find "lenso_approval_schema" = some table := by
    rw [Database.find_put, if_pos hkey.symm]
  have hrequests : (db.completed.put table).find "business_approval_requests"
      = some ((db.find "business_approval_requests").getD requestsTable) := by
    rw [Database.find_put, hkey, if_neg (by decide), Database.find_completed_requests]
  constructor
  · rw [hrun]
    exact Or.inr ⟨rfl, ⟨table, hledger, h.version.2⟩, ⟨_, hrequests⟩,
      runReadiness_of_current hledger h⟩
  · rintro ⟨requests, hfound⟩ hnone
    rcases hcases with ⟨-, hmissing, -⟩ | ⟨hsome, -⟩
    · rw [hfound] at hmissing
      cases hmissing
    · rw [hnone] at hsome
      cases hsome
  · intro found hfind hversion
    rcases hcases with ⟨hnone, -⟩ | ⟨hsome, -⟩
    · rw [hfind] at hnone
      cases hnone
    · rw [hfind] at hsome
      cases hsome
      exact absurd h.version.2 hversion
  · intro other hother
    rw [hrun]
    rcases hcases with ⟨hnone, -⟩ | ⟨hsome, -⟩
    · refine Database.mem_put (Database.mem_completed hother) ?_
      rw [hkey]
      exact Keyed.lookup_eq_none.mp hnone other hother
    · -- the ledger that was there is written over itself
      have hsame : db.completed.find "lenso_approval_schema" = some table := by
        rw [Database.find_completed_ledger, Database.ledger, hsome]
        rfl
      rw [Database.put_self hsame]
      exact Database.mem_completed hother
  · intro _
    rw [hrun]
    exact runSetup_same hledger h.version.1 hrequests
  · rw [runReadiness_eq]

/-- Everywhere else `setup` is safe. -/
theorem safeSetup_of (hadopts : ¬ db.Adopts) (hoverlooks : ¬ db.Overlooks) : SafeSetup db := by
  have hend := runSetup_end db
  generalize hrun : runSetup db = outcome at hend
  cases hend with
  | refused message h => exact safe_of_refused hrun
  | @outdated message table hpasses hinsert h =>
      rcases passed_cases hadopts hoverlooks hpasses hinsert with
        ⟨-, -, hcurrent⟩ | ⟨hledger, -, hcurrent | ⟨requests, hrequests⟩⟩
      · exact absurd hcurrent h
      · exact absurd hcurrent h
      · -- both tables are there, and the batch has changed neither
        rw [Database.completed_of_found hledger hrequests, Database.put_self hledger] at hrun
        exact safe_of_refused hrun
  | @done table hpasses hinsert h =>
      have hcases := passed_cases hadopts hoverlooks hpasses hinsert
      have hkey : table.key = folded "lenso_approval_schema" :=
        (SqlTable.key_of_insertVersion hinsert).trans db.key_ledger
      exact safe_of_done hrun hkey h hcases

/-- Setup is safe when the tables that are there have the names that it looks for. -/
theorem safeSetup_of_names
    (hledger : ∀ table, db.find "lenso_approval_schema" = some table →
      table.name = "lenso_approval_schema")
    (hrequests : ∀ table, db.find "business_approval_requests" = some table →
      table.name = "business_approval_requests") : SafeSetup db := by
  refine safeSetup_of ?_ ?_
  · rintro ⟨-, table, hfind, hname⟩
    exact hname (hrequests table hfind)
  · rintro ⟨table, hfind, hname, -⟩
    exact hname (hledger table hfind)

/-! ### The two exceptions -/

/-- Setup adopts requests that it should refuse. -/
theorem not_safe_of_adopts (h : db.Adopts) : ¬ SafeSetup db := by
  intro hsafe
  obtain ⟨hledger, requests, hrequests, hname⟩ := h
  obtain ⟨message, hmessage⟩ := hsafe.unmanaged ⟨requests, hrequests⟩ hledger
  obtain ⟨fresh, hfresh, hcurrent⟩ := SqlTable.ledgerTable_fresh
  have hinsert : db.ledger.insertVersion = .ok fresh := by
    rw [Database.ledger, hledger]
    exact hfresh
  have hpasses : db.Passes :=
    Or.inr ⟨Database.not_names hledger, fun h => hname ((Database.names_iff hrequests).mp h)⟩
  rcases (runSetup_end db).passed hpasses hinsert with ⟨-, hrun⟩ | ⟨houtdated, -⟩
  · rw [hrun] at hmessage
    cases hmessage
  · exact houtdated hcurrent

/-- Setup writes before it reads the ledger it should refuse. -/
theorem not_safe_of_overlooks (h : db.Overlooks) : ¬ SafeSetup db := by
  intro hsafe
  obtain ⟨ledger, hledger, hname, hrequests, htakes, hwrong⟩ := h
  obtain ⟨table, hinsert⟩ := SqlTable.takes_iff.mp htakes
  have hpasses : db.Passes :=
    Or.inr ⟨fun h => hname ((Database.names_iff hledger).mp h), hrequests⟩
  have hwritten : db.ledger.insertVersion = .ok table := by
    rw [Database.ledger, hledger]
    exact hinsert
  have hkey : table.key = folded "lenso_approval_schema" :=
    (SqlTable.key_of_insertVersion hwritten).trans db.key_ledger
  obtain ⟨-, hafter⟩ := SqlTable.insertVersion_cases hinsert
  rcases (runSetup_end db).passed hpasses hwritten with
    ⟨hcurrent, hrun⟩ | ⟨-, message, hrun⟩
  · -- the answer is a success, so the ledger was current
    rcases hafter with ⟨hrow, rfl⟩ | ⟨hnone, -⟩
    · rcases hwrong with hnone | ⟨-, houtdated⟩
      · rw [hnone] at hrow
        cases hrow
      · exact houtdated hcurrent
    · have hversion : ledger.version ≠ some (.num schemaVersion) := by
        rw [SqlTable.version_of_missing hnone]
        exact nofun
      obtain ⟨message, hmessage⟩ := hsafe.incompatible ledger hledger hversion
      rw [hrun] at hmessage
      cases hmessage
  · -- the answer is an error, so nothing may have changed
    have hclean := hsafe.clean
    rw [hrun] at hclean
    obtain ⟨-, hsame⟩ | ⟨hok, -⟩ := hclean
    · rcases hafter with ⟨hrow, -⟩ | ⟨-, rfl⟩
      · rcases hwrong with hnone | ⟨hmissing, -⟩
        · rw [hnone] at hrow
          cases hrow
        · rw [← hsame, Database.find_put, hkey, if_neg (by decide),
            Database.find_completed_requests] at hmissing
          cases hmissing
      · rw [← hsame, Database.find_put, if_pos hkey.symm] at hledger
        have hrows := congrArg SqlTable.rows (Option.some.inj hledger)
        exact List.cons_ne_nil _ _ (List.append_right_eq_self.mp hrows)
    · cases hok

/-- **Setup is safe on every database but these.** -/
theorem safeSetup_iff (db : Database) : SafeSetup db ↔ ¬ db.Adopts ∧ ¬ db.Overlooks :=
  ⟨fun hsafe => ⟨fun h => not_safe_of_adopts h hsafe, fun h => not_safe_of_overlooks h hsafe⟩,
    fun h => safeSetup_of h.1 h.2⟩

/-- A ledger of version 99, under a name in other letters. -/
def otherLetters : Database where
  tables := [{ ledgerTable with
    name := "Lenso_Approval_Schema"
    rows := [[("singleton", .num 1), ("version", .num 99)]] }]
  distinct := List.nodup_singleton _

/-- Setup throws, and has created the requests. -/
theorem not_alwaysSafe : ¬ ∀ db, SafeSetup db := by
  intro hall
  obtain ⟨-, hsame⟩ | ⟨hok, -⟩ := (hall otherLetters).clean
  · have htables := congrArg (fun db => db.tables.length) hsame
    exact absurd htables (by decide)
  · exact absurd hok (by decide)

end BusinessApproval.D1.Setup
