import BusinessApproval.Model.Concurrent
import BusinessApproval.Proof.Calls

/-!
# The server under concurrent transactions

`Change` lists what a client can bring about at the server in one step, with what
is known of the step. Two things follow from each of its cases: the invariants of
the server hold again (`Change.dbInv`), and whatever another client relies on is
still so (`Change.keeps`) — the rows it has locked are as they were, the keys of the
row it has inserted are still free, and no row is gone or has other terms.
-/

namespace BusinessApproval.Postgres

/-! ## Terms of a row -/

/-- The row as it was created: what no transition changes. -/
def PgRow.terms (row : PgRow) : PgRow :=
  { row with
    status := "pending"
    revision := 1
    terminalCallerInstance := none
    terminalActor := none
    evidenceRef := none
    reason := none
    terminalAt := none }

namespace PgRow

variable {row row' : PgRow}

@[simp] theorem settle_terms (set : Settlement) (now : Int) (row : PgRow) :
    (row.settle set now).terms = row.terms := rfl

theorem requestId_of_terms (h : row'.terms = row.terms) : row'.requestId = row.requestId := by
  change row'.terms.requestId = row.terms.requestId
  rw [h]

theorem pair_of_terms (h : row'.terms = row.terms) : row'.pair = row.pair := by
  change row'.terms.pair = row.terms.pair
  rw [h]

theorem sharesKey_of_terms (h : row'.terms = row.terms) (intent : RequestIntent) :
    sharesKey intent row' = sharesKey intent row := by
  change sharesKey intent row'.terms = sharesKey intent row.terms
  rw [h]

theorem sameIntent_terms (row : PgRow) (intent : RequestIntent) :
    sameIntent row.terms.record intent = sameIntent row.record intent := by
  simp only [sameIntent, record, StoredApproval.ofRow, terms]

theorem sameIntent_of_terms (h : row'.terms = row.terms) (intent : RequestIntent) :
    sameIntent row'.record intent = sameIntent row.record intent := by
  rw [← sameIntent_terms row', ← sameIntent_terms row, h]

end PgRow

/-- Every row is still there, with its terms. -/
def Grows (table table' : Table) : Prop :=
  ∀ id row, lookup table id = some row → ∃ row', lookup table' id = some row' ∧ row'.terms = row.terms

namespace Grows

variable {table table' table'' : Table}

theorem refl (table : Table) : Grows table table := fun _ row h => ⟨row, h, rfl⟩

theorem trans (h : Grows table table') (h' : Grows table' table'') : Grows table table'' := by
  intro id row hrow
  obtain ⟨row', hrow', hterms⟩ := h id row hrow
  obtain ⟨row'', hrow'', hterms'⟩ := h' id row' hrow'
  exact ⟨row'', hrow'', hterms'.trans hterms⟩

/-- A row of the table before has its counterpart in the table after. -/
theorem of_mem (h : Grows table table') (hs : Sound table) {row : PgRow} (hrow : row ∈ table) :
    ∃ row' ∈ table', row'.terms = row.terms := by
  obtain ⟨row', hrow', hterms⟩ := h _ _ (Keyed.lookup_of_mem hs.unique.keys hrow)
  exact ⟨row', Keyed.mem_of_lookup hrow', hterms⟩

/-- Keys that are free were free before. -/
theorem free (h : Grows table table') (hs : Sound table) {row : PgRow}
    (hfree : taken table' row = false) : taken table row = false := by
  obtain ⟨hkeys, halts⟩ := Keyed.taken_eq_false.mp hfree
  refine Keyed.taken_eq_false.mpr ⟨fun r hr => ?_, fun r hr => ?_⟩
  · obtain ⟨r', hr', hterms⟩ := h.of_mem hs hr
    rw [← PgRow.requestId_of_terms hterms]
    exact hkeys r' hr'
  · obtain ⟨r', hr', hterms⟩ := h.of_mem hs hr
    rw [← PgRow.pair_of_terms hterms]
    exact halts r' hr'

/-- Writing a row over one with its terms. -/
theorem put_same {row old : PgRow} (hold : lookup table row.requestId = some old)
    (hterms : row.terms = old.terms) : Grows table (Keyed.put PgRow.requestId table row) := by
  intro id r hr
  by_cases hid : id = row.requestId
  · subst hid
    rw [hold] at hr
    rw [← Option.some.inj hr]
    exact ⟨row, Keyed.lookup_put_self _ _, hterms⟩
  · exact ⟨r, (Keyed.lookup_put_ne hid).trans hr, rfl⟩

/-- Adding a row whose keys are free. -/
theorem put_fresh {row : PgRow} (hfree : taken table row = false) :
    Grows table (Keyed.put PgRow.requestId table row) := by
  intro id r hr
  by_cases hid : id = row.requestId
  · subst hid
    rw [show lookup table row.requestId = none from
      Keyed.lookup_eq_none.mpr (Keyed.taken_eq_false.mp hfree).1] at hr
    cases hr
  · exact ⟨r, (Keyed.lookup_put_ne hid).trans hr, rfl⟩

end Grows

/-- A row whose keys are free of a table and of another row is free of both together. -/
theorem taken_put {table : Table} {row row' : PgRow} (h : taken table row = false)
    (h' : taken [row'] row = false) : taken (Keyed.put PgRow.requestId table row') row = false := by
  obtain ⟨hkeys, halts⟩ := Keyed.taken_eq_false.mp h
  obtain ⟨hkeys', halts'⟩ := Keyed.taken_eq_false.mp h'
  refine Keyed.taken_eq_false.mpr ⟨fun r hr => ?_, fun r hr => ?_⟩
  · rcases Keyed.mem_put hr with rfl | hr
    · exact hkeys' r (List.mem_singleton_self r)
    · exact hkeys r hr
  · rcases Keyed.mem_put hr with rfl | hr
    · exact halts' r (List.mem_singleton_self r)
    · exact halts r hr

/-- Sharing no key goes both ways. -/
theorem taken_symm {table : Table} {row row' : PgRow} (h : taken table row = false)
    (hrow' : row' ∈ table) : taken [row] row' = false := by
  obtain ⟨hkeys, halts⟩ := Keyed.taken_eq_false.mp h
  refine Keyed.taken_eq_false.mpr ⟨fun r hr => ?_, fun r hr => ?_⟩
  · rw [List.mem_singleton.mp hr]
    exact (hkeys row' hrow').symm
  · rw [List.mem_singleton.mp hr]
    exact (halts row' hrow').symm

/-! ## Invariants of the server -/

structure DbInv (d : Database) : Prop where
  sound : Sound d.committed
  /-- A row is locked by one transaction at most. -/
  exclusive : ∀ {t u tx tx'}, t ≠ u → d.transactions t = some tx → d.transactions u = some tx' →
    ∀ id ∈ tx.locks, id ∉ tx'.locks
  /-- Only committed rows are locked. -/
  held : ∀ {t tx}, d.transactions t = some tx → ∀ id ∈ tx.locks, ∃ row,
    lookup d.committed id = some row
  /-- The keys of an inserted row are not those of a row another transaction has written. -/
  apart : ∀ {t u tx tx'}, t ≠ u → d.transactions t = some tx → d.transactions u = some tx' →
    ∀ row ∈ tx.written, taken d.committed row = false → taken tx'.written row = false

theorem dbInv_empty : DbInv Database.empty where
  sound := sound_nil
  exclusive _ h := by cases h
  held h := by cases h
  apart _ h := by cases h

/-- What a step of another client leaves as it was. -/
structure Keeps (t : Nat) (d d' : Database) : Prop where
  transaction : d'.transactions t = d.transactions t
  begun : d'.begun t = d.begun t
  locked : ∀ {tx}, d.transactions t = some tx → ∀ id ∈ tx.locks,
    lookup d'.committed id = lookup d.committed id
  fresh : ∀ {tx}, d.transactions t = some tx → ∀ row ∈ tx.written,
    taken d.committed row = false → taken d'.committed row = false
  grows : Grows d.committed d'.committed

/-! ## What a client can bring about -/

/-- A transaction whose writes may be published. -/
inductive Publishable (d : Database) (tx : OpenTransaction) : Prop
  | nothing (hw : tx.written = [])
  | replaces {row old : PgRow} (hw : tx.written = [row])
      (hold : lookup d.committed row.requestId = some old) (hterms : row.terms = old.terms)
      (hc : row.checks = true) (hlock : row.requestId ∈ tx.locks)
  | creates {row : PgRow} (hw : tx.written = [row]) (hfree : taken d.committed row = false)
      (hc : row.checks = true)

inductive Change (t : Nat) (d : Database) : Database → Prop
  | same : Change t d d
  | begins (now : Int) : Change t d (d.beginTransaction t now)
  | ends : Change t d (d.setTransaction t none)
  | alters {tx tx' : OpenTransaction} (h : d.transactions t = some tx)
      (hl : tx'.locks = tx.locks) (hw : tx'.written = tx.written) :
      Change t d (d.setTransaction t (some tx'))
  | locks {tx tx' : OpenTransaction} {id : String} {row : PgRow} {log : List ServerEvent}
      (h : d.transactions t = some tx) (hl : tx'.locks = id :: tx.locks)
      (hw : tx'.written = tx.written) (hfree : d.Free t id)
      (hrow : lookup d.committed id = some row) :
      Change t d { d.setTransaction t (some tx') with log := log }
  | inserts {tx tx' : OpenTransaction} {row : PgRow} (h : d.transactions t = some tx)
      (hl : tx'.locks = tx.locks) (hw : tx'.written = [row]) (hu : d.Unopposed t row) :
      Change t d (d.setTransaction t (some tx'))
  | updates {tx tx' : OpenTransaction} {row old : PgRow} (h : d.transactions t = some tx)
      (hl : tx'.locks = row.requestId :: tx.locks) (hw : tx'.written = [row])
      (hfree : d.Free t row.requestId) (hold : lookup d.committed row.requestId = some old)
      (hterms : row.terms = old.terms) : Change t d (d.setTransaction t (some tx'))
  | publishes {tx : OpenTransaction} (h : d.transactions t = some tx) (hp : Publishable d tx) :
      Change t d (d.publish t tx)

namespace Database

@[simp] theorem setTransaction_committed (d : Database) (t : Nat) (tx : Option OpenTransaction) :
    (d.setTransaction t tx).committed = d.committed := rfl

@[simp] theorem setTransaction_begun (d : Database) (t : Nat) (tx : Option OpenTransaction) :
    (d.setTransaction t tx).begun = d.begun := rfl

@[simp] theorem setTransaction_log (d : Database) (t : Nat) (tx : Option OpenTransaction) :
    (d.setTransaction t tx).log = d.log := rfl

@[simp] theorem setTransaction_self (d : Database) (t : Nat) (tx : Option OpenTransaction) :
    (d.setTransaction t tx).transactions t = tx := Function.update_self ..

theorem setTransaction_ne {t u : Nat} (h : u ≠ t) (d : Database) (tx : Option OpenTransaction) :
    (d.setTransaction t tx).transactions u = d.transactions u := Function.update_of_ne h ..

@[simp] theorem publish_committed (d : Database) (t : Nat) (tx : OpenTransaction) :
    (d.publish t tx).committed = tx.view d.committed := rfl

@[simp] theorem publish_begun (d : Database) (t : Nat) (tx : OpenTransaction) :
    (d.publish t tx).begun = d.begun := rfl

@[simp] theorem publish_self (d : Database) (t : Nat) (tx : OpenTransaction) :
    (d.publish t tx).transactions t = none := Function.update_self ..

theorem publish_ne {t u : Nat} (h : u ≠ t) (d : Database) (tx : OpenTransaction) :
    (d.publish t tx).transactions u = d.transactions u := Function.update_of_ne h ..

end Database

theorem OpenTransaction.view_nil {tx : OpenTransaction} (h : tx.written = []) (table : Table) :
    tx.view table = table := by
  rw [view, h]
  rfl

theorem OpenTransaction.view_singleton {tx : OpenTransaction} {row : PgRow}
    (h : tx.written = [row]) (table : Table) :
    tx.view table = Keyed.put PgRow.requestId table row := by
  rw [view, h]
  rfl

namespace Publishable

variable {d : Database} {tx : OpenTransaction}

theorem grows (h : Publishable d tx) : Grows d.committed (tx.view d.committed) := by
  cases h with
  | nothing hw =>
      rw [OpenTransaction.view_nil hw]
      exact Grows.refl _
  | replaces hw hold hterms =>
      rw [OpenTransaction.view_singleton hw]
      exact Grows.put_same hold hterms
  | creates hw hfree =>
      rw [OpenTransaction.view_singleton hw]
      exact Grows.put_fresh hfree

theorem sound (h : Publishable d tx) (hs : Sound d.committed) : Sound (tx.view d.committed) := by
  cases h with
  | nothing hw =>
      rw [OpenTransaction.view_nil hw]
      exact hs
  | replaces hw hold hterms hc =>
      rw [OpenTransaction.view_singleton hw]
      exact hs.put_same hold (PgRow.pair_of_terms hterms) hc
  | creates hw hfree hc =>
      rw [OpenTransaction.view_singleton hw]
      exact hs.put_fresh hfree hc

end Publishable

/-- A step that leaves the committed rows and the other transactions alone keeps what others rely on. -/
theorem keeps_of_local {d d' : Database} {t u : Nat} (hu : u ≠ t)
    (hc : d'.committed = d.committed) (htx : ∀ u, u ≠ t → d'.transactions u = d.transactions u)
    (hb : ∀ u, u ≠ t → d'.begun u = d.begun u) : Keeps u d d' where
  transaction := htx u hu
  begun := hb u hu
  locked _ _ _ := by rw [hc]
  fresh _ _ _ hfree := by rw [hc]; exact hfree
  grows := by rw [hc]; exact Grows.refl _

theorem Change.keeps {t u : Nat} {d d' : Database} (h : Change t d d') (hd : DbInv d)
    (hu : u ≠ t) : Keeps u d d' := by
  have hset : ∀ tx v, v ≠ t → (d.setTransaction t tx).transactions v = d.transactions v :=
    fun tx v hv => Database.setTransaction_ne hv d tx
  cases h with
  | same => exact keeps_of_local hu rfl (fun _ _ => rfl) (fun _ _ => rfl)
  | begins now =>
      exact keeps_of_local hu rfl (fun v hv => Function.update_of_ne hv ..)
        (fun v hv => Function.update_of_ne hv ..)
  | ends => exact keeps_of_local hu rfl (hset _) (fun _ _ => rfl)
  | alters => exact keeps_of_local hu rfl (hset _) (fun _ _ => rfl)
  | locks => exact keeps_of_local hu rfl (hset _) (fun _ _ => rfl)
  | inserts => exact keeps_of_local hu rfl (hset _) (fun _ _ => rfl)
  | updates => exact keeps_of_local hu rfl (hset _) (fun _ _ => rfl)
  | @publishes tx htx hp =>
      refine ⟨Database.publish_ne hu d tx, rfl, ?_, ?_, hp.grows⟩
      · intro txu htxu id hid
        cases hp with
        | nothing hw => rw [Database.publish_committed, OpenTransaction.view_nil hw]
        | @replaces row old hw hold hterms hc hlock =>
            -- the row that changes is locked by the transaction that changes it
            have hne : id ≠ row.requestId := by
              rintro rfl
              exact hd.exclusive hu htxu htx _ hid hlock
            rw [Database.publish_committed, OpenTransaction.view_singleton hw]
            exact Keyed.lookup_put_ne hne
        | @creates row hw hfree hc =>
            -- and a row that is new is not one that is locked
            have hne : id ≠ row.requestId := by
              rintro rfl
              obtain ⟨r, hr⟩ := hd.held htxu _ hid
              exact (Keyed.taken_eq_false.mp hfree).1 r (Keyed.mem_of_lookup hr)
                (requestId_of_lookup hr)
            rw [Database.publish_committed, OpenTransaction.view_singleton hw]
            exact Keyed.lookup_put_ne hne
      · intro txu htxu r hr hfree
        have hapart := hd.apart hu htxu htx r hr hfree
        cases hp with
        | nothing hw =>
            rw [Database.publish_committed, OpenTransaction.view_nil hw]
            exact hfree
        | replaces hw =>
            rw [Database.publish_committed, OpenTransaction.view_singleton hw]
            exact taken_put hfree (hw ▸ hapart)
        | creates hw =>
            rw [Database.publish_committed, OpenTransaction.view_singleton hw]
            exact taken_put hfree (hw ▸ hapart)

/-- What the invariants ask of one transaction, given the others. -/
structure Beside (d : Database) (t : Nat) (tx : OpenTransaction) : Prop where
  held : ∀ id ∈ tx.locks, ∃ row, lookup d.committed id = some row
  exclusive : ∀ {u txu}, u ≠ t → d.transactions u = some txu → ∀ id ∈ tx.locks, id ∉ txu.locks
  apart : ∀ {u txu}, u ≠ t → d.transactions u = some txu → ∀ row ∈ tx.written,
    taken d.committed row = false → taken txu.written row = false
  apart' : ∀ {u txu}, u ≠ t → d.transactions u = some txu → ∀ row ∈ txu.written,
    taken d.committed row = false → taken tx.written row = false

theorem DbInv.beside {d : Database} (hd : DbInv d) {t : Nat} {tx : OpenTransaction}
    (h : d.transactions t = some tx) : Beside d t tx where
  held := hd.held h
  exclusive hu htxu := hd.exclusive (Ne.symm hu) h htxu
  apart hu htxu := hd.apart (Ne.symm hu) h htxu
  apart' hu htxu := hd.apart hu htxu h

/-- A transaction that differs from one that fits in what does not matter fits in. -/
theorem Beside.of_eq {d : Database} {t : Nat} {tx tx' : OpenTransaction} (h : Beside d t tx)
    (hl : tx'.locks = tx.locks) (hw : tx'.written = tx.written) : Beside d t tx' := by
  refine ⟨?_, ?_, ?_, ?_⟩
  · rw [hl]
    exact h.held
  · intro u txu hu htxu
    rw [hl]
    exact h.exclusive hu htxu
  · intro u txu hu htxu
    rw [hw]
    exact h.apart hu htxu
  · intro u txu hu htxu
    rw [hw]
    exact h.apart' hu htxu

/-- Locking a committed row nobody else has locked. -/
theorem Beside.lock {d : Database} {t : Nat} {tx tx' : OpenTransaction} {id : String}
    {row : PgRow} (h : Beside d t tx) (hl : tx'.locks = id :: tx.locks)
    (hw : tx'.written = tx.written) (hfree : d.Free t id)
    (hrow : lookup d.committed id = some row) : Beside d t tx' := by
  refine ⟨?_, ?_, ?_, ?_⟩
  · intro id' hid
    rw [hl] at hid
    -- the row that is locked now, or one from before
    rcases List.mem_cons.mp hid with rfl | hid
    · exact ⟨row, hrow⟩
    · exact h.held id' hid
  · intro u txu hu htxu id' hid
    rw [hl] at hid
    rcases List.mem_cons.mp hid with rfl | hid
    · exact hfree u txu hu htxu
    · exact h.exclusive hu htxu id' hid
  · intro u txu hu htxu
    rw [hw]
    exact h.apart hu htxu
  · intro u txu hu htxu
    rw [hw]
    exact h.apart' hu htxu

/-- Writing a row when nobody else has written one with a key of it. -/
theorem Beside.insert {d : Database} {t : Nat} {tx tx' : OpenTransaction} {row : PgRow}
    (h : Beside d t tx) (hl : tx'.locks = tx.locks) (hw : tx'.written = [row])
    (hu : d.Unopposed t row) : Beside d t tx' := by
  refine ⟨by rw [hl]; exact h.held, ?_, ?_, ?_⟩
  · intro u txu hut htxu
    rw [hl]
    exact h.exclusive hut htxu
  · intro u txu hut htxu r hr hfree
    -- nobody is about to write a row with one of its keys
    rw [hw, List.mem_singleton] at hr
    rw [hr]
    exact hu u txu hut htxu
  · intro u txu hut htxu r hr hfree
    rw [hw]
    exact taken_symm (hu u txu hut htxu) hr

/-- Locking a committed row nobody else has locked, and writing its next version. -/
theorem Beside.update {d : Database} {t : Nat} {tx tx' : OpenTransaction} {row old : PgRow}
    (h : Beside d t tx) (hl : tx'.locks = row.requestId :: tx.locks) (hw : tx'.written = [row])
    (hfree : d.Free t row.requestId) (hold : lookup d.committed row.requestId = some old)
    (hterms : row.terms = old.terms) : Beside d t tx' := by
  have hlocked : Beside d t { tx with locks := row.requestId :: tx.locks } :=
    h.lock rfl rfl hfree hold
  have hmem := Keyed.mem_of_lookup hold
  refine ⟨by rw [hl]; exact hlocked.held, ?_, ?_, ?_⟩
  · intro u txu hut htxu
    rw [hl]
    exact hlocked.exclusive hut htxu
  · intro u txu hut htxu r hr hfree'
    rw [hw, List.mem_singleton] at hr
    -- the row replaces a committed one, so its keys are not free
    exact absurd (requestId_of_lookup hold)
      (hr ▸ (Keyed.taken_eq_false.mp hfree').1 old hmem)
  · intro u txu hut htxu r hr hfree'
    obtain ⟨hkeys, halts⟩ := Keyed.taken_eq_false.mp hfree'
    rw [hw]
    refine Keyed.taken_eq_false.mpr ⟨fun s hs => ?_, fun s hs => ?_⟩
    · rw [List.mem_singleton.mp hs, PgRow.requestId_of_terms hterms]
      exact hkeys old hmem
    · rw [List.mem_singleton.mp hs, PgRow.pair_of_terms hterms]
      exact halts old hmem

/-- The invariants after a step that changes one transaction only. -/
theorem DbInv.of_local {d d' : Database} (hd : DbInv d) {t : Nat}
    (hc : d'.committed = d.committed) (htx : ∀ u, u ≠ t → d'.transactions u = d.transactions u)
    (hnew : ∀ tx, d'.transactions t = some tx → Beside d t tx) : DbInv d' := by
  refine ⟨by rw [hc]; exact hd.sound, ?_, ?_, ?_⟩
  · intro v u txv txu hvu hv hu
    by_cases hvt : v = t
    · subst hvt
      rw [htx u (Ne.symm hvu)] at hu
      exact (hnew txv hv).exclusive (Ne.symm hvu) hu
    · rw [htx v hvt] at hv
      by_cases hut : u = t
      · subst hut
        -- the changed transaction is the second of the two
        exact fun id hid hid' => (hnew txu hu).exclusive hvu hv id hid' hid
      · rw [htx u hut] at hu
        exact hd.exclusive hvu hv hu
  · intro v txv hv
    rw [hc]
    by_cases hvt : v = t
    · subst hvt
      exact (hnew txv hv).held
    · rw [htx v hvt] at hv
      exact hd.held hv
  · intro v u txv txu hvu hv hu
    rw [hc]
    by_cases hvt : v = t
    · subst hvt
      rw [htx u (Ne.symm hvu)] at hu
      exact (hnew txv hv).apart (Ne.symm hvu) hu
    · rw [htx v hvt] at hv
      by_cases hut : u = t
      · subst hut
        exact (hnew txu hu).apart' hvu hv
      · rw [htx u hut] at hu
        exact hd.apart hvu hv hu

/-- The invariants after a transaction has been published. -/
theorem DbInv.publish {d : Database} (hd : DbInv d) {t : Nat} {tx : OpenTransaction}
    (hp : Publishable d tx) : DbInv (d.publish t tx) := by
  -- the transaction is gone, so these are the others', and they were so before
  have hopen : ∀ {u txu}, (d.publish t tx).transactions u = some txu →
      d.transactions u = some txu := by
    intro u txu hu
    by_cases hut : u = t
    · subst hut
      rw [Database.publish_self] at hu
      cases hu
    · rwa [Database.publish_ne hut] at hu
  refine ⟨hp.sound hd.sound, ?_, ?_, ?_⟩
  · intro v u txv txu hvu hv hu
    exact hd.exclusive hvu (hopen hv) (hopen hu)
  · intro v txv hv id hid
    obtain ⟨row, hrow⟩ := hd.held (hopen hv) id hid
    obtain ⟨row', hrow', -⟩ := hp.grows id row hrow
    exact ⟨row', hrow'⟩
  · intro v u txv txu hvu hv hu row hrow hfree
    exact hd.apart hvu (hopen hv) (hopen hu) row hrow (hp.grows.free hd.sound hfree)

theorem Change.dbInv {t : Nat} {d d' : Database} (h : Change t d d') (hd : DbInv d) :
    DbInv d' := by
  -- no other transaction is touched
  have hset : ∀ tx u, u ≠ t → (d.setTransaction t tx).transactions u = d.transactions u :=
    fun tx u hu => Database.setTransaction_ne hu d tx
  have hself : ∀ {tx tx'}, (d.setTransaction t (some tx)).transactions t = some tx' → tx = tx' :=
    fun htx => Option.some.inj ((Database.setTransaction_self ..).symm.trans htx)
  cases h with
  | same => exact hd
  | begins now =>
      refine hd.of_local rfl (fun u hu => Function.update_of_ne hu ..) (fun tx htx => ?_)
      -- a new transaction holds nothing
      change Function.update d.transactions t _ t = some tx at htx
      rw [Function.update_self] at htx
      cases htx
      exact ⟨fun _ h => (by cases h), fun _ _ _ h => (by cases h), fun _ _ _ h => (by cases h),
        fun _ _ _ _ _ => rfl⟩
  | ends =>
      refine hd.of_local rfl (hset _) (fun tx htx => ?_)
      cases (Database.setTransaction_self d t none).symm.trans htx
  | alters htx hl hw =>
      refine hd.of_local rfl (hset _) (fun tx' htx' => ?_)
      cases hself htx'
      exact (hd.beside htx).of_eq hl hw
  | locks htx hl hw hfree hrow =>
      refine hd.of_local rfl (hset _) (fun tx' htx' => ?_)
      cases hself htx'
      exact (hd.beside htx).lock hl hw hfree hrow
  | inserts htx hl hw hu =>
      refine hd.of_local rfl (hset _) (fun tx' htx' => ?_)
      cases hself htx'
      exact (hd.beside htx).insert hl hw hu
  | updates htx hl hw hfree hold hterms =>
      refine hd.of_local rfl (hset _) (fun tx' htx' => ?_)
      cases hself htx'
      exact (hd.beside htx).update hl hw hfree hold hterms
  | publishes htx hp => exact hd.publish hp

end BusinessApproval.Postgres
