import BusinessApproval.Lib.Bounded
import BusinessApproval.Proof.Tables
import Mathlib.Algebra.Order.BigOperators.Group.Finset

/-!
# Going on without failures

What the calls under way come to when no step fails any more and no new call is made:
`Calm` lists the steps that are left. Each of them brings one client nearer to its end, so
there are not many (`Calm.lowers`), and a client that can take none is held up by a lock or
a row of another transaction (`Blocked`).
-/

namespace BusinessApproval.Postgres

open Concurrent

/-! ## Steps that do not fail -/

/-- The statements that are sent in a transaction. -/
def SqlOp.inTransaction : SqlOp → Bool
  | .insert _ => true
  | .selectForUpdate _ => true
  | .selectDue _ => true
  | .update _ _ => true
  | .commit => true
  | _ => false

/--
A step with which nothing fails and no call begins. A client whose transaction has been
rolled back before is told so, and what a client has left open when it returned is closed.
-/
inductive Calm (w : World) : World → Prop
  | serve {t : Nat} {call : Call} {o : SqlOp} {k : SqlRes o → Prog SqlRes Answer} {r : SqlRes o}
      {d : Database} (h : w.clients t = .running call (.call o k)) (hs : Serves t w.shared o r d) :
      Calm w ⟨d, Function.update w.clients t (.running call (k r)), w.history⟩
  | refuse {t : Nat} {call : Call} {o : SqlOp} {k : SqlRes o → Prog SqlRes Answer}
      (h : w.clients t = .running call (.call o k)) (ho : o.inTransaction = true)
      (hnone : w.shared.transactions t = none) (fault : Fault) (clock : Clock) :
      Calm w ⟨w.shared.failed t o,
        Function.update w.clients t (.running call (k (fault.answer clock o))), w.history⟩
  | work {t : Nat} {call : Call} {o : SqlOp} {k : SqlRes o → Prog SqlRes Answer} {d : Database}
      (h : w.clients t = .running call (.call o k)) (hs : Works t w.shared o d) :
      Calm w ⟨d, w.clients, w.history⟩
  | rollback {t : Nat} {call : Call} {a : Answer} {tx : OpenTransaction}
      (h : w.clients t = .finished call a) (htx : w.shared.transactions t = some tx) :
      Calm w ⟨w.shared.setTransaction t none, w.clients, w.history⟩
  | land {t : Nat} {call : Call} {a : Answer} {tx : OpenTransaction}
      (h : w.clients t = .finished call a) (htx : w.shared.transactions t = some tx)
      (hs : tx.submitted = true) : Calm w ⟨w.shared.publish t tx, w.clients, w.history⟩
  | respond {t : Nat} {call : Call} {a : Answer} (h : w.clients t = .running call (.ret a)) :
      Calm w ⟨w.shared, Function.update w.clients t (.finished call a),
        .responded t call a :: w.history⟩

section Waiting

variable {timestamptz : Int → Int} {w w' : World}

theorem Calm.step (h : Calm w w') : Step machine (Call.prog timestamptz) w w' := by
  cases h with
  | serve h hs => exact .answer h (Or.inl hs)
  | refuse h ho hnone fault clock => exact .answer h (Or.inr ⟨fault, clock, rfl, rfl⟩)
  | work h hs => exact .work h hs
  | rollback h htx => exact .move (.rollback htx)
  | land h htx hs => exact .move (.land htx hs)
  | respond h => exact .respond h

theorem Running.calm (hw : Running timestamptz w) (h : Calm w w') : Running timestamptz w' :=
  Reachable.step hw h.step

/-! ## What is left to do -/

theorem Transition.within_write (T : Transition Answer) : T.write.Within 3 := by
  intro r
  match r with
  | .error source => trivial
  | .ok [] => trivial
  | .ok (row :: _) =>
      intro r
      cases r with
      | error e => trivial
      | ok approval =>
          intro r
          cases r <;> trivial

theorem Transition.within_settle (T : Transition Answer) (current : StoredApproval) :
    (T.settle current).Within 4 := by
  unfold Transition.settle
  cases T.refuse current with
  | some failure => trivial
  | none =>
      cases T.deadline with
      | false => exact T.within_write.mono (by decide)
      | true =>
          intro r
          match r with
          | .error source => trivial
          | .ok [] => trivial
          | .ok (false :: _) => trivial
          | .ok (true :: _) => exact T.within_write

theorem Transition.within_start (T : Transition Answer) : T.start.Within 7 := by
  intro r
  cases r with
  | error source => trivial
  | ok u =>
      intro r
      match r with
      | .error source => trivial
      | .ok [] => trivial
      | .ok (row :: _) =>
          intro r
          cases r with
          | error e => trivial
          | ok current => exact T.within_settle current

theorem Creation.within_finish (c : Creation Answer) (name : String) (created : Bool)
    (approval : StoredApproval) : (c.finish name created approval).Within 1 := by
  intro r
  cases r <;> trivial

theorem Creation.within_select (c : Creation Answer) : c.select.Within 3 := by
  intro r
  match r with
  | .error source => trivial
  | .ok [] => trivial
  | .ok (_ :: _ :: _) => trivial
  | .ok [row] =>
      intro r
      cases r with
      | error e => trivial
      | ok approval =>
          change (c.compare approval).Within 1
          unfold Creation.compare
          split
          · trivial
          · exact c.within_finish _ _ _

theorem Creation.within_start (c : Creation Answer) : c.start.Within 5 := by
  intro r
  cases r with
  | error source => trivial
  | ok u =>
      intro r
      match r with
      | .error source => trivial
      | .ok [] => exact c.within_select
      | .ok (row :: _) =>
          intro r
          cases r with
          | error e => trivial
          | ok approval => exact (c.within_finish _ _ _).mono (by decide)

/-- No storage function sends more than seven operations. -/
theorem Call.within (timestamptz : Int → Int) (call : Call) :
    (call.prog timestamptz).Within 7 := by
  cases call.kind with
  | request intent =>
      rw [prog_request]
      exact (Creation.within_start _).mono (by decide)
  | read requestId requester =>
      rw [prog_read]
      intro r
      match r with
      | .error source => trivial
      | .ok [] => trivial
      | .ok (row :: _) =>
          intro r
          cases r <;> trivial
  | @transition _ T hT =>
      rw [hT.prog]
      exact T.within_start

theorem Running.within (hw : Running timestamptz w) (t : Nat) : (w.clients t).Within 7 :=
  Reachable.within (Call.within timestamptz) hw t

/-- What a client still has to lock: all there may be, while it is not known what there is. -/
def locksLeft (d : Database) (t : Nat) : Nat :=
  match (d.transactions t).bind OpenTransaction.locking with
  | some locking => min 3 locking.waiting.length
  | none => 3

/-- How far a client is from its end. -/
noncomputable def stepsLeft (d : Database) (t : Nat) : Status SqlRes Call Answer → Nat
  | .idle => 0
  | .running _ p => 4 * p.depth + locksLeft d t + 2
  | .finished _ _ => if (d.transactions t).isSome then 1 else 0

theorem locksLeft_le (d : Database) (t : Nat) : locksLeft d t ≤ 3 := by
  unfold locksLeft
  split
  · exact Nat.min_le_left _ _
  · exact Nat.le_refl 3

theorem stepsLeft_congr {d d' : Database} {t : Nat}
    (h : d'.transactions t = d.transactions t) (status : Status SqlRes Call Answer) :
    stepsLeft d' t status = stepsLeft d t status := by
  unfold stepsLeft locksLeft
  rw [h]

/-! ## Rows to lock -/

/-- At most two rows share a key with an intent. -/
theorem length_sharesKey_le {table : Table} (hs : Sound table) (intent : RequestIntent) :
    (table.filter (sharesKey intent)).length ≤ 2 := by
  refine Keyed.length_filter_le_two hs.unique (k := intent.requestId)
    (a := (intent.requesterInstance, intent.idempotencyKey)) fun row hrow => ?_
  simp only [sharesKey, Bool.or_eq_true, Bool.and_eq_true, beq_iff_eq] at hrow
  exact hrow.symm.imp id fun h => Prod.ext h.1 h.2

/-- While they are being locked, at most two are left. -/
theorem Creation.Collecting.length_waiting_le {intent : RequestIntent} {table : Table}
    {tx : OpenTransaction} {waiting : List String} {fetched : List PgRow} (hs : Sound table)
    (h : Creation.Collecting intent table tx waiting fetched) : waiting.length ≤ 2 := by
  have hsub : waiting ⊆ (table.filter (sharesKey intent)).map PgRow.requestId := by
    intro id hid
    obtain ⟨row, hrow, hshare⟩ := h.waiting id hid
    exact List.mem_map.mpr ⟨row, List.mem_filter.mpr ⟨Keyed.mem_of_lookup hrow, hshare⟩,
      requestId_of_lookup hrow⟩
  have hle := ((List.nodup_append.mp h.nodup).2.1.subperm hsub).length_le
  rw [List.length_map] at hle
  exact hle.trans (length_sharesKey_le hs intent)

section Stages

variable {d d' : Database} {t : Nat} {call : Call} {promise : Option Answer} {o : SqlOp}
  {k : SqlRes o → Prog SqlRes Answer} {tx : OpenTransaction}

/-- What a `SELECT … FOR UPDATE` has still to lock is not much. -/
structure FewLeft (d : Database) (condition : PgRow → Bool) (tx : OpenTransaction) : Prop where
  found : tx.locking = none → ((tx.view d.committed).filter condition).length ≤ 2
  waiting : ∀ locking, tx.locking = some locking → locking.waiting.length ≤ 2

theorem Transition.At.fewLeft {T : Transition Answer} (hd : DbInv d)
    (h : T.At d t promise (.call o k)) (htx : d.transactions t = some tx)
    {condition : PgRow → Bool} (ho : o = .selectForUpdate condition) :
    FewLeft d condition tx := by
  cases h with
  | lock hb hold =>
      obtain ⟨hreach, -⟩ := hold tx htx
      cases ho
      refine ⟨fun _ => ?_, fun locking hl => ?_⟩
      -- before the fetch: one row at most has the id
      · rw [OpenTransaction.view_nil hreach.written, hd.sound.filter_id]
        cases lookup d.committed T.requestId <;> simp
      · rcases hreach.locking with hnone | ⟨hsome, -⟩
        · cases hl.symm.trans hnone
        · cases hl.symm.trans hsome
          exact Nat.le_succ 1
  | locked hb hc hold =>
      obtain ⟨-, -, hlocking⟩ := hold tx htx
      refine ⟨fun hnone => ?_, fun locking hl => ?_⟩
      · cases hnone.symm.trans hlocking
      · cases hl.symm.trans hlocking
        exact Nat.zero_le 2
  | start | decodeLocked | checkDue | write | decodeWritten | finish => cases ho

theorem Creation.At.fewLeft {intent : RequestIntent} (hd : DbInv d)
    (h : Creation.At timestamptz intent d t promise (.call o k))
    (htx : d.transactions t = some tx) {condition : PgRow → Bool}
    (ho : o = .selectForUpdate condition) : FewLeft d condition tx := by
  cases h with
  | select hb hc hrow hshare hold =>
      obtain ⟨hselect, -⟩ := hold tx htx
      cases ho
      refine ⟨fun _ => ?_, fun locking hl => ?_⟩
      -- one row has the request id, and one the pair
      · rw [OpenTransaction.view_nil hselect.written]
        exact length_sharesKey_le hd.sound intent
      · rcases hselect.locking with hnone | ⟨waiting, fetched, hsome, -, hcollecting⟩
        · cases hl.symm.trans hnone
        · cases hl.symm.trans hsome
          exact hcollecting.length_waiting_le hd.sound
  | selected hne hc hold =>
      obtain ⟨-, hlocking⟩ := hold tx htx
      refine ⟨fun hnone => ?_, fun locking hl => ?_⟩
      · cases hnone.symm.trans hlocking
      · cases hl.symm.trans hlocking
        exact Nat.zero_le 2
  | start | insert | decodeInserted | finishInserted | decodeExisting | finishExisting => cases ho

theorem RunningOk.fewLeft (hd : DbInv d)
    (h : RunningOk timestamptz d t call promise (.call o k)) (htx : d.transactions t = some tx)
    {condition : PgRow → Bool} (ho : o = .selectForUpdate condition) :
    FewLeft d condition tx := by
  cases h with
  | transition hT h => exact h.fewLeft hd htx ho
  | creation h => exact h.fewLeft hd htx ho
  | inspection h =>
      cases h with
      | start => cases ho
      | decodeFound => cases ho

/-- A client that begins a transaction has none. -/
theorem RunningOk.begins (h : RunningOk timestamptz d t call promise (.call o k))
    (ho : o = .begin) : d.transactions t = none := by
  cases h with
  | transition hT h =>
      cases h with
      | start htx => exact htx
      | lock | locked | decodeLocked | checkDue | write | decodeWritten | finish => cases ho
  | creation h =>
      cases h with
      | start htx => exact htx
      | insert | decodeInserted | finishInserted | select | selected | decodeExisting
        | finishExisting => cases ho
  | inspection h =>
      cases h with
      | start => cases ho
      | decodeFound => cases ho

/-! ## Being held up -/

/-- The statement of a client waits for the transaction of another. -/
inductive Blocked (d : Database) (t : Nat) (tx : OpenTransaction) (u : Nat) : SqlOp → Prop
  | insert {row : PgRow} {txu : OpenTransaction} (hu : u ≠ t)
      (htxu : d.transactions u = some txu) (h : taken txu.written row = true) :
      Blocked d t tx u (.insert row)
  | lock {condition : PgRow → Bool} {requestId : String} {rest : List String} {rows : List PgRow}
      {txu : OpenTransaction} (hl : tx.locking = some ⟨requestId :: rest, rows⟩) (hu : u ≠ t)
      (htxu : d.transactions u = some txu) (h : requestId ∈ txu.locks) :
      Blocked d t tx u (.selectForUpdate condition)
  | update {requestId : String} {set : PgRow.Settlement} {txu : OpenTransaction} (hu : u ≠ t)
      (htxu : d.transactions u = some txu) (h : requestId ∈ txu.locks) :
      Blocked d t tx u (.update requestId set)

/-- An operation goes on, has lost its transaction, or waits for another one. -/
inductive Standing (t : Nat) (d : Database) (o : SqlOp) : Prop
  | serves {r : SqlRes o} {d' : Database} (h : Serves t d o r d')
  | works {d' : Database} (h : Works t d o d')
  | lost (ho : o.inTransaction = true) (hnone : d.transactions t = none)
  | blocked {tx : OpenTransaction} {u : Nat} (htx : d.transactions t = some tx)
      (h : Blocked d t tx u o)

theorem standing_insert (htx : d.transactions t = some tx) (row : PgRow) :
    Standing t d (.insert row) := by
  cases hc : row.checks with
  | false => exact .serves (.insertRefused htx hc)
  | true =>
      cases ht : taken (tx.view d.committed) row with
      | true => exact .serves (.insertTaken htx hc ht)
      | false =>
          by_cases hu : d.Unopposed t row
          · exact .serves (.inserted htx hc ht hu)
          · -- somebody else has written a row with one of its keys
            simp only [Database.Unopposed, not_forall, Bool.not_eq_false] at hu
            obtain ⟨u, txu, hne, htxu, htaken⟩ := hu
            exact .blocked htx (.insert hne htxu htaken)

/-- A lock that is not free is held by another transaction. -/
theorem Database.held_of_not_free {requestId : String} (h : ¬ d.Free t requestId) :
    ∃ u txu, u ≠ t ∧ d.transactions u = some txu ∧ requestId ∈ txu.locks := by
  simp only [Database.Free, not_forall, not_not] at h
  obtain ⟨u, txu, hne, htxu, hlock⟩ := h
  exact ⟨u, txu, hne, htxu, hlock⟩

theorem standing_selectForUpdate (htx : d.transactions t = some tx) (condition : PgRow → Bool) :
    Standing t d (.selectForUpdate condition) := by
  match hl : tx.locking with
  | none =>
      -- nothing has been fetched
      by_cases hnone : (tx.view d.committed).filter condition = []
      · exact .serves (.selectNothing htx hl hnone)
      · refine .works (.snapshot htx hl (List.Perm.refl _) fun h => hnone ?_)
        exact List.map_eq_nil_iff.mp h
  | some ⟨[], rows⟩ => exact .serves (.selected htx hl)
  | some ⟨requestId :: rest, rows⟩ =>
      -- the next row is free, or another client has it
      by_cases hfree : d.Free t requestId
      · by_cases hgone : ∀ row, lookup (tx.view d.committed) requestId = some row →
            condition row = false
        · exact .works (.skip htx hl hfree hgone)
        · simp only [not_forall, Bool.not_eq_false] at hgone
          obtain ⟨row, hrow, hcond⟩ := hgone
          exact .works (.lock htx hl hfree hrow hcond)
      · obtain ⟨u, txu, hne, htxu, hlock⟩ := Database.held_of_not_free hfree
        exact .blocked htx (.lock hl hne htxu hlock)

theorem standing_update (htx : d.transactions t = some tx) (requestId : String)
    (set : PgRow.Settlement) : Standing t d (.update requestId set) := by
  cases hrow : lookup (tx.view d.committed) requestId with
  | none => exact .serves (.updateNothing htx hrow)
  | some row =>
      by_cases hfree : d.Free t requestId
      · cases hc : (row.settle set tx.timestamp).checks with
        | false => exact .serves (.updateRefused htx hrow hfree hc)
        | true => exact .serves (.updated htx hrow hfree hc)
      · obtain ⟨u, txu, hne, htxu, hlock⟩ := Database.held_of_not_free hfree
        exact .blocked htx (.update hne htxu hlock)

/-- **Where a client stands** that has an operation to do. -/
theorem RunningOk.standing (h : RunningOk timestamptz d t call promise (.call o k)) :
    Standing t d o := by
  have hopen : o.inTransaction = true → (∀ tx, d.transactions t = some tx → Standing t d o) →
      Standing t d o := by
    intro ho hstanding
    cases htx : d.transactions t with
    -- the server has ended the transaction
    | none => exact .lost ho htx
    | some tx => exact hstanding tx htx
  cases o with
  | nowUtc => exact .serves (.nowUtc 0)
  | begin => exact .serves (.begin 0 (h.begins rfl))
  | insert row => exact hopen rfl fun tx htx => standing_insert htx row
  | selectForUpdate condition =>
      exact hopen rfl fun tx htx => standing_selectForUpdate htx condition
  | select condition => exact .serves (.select condition)
  | selectDue requestId => exact hopen rfl fun tx htx => .serves (.selectDue htx)
  | update requestId set => exact hopen rfl fun tx htx => standing_update htx requestId set
  | decode row => exact .serves (.decode row)
  | commit => exact hopen rfl fun tx htx => .serves (.commit htx)

/-- A transition that is held up holds nothing. -/
theorem Transition.At.blocked {T : Transition Answer} (hd : DbInv d)
    (h : T.At d t promise (.call o k)) (htx : d.transactions t = some tx) {u : Nat}
    (hb : Blocked d t tx u o) : tx.written = [] ∧ tx.locks = [] := by
  cases h with
  | lock hbegun hold =>
      obtain ⟨hreach, -⟩ := hold tx htx
      exact ⟨hreach.written, hreach.locks⟩
  | locked hbegun hc hold =>
      obtain ⟨-, -, hlocking⟩ := hold tx htx
      cases hb with
      | lock hl => cases hl.symm.trans hlocking
  | write hbegun hc hr hold =>
      -- the row is the client's own
      obtain ⟨hlocked, -⟩ := hold tx htx
      cases hb with
      | update hu htxu hlock =>
          exact absurd hlock (hd.exclusive (Ne.symm hu) htx htxu _ hlocked.lock)
  | start | decodeLocked | checkDue | decodeWritten | finish => cases hb

/-- A creation that is held up has written nothing, and holds locks only while it takes others. -/
theorem Creation.At.blocked {intent : RequestIntent}
    (h : Creation.At timestamptz intent d t promise (.call o k))
    (htx : d.transactions t = some tx) {u : Nat} (hb : Blocked d t tx u o) :
    tx.written = [] ∧ (tx.locks = [] ∨ o = .selectForUpdate (sharesKey intent)) := by
  cases h with
  | insert hbegun hold =>
      obtain ⟨hfresh, -⟩ := hold tx htx
      exact ⟨hfresh.written, Or.inl hfresh.locks⟩
  | select hbegun hc hrow hshare hold =>
      obtain ⟨hselect, -⟩ := hold tx htx
      exact ⟨hselect.written, Or.inr rfl⟩
  | selected hne hc hold =>
      obtain ⟨-, hlocking⟩ := hold tx htx
      -- it has all it has fetched, and waits for nobody
      cases hb with
      | lock hl => cases hl.symm.trans hlocking
  | start | decodeInserted | finishInserted | decodeExisting | finishExisting => cases hb

/-- **What a client holds that is held up**: locks of rows that a creation shares a key with. -/
theorem RunningOk.blocked (hd : DbInv d)
    (h : RunningOk timestamptz d t call promise (.call o k)) (htx : d.transactions t = some tx)
    {u : Nat} (hb : Blocked d t tx u o) : tx.written = [] ∧ (tx.locks = []
      ∨ ∃ intent, call = .request intent ∧ o = .selectForUpdate (sharesKey intent)) := by
  cases h with
  | transition hT h =>
      obtain ⟨hw, hl⟩ := h.blocked hd htx hb
      exact ⟨hw, Or.inl hl⟩
  | @creation intent _ _ h =>
      obtain ⟨hw, hl⟩ := h.blocked htx hb
      exact ⟨hw, hl.imp id fun ho => ⟨intent, rfl, ho⟩⟩
  | inspection h =>
      cases h with
      | start => cases hb
      | decodeFound => cases hb

end Stages

/-! ## Every step counts -/

section Steps

variable {d d' : Database} {t u : Nat} {call : Call} {promise : Option Answer} {o : SqlOp}
  {k : SqlRes o → Prog SqlRes Answer}

/-- A client that is answered is nearer to its end, whatever becomes of its locks. -/
theorem stepsLeft_answer {n : Nat} (hwithin : (Prog.call o k).Within n) (r : SqlRes o) :
    stepsLeft d' t (.running call (k r)) < stepsLeft d t (.running call (.call o k)) := by
  have hdepth := hwithin.depth_lt r
  have hlocks := locksLeft_le d' t
  simp only [stepsLeft]
  omega

theorem stepsLeft_respond (a : Answer) :
    stepsLeft d t (.finished call a) < stepsLeft d t (.running call (.ret a)) := by
  simp only [stepsLeft]
  split <;> omega

/-- A `SELECT … FOR UPDATE` that gets on has less left to lock. -/
theorem Works.locksLeft_lt (hd : DbInv d)
    (h : RunningOk timestamptz d t call promise (.call o k)) (hs : Works t d o d') :
    locksLeft d' t < locksLeft d t := by
  have hset : ∀ {tx : OpenTransaction} {locking : Locking},
      tx.locking = some locking →
      locksLeft (d.setTransaction t (some tx)) t = min 3 locking.waiting.length := by
    intro tx locking hl
    simp only [locksLeft, Database.setTransaction_self, Option.bind_some, hl]
  cases hs with
  | @snapshot condition tx waiting htx hl hw hsome =>
      -- what has been fetched is locked next
      have hfew := (h.fewLeft hd htx rfl).found hl
      have hlength : waiting.length ≤ 2 := by rwa [hw.length_eq, List.length_map]
      have hbefore : locksLeft d t = 3 := by simp only [locksLeft, htx, Option.bind_some, hl]
      rw [hset rfl, hbefore]
      change min 3 waiting.length < 3
      omega
  | @lock condition tx requestId rest rows row htx hl hfree hrow hcond =>
      -- one row fewer is waiting
      have hfew := (h.fewLeft hd htx rfl).waiting _ hl
      have hbefore : locksLeft d t = min 3 (requestId :: rest).length := by
        simp only [locksLeft, htx, Option.bind_some, hl]
      rw [hbefore]
      refine (hset rfl).trans_lt ?_
      simp only [List.length_cons] at hfew ⊢
      omega
  | @skip condition tx requestId rest rows htx hl hfree hgone =>
      -- a row that is gone is not waited for
      have hfew := (h.fewLeft hd htx rfl).waiting _ hl
      have hbefore : locksLeft d t = min 3 (requestId :: rest).length := by
        simp only [locksLeft, htx, Option.bind_some, hl]
      rw [hset rfl, hbefore]
      simp only [List.length_cons] at hfew ⊢
      omega

theorem Works.stepsLeft_lt (hd : DbInv d)
    (h : RunningOk timestamptz d t call promise (.call o k)) (hs : Works t d o d') :
    stepsLeft d' t (.running call (.call o k)) < stepsLeft d t (.running call (.call o k)) := by
  have hlt := hs.locksLeft_lt hd h
  simp only [stepsLeft]
  omega

end Steps

/-- How far all clients are from their ends. -/
noncomputable def allLeft (clients : Finset Nat) (w : World) : Nat :=
  ∑ t ∈ clients, stepsLeft w.shared t (w.clients t)

/-- **A step with which nothing fails brings one client nearer to its end.** -/
theorem Calm.lowers (hw : Running timestamptz w) (h : Calm w w') :
    ∃ t call, (w.clients t).call = some call
      ∧ stepsLeft w'.shared t (w'.clients t) < stepsLeft w.shared t (w.clients t)
      ∧ ∀ u, u ≠ t → stepsLeft w'.shared u (w'.clients u)
        = stepsLeft w.shared u (w.clients u) := by
  obtain ⟨order, hinv⟩ := hw.inv
  have hrunning : ∀ {t call p}, w.clients t = .running call p →
      RunningOk timestamptz w.shared t call (answerIn (serially timestamptz) [] order t) p := by
    intro t call p hstatus
    have hclient := hinv.clients t
    rw [hstatus] at hclient
    cases hclient with
    | running hf h => exact h
  -- a call has few operations left
  have hwithin : ∀ {t call p}, w.clients t = .running call p → p.Within 7 := by
    intro t call p hstatus
    have hclient := hw.within t
    rw [hstatus] at hclient
    exact hclient
  -- the client that takes the step is nearer to its end, and no other is touched
  have hself : ∀ {t : Nat} {d : Database} {status : Status SqlRes Call Answer},
      stepsLeft d t status < stepsLeft w.shared t (w.clients t) →
      stepsLeft d t (Function.update w.clients t status t)
        < stepsLeft w.shared t (w.clients t) := by
    intro t d status hlt
    rwa [Function.update_self]
  have hothers : ∀ {t u : Nat} {d : Database} {status : Status SqlRes Call Answer}, u ≠ t →
      d.transactions u = w.shared.transactions u →
      stepsLeft d u (Function.update w.clients t status u)
        = stepsLeft w.shared u (w.clients u) := by
    intro t u d status hu htx
    rw [Function.update_of_ne hu]
    exact stepsLeft_congr htx _
  cases h with
  | @serve t call o k r d h hs =>
      obtain ⟨promise', hp, -⟩ := (hrunning h).serve hinv.db hs
      refine ⟨t, call, by rw [h]; rfl, hself ?_, fun u hu =>
        hothers hu (hp.change.keeps hinv.db hu).transaction⟩
      rw [h]
      exact stepsLeft_answer (hwithin h) r
  | @refuse t call o k h ho hnone fault clock =>
      refine ⟨t, call, by rw [h]; rfl, hself ?_, fun u hu =>
        hothers hu ((failed_change (t := t) o).keeps hinv.db hu).transaction⟩
      rw [h]
      exact stepsLeft_answer (hwithin h) _
  | @work t call o k d h hs =>
      obtain ⟨promise', hp, -⟩ := (hrunning h).work hinv.db hs
      refine ⟨t, call, by rw [h]; rfl, ?_, fun u hu =>
        stepsLeft_congr (hp.change.keeps hinv.db hu).transaction _⟩
      rw [h]
      exact hs.stepsLeft_lt hinv.db (hrunning h)
  | @rollback t call a tx h htx =>
      refine ⟨t, call, by rw [h]; rfl, ?_, fun u hu =>
        stepsLeft_congr (Database.setTransaction_ne hu _ _) _⟩
      rw [h]
      simp [stepsLeft, htx]
  | @land t call a tx h htx hs =>
      refine ⟨t, call, by rw [h]; rfl, ?_, fun u hu =>
        stepsLeft_congr (Database.publish_ne hu _ _) _⟩
      rw [h]
      simp [stepsLeft, htx]
  | @respond t call a h =>
      refine ⟨t, call, by rw [h]; rfl, hself ?_, fun u hu => hothers hu rfl⟩
      rw [h]
      exact stepsLeft_respond a

/-- No call is made and none is taken back. -/
theorem Calm.calls (h : Calm w w') :
    (fun t => (w'.clients t).call) = fun t => (w.clients t).call := by
  cases h with
  | serve h => exact call_update_same (by rw [h]; rfl)
  | refuse h => exact call_update_same (by rw [h]; rfl)
  | work | rollback | land => rfl
  | respond h => exact call_update_same (by rw [h]; rfl)

/-- The clients in a finite set are all that have been called. -/
def CalledIn (clients : Finset Nat) (w : World) : Prop :=
  ∀ t call, (w.clients t).call = some call → t ∈ clients

theorem Calm.allLeft_lt (hw : Running timestamptz w) {clients : Finset Nat}
    (hclients : CalledIn clients w) (h : Calm w w') :
    (Running timestamptz w' ∧ CalledIn clients w') ∧ allLeft clients w' < allLeft clients w := by
  refine ⟨⟨hw.calm h, fun t call hcall => hclients t call ?_⟩, ?_⟩
  · exact (congrFun h.calls t).symm.trans hcall
  · obtain ⟨t, call, hcall, hlt, hsame⟩ := h.lowers hw
    refine Finset.sum_lt_sum (fun u _ => ?_) ⟨t, hclients t call hcall, hlt⟩
    by_cases hu : u = t
    · exact hu ▸ hlt.le
    · exact (hsame u hu).le

/-- The clients of the calls that have been made, the newest first. -/
def World.called (w : World) : List Nat := w.history.filterMap Event.called

theorem World.calledIn (hw : Running timestamptz w) : ∃ clients : Finset Nat,
    CalledIn clients w ∧ clients.card ≤ w.called.length := by
  refine ⟨w.called.toFinset, fun t call hcall => ?_, List.toFinset_card_le _⟩
  rw [List.mem_toFinset]
  exact List.mem_filterMap.mpr ⟨_, (Reachable.recorded hw).invoked t call |>.mpr hcall, rfl⟩

theorem allLeft_le (hw : Running timestamptz w) (clients : Finset Nat) :
    allLeft clients w ≤ 33 * clients.card := by
  rw [mul_comm]
  refine Finset.sum_le_card_nsmul clients _ 33 fun t _ => ?_
  have hwithin := hw.within t
  have hlocks := locksLeft_le w.shared t
  cases hstatus : w.clients t with
  | idle => exact Nat.zero_le _
  | running call p =>
      rw [hstatus] at hwithin
      have hdepth : p.depth ≤ 7 := Prog.Within.depth_le hwithin
      simp only [stepsLeft]
      omega
  | finished call a =>
      simp only [stepsLeft]
      split <;> omega

end Waiting

end BusinessApproval.Postgres
