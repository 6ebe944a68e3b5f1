import BusinessApproval.Proof.Server
import BusinessApproval.Proof.Faults

/-!
# Clients of the server, stage by stage

Where a client is in its storage function, and what it relies on there. Once a
client's call has been linearized it has a `promise`: the answer it gets in the
order. From there on it returns that answer or an error of the database.

A transition is promised its refusal when it has locked the row, and its success
when it commits; a creation is promised its conflict or repetition when it has
locked the last row that shares a key, and its success when it commits. Each `At`
lists the stages of one of the programs, and its `serve` and `work` theorems say
what a step of the client does at each of them.
-/

namespace BusinessApproval.Postgres

/-! ## What a client holds -/

/-- What is true of a client's transaction, unless it has been rolled back. -/
def Holding (d : Database) (t : Nat) (P : OpenTransaction → Prop) : Prop :=
  ∀ tx, d.transactions t = some tx → P tx

/-- A transaction that has begun and done nothing. -/
structure OpenTransaction.Fresh (tx : OpenTransaction) : Prop where
  locks : tx.locks = []
  written : tx.written = []
  locking : tx.locking = none
  submitted : tx.submitted = false

/-- What a transaction has written is what its call has to write. -/
inductive Backed (timestamptz : Int → Int) (d : Database) (t : Nat) (call : Call)
    (promise : Option Answer) (tx : OpenTransaction) : Prop
  | nothing (hw : tx.written = [])
  | settles {T : Transition Answer} {row : PgRow} (hT : T.Performs call) (hp : promise = none)
      (hb : d.begun t = some tx.timestamp) (hlock : T.requestId ∈ tx.locks)
      (hrow : lookup d.committed T.requestId = some row)
      (hr : T.refusal tx.timestamp row = none)
      (hc : (row.settle T.set tx.timestamp).checks = true)
      (hw : tx.written = [row.settle T.set tx.timestamp])
  | creates {intent : RequestIntent} (hcall : call = .request intent) (hp : promise = none)
      (hb : d.begun t = some tx.timestamp)
      (hc : (PgRow.ofIntent timestamptz intent).checks = true)
      (hfree : taken d.committed (.ofIntent timestamptz intent) = false)
      (hw : tx.written = [.ofIntent timestamptz intent])

/-- The answer of a client that has been promised one, or has failed. -/
def EndsWith (promise : Option Answer) (a : Answer) : Prop :=
  (∃ name source, a = .error (.database name source)) ∨ promise = some a

namespace Transition

variable (T : Transition Answer)

/-- Before the row is locked. -/
structure Reaching (d : Database) (tx : OpenTransaction) : Prop where
  locks : tx.locks = []
  written : tx.written = []
  submitted : tx.submitted = false
  locking : tx.locking = none
    ∨ tx.locking = some ⟨[T.requestId], []⟩ ∧ ∃ row, lookup d.committed T.requestId = some row

/-- The row is locked, and is as it was fetched. -/
structure Locked (d : Database) (row : PgRow) (tx : OpenTransaction) : Prop where
  written : tx.written = []
  submitted : tx.submitted = false
  lock : T.requestId ∈ tx.locks
  row : lookup d.committed T.requestId = some row

/-- The row is locked, and its next version written. -/
structure Wrote (d : Database) (now : Int) (row : PgRow) (tx : OpenTransaction) : Prop where
  written : tx.written = [row.settle T.set now]
  timestamp : tx.timestamp = now
  submitted : tx.submitted = false
  lock : T.requestId ∈ tx.locks
  row : lookup d.committed T.requestId = some row

/-- What is promised when the row is locked: its refusal, if it is refused. -/
def promised (now : Int) (row : PgRow) : Option Answer :=
  (T.refusal now row).map fun failure => .ok (.error failure)

/-- Where a client is in a transition. -/
inductive At (d : Database) (t : Nat) : Option Answer → Prog SqlRes Answer → Prop
  | start (htx : d.transactions t = none) : At d t none T.start
  | lock {now : Int} (hb : d.begun t = some now)
      (htx : Holding d t fun tx => T.Reaching d tx ∧ tx.timestamp = now) : At d t none T.lock
  | locked {now : Int} {row : PgRow} (hb : d.begun t = some now) (hc : row.checks = true)
      (htx : Holding d t fun tx => T.Locked d row tx ∧ tx.timestamp = now
        ∧ tx.locking = some ⟨[], [row]⟩) : At d t (T.promised now row) T.lock
  | decodeLocked {now : Int} {row : PgRow} (hb : d.begun t = some now) (hc : row.checks = true)
      (htx : Holding d t fun tx => T.Locked d row tx ∧ tx.timestamp = now) :
      At d t (T.promised now row) (T.decodeLocked row)
  | checkDue {now : Int} {row : PgRow} (hb : d.begun t = some now) (hc : row.checks = true)
      (hrefuse : T.refuse row.record = none) (hdeadline : T.deadline = true)
      (htx : Holding d t fun tx => T.Locked d row tx ∧ tx.timestamp = now) :
      At d t (T.promised now row) T.checkDue
  | write {now : Int} {row : PgRow} (hb : d.begun t = some now) (hc : row.checks = true)
      (hr : T.refusal now row = none)
      (htx : Holding d t fun tx => T.Locked d row tx ∧ tx.timestamp = now) : At d t none T.write
  | decodeWritten {now : Int} {row : PgRow} (hb : d.begun t = some now)
      (hr : T.refusal now row = none) (hc : (row.settle T.set now).checks = true)
      (htx : Holding d t (T.Wrote d now row)) :
      At d t none (T.decodeWritten (row.settle T.set now))
  | finish {now : Int} {row : PgRow} (hb : d.begun t = some now)
      (hr : T.refusal now row = none) (hc : (row.settle T.set now).checks = true)
      (htx : Holding d t (T.Wrote d now row)) :
      At d t none (T.finish (row.settle T.set now).record)

end Transition

namespace Creation

/-- The rows that share a key with an intent, some of them locked and the others still to be. -/
structure Collecting (intent : RequestIntent) (table : Table) (tx : OpenTransaction)
    (waiting : List String) (fetched : List PgRow) : Prop where
  nodup : (fetched.map PgRow.requestId ++ waiting).Nodup
  waiting : ∀ id ∈ waiting, ∃ row, lookup table id = some row
    ∧ sharesKey intent row = true
  fetched : ∀ row ∈ fetched, row.requestId ∈ tx.locks
    ∧ lookup table row.requestId = some row ∧ sharesKey intent row = true

/-- While the rows that share a key are being locked. -/
structure Selecting (intent : RequestIntent) (table : Table) (tx : OpenTransaction) : Prop where
  written : tx.written = []
  submitted : tx.submitted = false
  locking : tx.locking = none ∨ ∃ waiting fetched, tx.locking = some ⟨waiting, fetched⟩
    ∧ waiting ≠ [] ∧ Collecting intent table tx waiting fetched

/-- The new row is written. -/
structure Inserted (row : PgRow) (d : Database) (now : Int) (tx : OpenTransaction) : Prop where
  written : tx.written = [row]
  timestamp : tx.timestamp = now
  submitted : tx.submitted = false
  free : taken d.committed row = false

/-- Nothing is written. -/
structure Reading (tx : OpenTransaction) : Prop where
  written : tx.written = []
  submitted : tx.submitted = false

variable (timestamptz : Int → Int) (intent : RequestIntent)

/-- Where a client is in a creation. -/
inductive At (d : Database) (t : Nat) : Option Answer → Prog SqlRes Answer → Prop
  | start (htx : d.transactions t = none) : At d t none (Creation.ofIntent timestamptz intent).start
  | insert {now : Int} (hb : d.begun t = some now)
      (htx : Holding d t fun tx => tx.Fresh ∧ tx.timestamp = now) :
      At d t none (Creation.ofIntent timestamptz intent).insert
  | decodeInserted {now : Int} (hb : d.begun t = some now)
      (hc : (PgRow.ofIntent timestamptz intent).checks = true)
      (htx : Holding d t (Inserted (.ofIntent timestamptz intent) d now)) :
      At d t none ((Creation.ofIntent timestamptz intent).decodeInserted
        (.ofIntent timestamptz intent))
  | finishInserted {now : Int} (hb : d.begun t = some now)
      (hc : (PgRow.ofIntent timestamptz intent).checks = true)
      (htx : Holding d t (Inserted (.ofIntent timestamptz intent) d now)) :
      At d t none ((Creation.ofIntent timestamptz intent).finish "commit request creation" true
        (PgRow.ofIntent timestamptz intent).record)
  | select {now : Int} {row : PgRow} (hb : d.begun t = some now)
      (hc : (PgRow.ofIntent timestamptz intent).checks = true) (hrow : row ∈ d.committed)
      (hshare : sharesKey intent row = true)
      (htx : Holding d t fun tx => Selecting intent d.committed tx ∧ tx.timestamp = now) :
      At d t none (Creation.ofIntent timestamptz intent).select
  | selected {rows : List PgRow} (hne : rows ≠ []) (hc : ∀ row ∈ rows, row.checks = true)
      (htx : Holding d t fun tx => Reading tx ∧ tx.locking = some ⟨[], rows⟩) :
      At d t (some (outcomeAnswer (.ok (resolveRows intent rows))))
        (Creation.ofIntent timestamptz intent).select
  | decodeExisting {row : PgRow} (hc : row.checks = true) (htx : Holding d t Reading) :
      At d t (some (outcomeAnswer (.ok (resolveRows intent [row]))))
        ((Creation.ofIntent timestamptz intent).decodeExisting row)
  | finishExisting {approval : StoredApproval} (htx : Holding d t Reading) :
      At d t (some (.ok (.ok (.outcome ⟨false, approval⟩))))
        ((Creation.ofIntent timestamptz intent).finish "commit idempotent request" false approval)

end Creation

/-- Where a client is in a read. -/
inductive Inspection.At (i : Inspection Answer) (d : Database) (t : Nat) :
    Option Answer → Prog SqlRes Answer → Prop
  | start (htx : d.transactions t = none) : At i d t none i.start
  | decodeFound {row : PgRow} (hc : row.checks = true) (htx : d.transactions t = none) :
      At i d t (some (foundAnswer (.ok (some row.record)))) (i.decodeFound row)

/-- Where a client is that has been called and has not returned. -/
inductive RunningOk (timestamptz : Int → Int) (d : Database) (t : Nat) :
    Call → Option Answer → Prog SqlRes Answer → Prop
  | transition {call : Call} {T : Transition Answer} {promise : Option Answer}
      {p : Prog SqlRes Answer} (hT : T.Performs call) (h : T.At d t promise p) :
      RunningOk timestamptz d t call promise p
  | creation {intent : RequestIntent} {promise : Option Answer} {p : Prog SqlRes Answer}
      (h : Creation.At timestamptz intent d t promise p) :
      RunningOk timestamptz d t (.request intent) promise p
  | inspection {requestId : String} {requester : Option String} {promise : Option Answer}
      {p : Prog SqlRes Answer} (h : (Inspection.ofRead requestId requester).At d t promise p) :
      RunningOk timestamptz d t (.read requestId requester) promise p
  | ended {call : Call} {promise : Option Answer} {a : Answer} (h : EndsWith promise a)
      (htx : Holding d t (Backed timestamptz d t call promise)) :
      RunningOk timestamptz d t call promise (.ret a)

/-- A call that is made finds its client without a transaction. -/
theorem RunningOk.begin (timestamptz : Int → Int) {d : Database} {t : Nat} (call : Call)
    (htx : d.transactions t = none) :
    RunningOk timestamptz d t call none (call.prog timestamptz) := by
  cases call.kind with
  | request intent =>
      rw [prog_request]
      exact .creation (.start htx)
  | read requestId requester =>
      rw [prog_read]
      exact .inspection (.start htx)
  | transition hT =>
      rw [hT.prog]
      exact .transition hT (.start htx)

/-! ## What a step brings about -/

/-- The effect of a step on the order of the calls: none, or the client's call is its next. -/
inductive Effect (timestamptz : Int → Int) (call : Call) (d d' : Database) (t : Nat) :
    Option Answer → Option Answer → Prop
  | quiet {promise : Option Answer} (hc : d'.committed = d.committed) :
      Effect timestamptz call d d' t promise promise
  | point {a : Answer} (now : Int) (hb : call.writes = true → d'.begun t = some now)
      (ha : call.alone timestamptz ⟨0, now⟩ d.committed = (a, d'.committed)) :
      Effect timestamptz call d d' t none (some a)

/-- What a step adds to the log. -/
inductive Logged (timestamptz : Int → Int) (call : Call) (d d' : Database) (t : Nat)
    (promise : Option Answer) : Prop
  | silent (h : d'.log = d.log) (hc : d'.committed = d.committed)
  | locked {id : String} (h : d'.log = .locked t id :: d.log) (hc : d'.committed = d.committed)
      (hset : ∀ id' set, call.settles = some (id', set) → id' = id ∧ ∃ row,
        lookup d.committed id = some row ∧ (row.record.status ≠ .pending →
          promise = some (.ok (.error (call.refusedBy row.record)))))
  | settled {id : String} {set : PgRow.Settlement} {old : PgRow} {now : Int}
      (hset : call.settles = some (id, set)) (hold : lookup d.committed id = some old)
      (hp : old.status = "pending") (hb : d'.begun t = some now)
      (h : d'.log = .committed t [old.settle set now] :: d.log)
      (hc : d'.committed = Keyed.put PgRow.requestId d.committed (old.settle set now))
      (ha : promise = some (.ok (.ok (.settled (old.settle set now).record))))
  | created {intent : RequestIntent} (hcall : call = .request intent)
      (hfree : taken d.committed (.ofIntent timestamptz intent) = false)
      (h : d'.log = .committed t [.ofIntent timestamptz intent] :: d.log)
      (hc : d'.committed = Keyed.put PgRow.requestId d.committed (.ofIntent timestamptz intent))
      (ha : promise
        = some (.ok (.ok (.outcome ⟨true, (PgRow.ofIntent timestamptz intent).record⟩))))

/-- What a step of a client comes to. -/
structure Progress (timestamptz : Int → Int) (call : Call) (d d' : Database) (t : Nat)
    (promise promise' : Option Answer) : Prop where
  change : Change t d d'
  effect : Effect timestamptz call d d' t promise promise'
  logged : Logged timestamptz call d d' t promise'
  begun : promise = none ∨ d'.begun t = d.begun t

/-- A step that leaves the committed rows as they are, and the promise, and adds nothing to the log. -/
theorem Progress.quiet {timestamptz : Int → Int} {call : Call} {d d' : Database} {t : Nat}
    {promise : Option Answer} (h : Change t d d') (hc : d'.committed = d.committed)
    (hl : d'.log = d.log) (hb : promise = none ∨ d'.begun t = d.begun t) :
    Progress timestamptz call d d' t promise promise :=
  ⟨h, .quiet hc, .silent hl hc, hb⟩

/-- A step after which the call is done, with an answer and no effect on the table. -/
theorem Progress.answered {timestamptz : Int → Int} {call : Call} {d d' : Database} {t : Nat}
    {a : Answer} (h : Change t d d') (hc : d'.committed = d.committed) (hl : d'.log = d.log)
    (now : Int) (hb : call.writes = true → d'.begun t = some now)
    (ha : call.alone timestamptz ⟨0, now⟩ d.committed = (a, d.committed)) :
    Progress timestamptz call d d' t none (some a) :=
  ⟨h, .point now hb (by rw [hc]; exact ha), .silent hl hc, Or.inl rfl⟩

/-! ## Steps of the others -/

section Others

variable {timestamptz : Int → Int} {d d' : Database} {t : Nat}

theorem Holding.keeps {P Q : OpenTransaction → Prop} (h : Holding d t P) (hk : Keeps t d d')
    (hPQ : ∀ tx, d.transactions t = some tx → P tx → Q tx) : Holding d' t Q := by
  intro tx htx
  rw [hk.transaction] at htx
  exact hPQ tx htx (h tx htx)

theorem Backed.keeps {call : Call} {promise : Option Answer} {tx : OpenTransaction}
    (h : Backed timestamptz d t call promise tx) (hk : Keeps t d d')
    (htx : d.transactions t = some tx) : Backed timestamptz d' t call promise tx := by
  cases h with
  | nothing hw => exact .nothing hw
  | settles hT hp hb hlock hrow hr hc hw =>
      exact .settles hT hp (hk.begun.trans hb) hlock ((hk.locked htx _ hlock).trans hrow) hr hc hw
  | creates hcall hp hb hc hfree hw =>
      have hmem : PgRow.ofIntent timestamptz _ ∈ tx.written := hw ▸ List.mem_singleton_self _
      exact .creates hcall hp (hk.begun.trans hb) hc (hk.fresh htx _ hmem hfree) hw

namespace Transition

variable {T : Transition Answer}

theorem Reaching.keeps {tx : OpenTransaction} (h : T.Reaching d tx) (hk : Keeps t d d') :
    T.Reaching d' tx := by
  refine ⟨h.locks, h.written, h.submitted, ?_⟩
  rcases h.locking with hnone | ⟨hlocking, row, hrow⟩
  · exact Or.inl hnone
  · obtain ⟨row', hrow', -⟩ := hk.grows _ _ hrow
    exact Or.inr ⟨hlocking, row', hrow'⟩

theorem Locked.keeps {tx : OpenTransaction} {row : PgRow} (h : T.Locked d row tx)
    (hk : Keeps t d d') (htx : d.transactions t = some tx) : T.Locked d' row tx :=
  ⟨h.written, h.submitted, h.lock, (hk.locked htx _ h.lock).trans h.row⟩

theorem Wrote.keeps {tx : OpenTransaction} {now : Int} {row : PgRow} (h : T.Wrote d now row tx)
    (hk : Keeps t d d') (htx : d.transactions t = some tx) : T.Wrote d' now row tx :=
  ⟨h.written, h.timestamp, h.submitted, h.lock, (hk.locked htx _ h.lock).trans h.row⟩

theorem At.keeps {promise : Option Answer} {p : Prog SqlRes Answer} (h : T.At d t promise p)
    (hk : Keeps t d d') : T.At d' t promise p := by
  cases h with
  | start htx => exact .start (hk.transaction.trans htx)
  | lock hb htx =>
      exact .lock (hk.begun.trans hb) (htx.keeps hk fun _ _ h => ⟨h.1.keeps hk, h.2⟩)
  | locked hb hc htx =>
      exact .locked (hk.begun.trans hb) hc
        (htx.keeps hk fun _ htx h => ⟨h.1.keeps hk htx, h.2⟩)
  | decodeLocked hb hc htx =>
      exact .decodeLocked (hk.begun.trans hb) hc
        (htx.keeps hk fun _ htx h => ⟨h.1.keeps hk htx, h.2⟩)
  | checkDue hb hc hrefuse hdeadline htx =>
      exact .checkDue (hk.begun.trans hb) hc hrefuse hdeadline
        (htx.keeps hk fun _ htx h => ⟨h.1.keeps hk htx, h.2⟩)
  | write hb hc hr htx =>
      exact .write (hk.begun.trans hb) hc hr
        (htx.keeps hk fun _ htx h => ⟨h.1.keeps hk htx, h.2⟩)
  | decodeWritten hb hr hc htx =>
      exact .decodeWritten (hk.begun.trans hb) hr hc (htx.keeps hk fun _ htx h => h.keeps hk htx)
  | finish hb hr hc htx =>
      exact .finish (hk.begun.trans hb) hr hc (htx.keeps hk fun _ htx h => h.keeps hk htx)

end Transition

namespace Creation

variable {intent : RequestIntent}

theorem Collecting.keeps {tx : OpenTransaction} {waiting : List String} {fetched : List PgRow}
    (h : Collecting intent d.committed tx waiting fetched) (hk : Keeps t d d')
    (htx : d.transactions t = some tx) : Collecting intent d'.committed tx waiting fetched where
  nodup := h.nodup
  waiting id hid := by
    obtain ⟨row, hrow, hshare⟩ := h.waiting id hid
    obtain ⟨row', hrow', hterms⟩ := hk.grows id row hrow
    exact ⟨row', hrow', (PgRow.sharesKey_of_terms hterms intent).trans hshare⟩
  fetched row hrow := by
    obtain ⟨hlock, hlook, hshare⟩ := h.fetched row hrow
    exact ⟨hlock, (hk.locked htx _ hlock).trans hlook, hshare⟩

theorem Selecting.keeps {tx : OpenTransaction} (h : Selecting intent d.committed tx)
    (hk : Keeps t d d') (htx : d.transactions t = some tx) :
    Selecting intent d'.committed tx := by
  refine ⟨h.written, h.submitted, ?_⟩
  rcases h.locking with hnone | ⟨waiting, fetched, hlocking, hne, hcollecting⟩
  · exact Or.inl hnone
  · exact Or.inr ⟨waiting, fetched, hlocking, hne, hcollecting.keeps hk htx⟩

theorem Inserted.keeps {tx : OpenTransaction} {row : PgRow} {now : Int}
    (h : Inserted row d now tx) (hk : Keeps t d d') (htx : d.transactions t = some tx) :
    Inserted row d' now tx :=
  ⟨h.written, h.timestamp, h.submitted,
    hk.fresh htx row (h.written ▸ List.mem_singleton_self row) h.free⟩

theorem At.keeps {promise : Option Answer} {p : Prog SqlRes Answer}
    (h : Creation.At timestamptz intent d t promise p) (hk : Keeps t d d') (hd : DbInv d) :
    Creation.At timestamptz intent d' t promise p := by
  cases h with
  | start htx => exact .start (hk.transaction.trans htx)
  | insert hb htx => exact .insert (hk.begun.trans hb) (htx.keeps hk fun _ _ h => h)
  | decodeInserted hb hc htx =>
      exact .decodeInserted (hk.begun.trans hb) hc (htx.keeps hk fun _ htx h => h.keeps hk htx)
  | finishInserted hb hc htx =>
      exact .finishInserted (hk.begun.trans hb) hc (htx.keeps hk fun _ htx h => h.keeps hk htx)
  | select hb hc hrow hshare htx =>
      -- the row that is in the way may have been settled, and keeps its keys
      obtain ⟨row', hrow', hterms⟩ := hk.grows.of_mem hd.sound hrow
      exact .select (hk.begun.trans hb) hc hrow'
        ((PgRow.sharesKey_of_terms hterms intent).trans hshare)
        (htx.keeps hk fun _ htx h => ⟨h.1.keeps hk htx, h.2⟩)
  | selected hne hc htx => exact .selected hne hc (htx.keeps hk fun _ _ h => h)
  | decodeExisting hc htx => exact .decodeExisting hc (htx.keeps hk fun _ _ h => h)
  | finishExisting htx => exact .finishExisting (htx.keeps hk fun _ _ h => h)

end Creation

/-- **A client stays where it is when others take their steps.** -/
theorem RunningOk.keeps {call : Call} {promise : Option Answer} {p : Prog SqlRes Answer}
    (h : RunningOk timestamptz d t call promise p) (hk : Keeps t d d') (hd : DbInv d) :
    RunningOk timestamptz d' t call promise p := by
  cases h with
  | transition hT h => exact .transition hT (h.keeps hk)
  | creation h => exact .creation (h.keeps hk hd)
  | inspection h =>
      cases h with
      | start htx => exact .inspection (.start (hk.transaction.trans htx))
      | decodeFound hc htx => exact .inspection (.decodeFound hc (hk.transaction.trans htx))
  | ended h htx => exact .ended h (htx.keeps hk fun _ htx h => h.keeps hk htx)

end Others

/-! ## Failures -/

section Failures

variable {timestamptz : Int → Int} {d : Database} {t : Nat}

/-- At every stage, what the transaction has written is what the call has to write. -/
theorem RunningOk.backed {call : Call} {promise : Option Answer} {p : Prog SqlRes Answer}
    (h : RunningOk timestamptz d t call promise p) :
    Holding d t (Backed timestamptz d t call promise) := by
  intro tx htx
  cases h with
  | transition hT h =>
      cases h with
      | start hnone => cases hnone.symm.trans htx
      | lock hb hold => exact .nothing (hold tx htx).1.written
      | locked hb hc hold => exact .nothing (hold tx htx).1.written
      | decodeLocked hb hc hold => exact .nothing (hold tx htx).1.written
      | checkDue hb hc hrefuse hdeadline hold => exact .nothing (hold tx htx).1.written
      | write hb hc hr hold => exact .nothing (hold tx htx).1.written
      | decodeWritten hb hr hc hold =>
          obtain ⟨hw, rfl, -, hlock, hrow⟩ := hold tx htx
          -- the row has been written, and stays the client's by its lock
          exact .settles hT rfl hb hlock hrow hr hc hw
      | finish hb hr hc hold =>
          obtain ⟨hw, rfl, -, hlock, hrow⟩ := hold tx htx
          exact .settles hT rfl hb hlock hrow hr hc hw
  | creation h =>
      cases h with
      | start hnone => cases hnone.symm.trans htx
      | insert hb hold => exact .nothing (hold tx htx).1.written
      | decodeInserted hb hc hold =>
          obtain ⟨hw, rfl, -, hfree⟩ := hold tx htx
          exact .creates rfl rfl hb hc hfree hw
      | finishInserted hb hc hold =>
          obtain ⟨hw, rfl, -, hfree⟩ := hold tx htx
          exact .creates rfl rfl hb hc hfree hw
      | select hb hc hrow hshare hold => exact .nothing (hold tx htx).1.written
      | selected hne hc hold => exact .nothing (hold tx htx).1.written
      | decodeExisting hc hold => exact .nothing (hold tx htx).written
      | finishExisting hold => exact .nothing (hold tx htx).written
  | inspection h =>
      cases h with
      | start hnone => cases hnone.symm.trans htx
      | decodeFound hc hnone => cases hnone.symm.trans htx
  | ended h hold => exact hold tx htx

/-- A commit is sent by a client that then ends, one way or the other. -/
theorem RunningOk.ended_of_submitted {call : Call} {promise : Option Answer}
    {p : Prog SqlRes Answer} (h : RunningOk timestamptz d t call promise p)
    {tx : OpenTransaction} (htx : d.transactions t = some tx) (hs : tx.submitted = true) :
    ∃ a, p = .ret a ∧ EndsWith promise a := by
  -- only the last stage has sent its commit
  have hnot : tx.submitted = false → ∃ a, p = .ret a ∧ EndsWith promise a := by
    intro h
    rw [h] at hs
    cases hs
  cases h with
  | transition hT h =>
      cases h with
      | start hnone => cases hnone.symm.trans htx
      | lock hb hold => exact hnot (hold tx htx).1.submitted
      | locked hb hc hold => exact hnot (hold tx htx).1.submitted
      | decodeLocked hb hc hold => exact hnot (hold tx htx).1.submitted
      | checkDue hb hc hrefuse hdeadline hold => exact hnot (hold tx htx).1.submitted
      | write hb hc hr hold => exact hnot (hold tx htx).1.submitted
      | decodeWritten hb hr hc hold => exact hnot (hold tx htx).submitted
      | finish hb hr hc hold => exact hnot (hold tx htx).submitted
  | creation h =>
      cases h with
      | start hnone => cases hnone.symm.trans htx
      | insert hb hold => exact hnot (hold tx htx).1.submitted
      | decodeInserted hb hc hold => exact hnot (hold tx htx).submitted
      | finishInserted hb hc hold => exact hnot (hold tx htx).submitted
      | select hb hc hrow hshare hold => exact hnot (hold tx htx).1.submitted
      | selected hne hc hold => exact hnot (hold tx htx).1.submitted
      | decodeExisting hc hold => exact hnot (hold tx htx).submitted
      | finishExisting hold => exact hnot (hold tx htx).submitted
  | inspection h =>
      cases h with
      | start hnone => cases hnone.symm.trans htx
      | decodeFound hc hnone => cases hnone.symm.trans htx
  | ended h hold => exact ⟨_, rfl, h⟩

/-- A client stays where it is when its transaction is rolled back. -/
theorem RunningOk.rollback {call : Call} {promise : Option Answer} {p : Prog SqlRes Answer}
    (h : RunningOk timestamptz d t call promise p) :
    RunningOk timestamptz (d.setTransaction t none) t call promise p := by
  have hgone : (d.setTransaction t none).transactions t = none := Database.setTransaction_self ..
  -- whatever was said of the open transaction, there is none any more
  have hold : ∀ P, Holding (d.setTransaction t none) t P := by
    intro P tx htx
    cases hgone.symm.trans htx
  cases h with
  | transition hT h =>
      refine .transition hT ?_
      cases h with
      | start _ => exact .start hgone
      | lock hb _ => exact .lock hb (hold _)
      | locked hb hc _ => exact .locked hb hc (hold _)
      | decodeLocked hb hc _ => exact .decodeLocked hb hc (hold _)
      | checkDue hb hc hrefuse hdeadline _ => exact .checkDue hb hc hrefuse hdeadline (hold _)
      | write hb hc hr _ => exact .write hb hc hr (hold _)
      | decodeWritten hb hr hc _ => exact .decodeWritten hb hr hc (hold _)
      | finish hb hr hc _ => exact .finish hb hr hc (hold _)
  | creation h =>
      refine .creation ?_
      cases h with
      | start _ => exact .start hgone
      | insert hb _ => exact .insert hb (hold _)
      | decodeInserted hb hc _ => exact .decodeInserted hb hc (hold _)
      | finishInserted hb hc _ => exact .finishInserted hb hc (hold _)
      | select hb hc hrow hshare _ => exact .select hb hc hrow hshare (hold _)
      | selected hne hc _ => exact .selected hne hc (hold _)
      | decodeExisting hc _ => exact .decodeExisting hc (hold _)
      | finishExisting _ => exact .finishExisting (hold _)
  | inspection h =>
      refine .inspection ?_
      cases h with
      | start _ => exact .start hgone
      | decodeFound hc _ => exact .decodeFound hc hgone
  | ended h _ => exact .ended h (hold _)

/-- What a failed step does at the server is known to nobody. -/
theorem failed_change (o : SqlOp) : Change t d (d.failed t o) := by
  unfold Database.failed
  split
  · cases htx : d.transactions t with
    | none => exact .ends
    | some tx => exact .alters htx rfl rfl
  · exact .same

theorem failed_committed (o : SqlOp) : (d.failed t o).committed = d.committed
    ∧ (d.failed t o).log = d.log ∧ (d.failed t o).begun = d.begun := by
  unfold Database.failed
  split <;> exact ⟨rfl, rfl, rfl⟩

theorem Backed.submit {d' : Database} {call : Call} {promise : Option Answer}
    {tx tx' : OpenTransaction} (h : Backed timestamptz d t call promise tx)
    (hc : d'.committed = d.committed) (hb' : d'.begun = d.begun) (hl : tx'.locks = tx.locks)
    (hw' : tx'.written = tx.written) (hn : tx'.timestamp = tx.timestamp) :
    Backed timestamptz d' t call promise tx' := by
  cases h with
  | nothing hw => exact .nothing (hw'.trans hw)
  | settles hT hp hb hlock hrow hr hchecks hw =>
      rw [← hn] at hb hr hchecks hw
      exact .settles hT hp (by rw [hb']; exact hb) (hl ▸ hlock) (by rw [hc]; exact hrow) hr hchecks
        (hw'.trans hw)
  | creates hcall hp hb hchecks hfree hw =>
      rw [← hn] at hb
      exact .creates hcall hp (by rw [hb']; exact hb) hchecks (by rw [hc]; exact hfree)
        (hw'.trans hw)

/-- A client whose step fails returns the error. -/
theorem RunningOk.fail {call : Call} {promise : Option Answer} {o : SqlOp}
    {k : SqlRes o → Prog SqlRes Answer}
    (h : RunningOk timestamptz d t call promise (.call o k)) (hf : FailsFast (.call o k))
    (fault : Fault) (clock : Clock) :
    RunningOk timestamptz (d.failed t o) t call promise (k (fault.answer clock o)) := by
  obtain ⟨name, source, hk⟩ := hf.1 fault clock
  rw [hk]
  obtain ⟨hc, -, hb⟩ := failed_committed (d := d) (t := t) o
  refine .ended (Or.inl ⟨name, source, rfl⟩) (fun tx' htx' => ?_)
  have hold := h.backed
  unfold Database.failed at htx'
  split at htx'
  next =>
    -- a COMMIT that is not answered may still land
    rw [Database.setTransaction_self] at htx'
    obtain ⟨tx, htx, rfl⟩ := Option.map_eq_some_iff.mp htx'
    exact (hold tx htx).submit hc hb rfl rfl rfl
  next => exact (hold tx' htx').submit hc hb rfl rfl rfl

end Failures

end BusinessApproval.Postgres
