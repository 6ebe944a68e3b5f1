import BusinessApproval.Proof.Clients

/-!
# The steps of the clients

At each stage of each storage function: the answers the server can give there, the
stage that comes next, and what the step is for everybody else. A step that only
the client itself can notice is `quiet`; the others are the linearization points.
-/

namespace BusinessApproval.Postgres

section Steps

variable {timestamptz : Int → Int} {d d' : Database} {t : Nat}

theorem holding_self {tx : OpenTransaction} {P : OpenTransaction → Prop} (h : P tx) :
    Holding (d.setTransaction t (some tx)) t P := by
  intro tx' htx'
  rw [Database.setTransaction_self] at htx'
  cases htx'
  exact h

theorem holding_begun {now : Int} {P : OpenTransaction → Prop} (h : P ⟨now, [], [], none, false⟩) :
    Holding (d.beginTransaction t now) t P := by
  intro tx htx
  change Function.update d.transactions t _ t = some tx at htx
  rw [Function.update_self] at htx
  cases htx
  exact h

/-- What a client without a transaction holds. -/
theorem holding_none {P : OpenTransaction → Prop} (h : d.transactions t = none) :
    Holding d t P := by
  intro tx htx
  rw [h] at htx
  cases htx

/-! ## Publishing -/

/-- Publishing a settled row. -/
theorem publish_settled (hd : DbInv d) {call : Call} {T : Transition Answer}
    (hT : T.Performs call) {tx : OpenTransaction} (htx : d.transactions t = some tx)
    {row : PgRow} (hb : d.begun t = some tx.timestamp) (hlock : T.requestId ∈ tx.locks)
    (hrow : lookup d.committed T.requestId = some row) (hr : T.refusal tx.timestamp row = none)
    (hc : (row.settle T.set tx.timestamp).checks = true)
    (hw : tx.written = [row.settle T.set tx.timestamp]) :
    Progress timestamptz call d (d.publish t tx) t none
      (some (.ok (.ok (.settled (row.settle T.set tx.timestamp).record)))) := by
  have hid : (row.settle T.set tx.timestamp).requestId = T.requestId :=
    (PgRow.settle_requestId _ _ _).trans (requestId_of_lookup hrow)
  have hview := OpenTransaction.view_singleton hw d.committed
  refine ⟨.publishes htx ?_, .point tx.timestamp (fun _ => hb) ?_, .settled hT.settles hrow
    (T.pending_of_refusal hT (hd.sound.checks_of_lookup hrow) hr) hb ?_ hview rfl, Or.inl rfl⟩
  -- one row is replaced, and its key is locked
  · exact .replaces hw (show lookup d.committed _ = some row by rw [hid]; exact hrow) rfl hc
      (hid ▸ hlock)
  -- alone, the call does the same at the time of the transaction
  · rw [hT.alone timestamptz ⟨0, tx.timestamp⟩ hd.sound, T.outcome_settled hrow hr hc,
      Database.publish_committed, hview]
    rfl
  · rw [Database.publish, hw, if_neg (List.cons_ne_nil _ _)]

/-- Publishing a created row. -/
theorem publish_created (hd : DbInv d) {intent : RequestIntent} {tx : OpenTransaction}
    (htx : d.transactions t = some tx) (hb : d.begun t = some tx.timestamp)
    (hc : (PgRow.ofIntent timestamptz intent).checks = true)
    (hfree : taken d.committed (.ofIntent timestamptz intent) = false)
    (hw : tx.written = [.ofIntent timestamptz intent]) :
    Progress timestamptz (.request intent) d (d.publish t tx) t none
      (some (.ok (.ok (.outcome ⟨true, (PgRow.ofIntent timestamptz intent).record⟩)))) := by
  have hview := OpenTransaction.view_singleton hw d.committed
  refine ⟨.publishes htx (.creates hw hfree hc), .point tx.timestamp (fun _ => hb) ?_,
    .created rfl hfree ?_ hview rfl, Or.inl rfl⟩
  -- alone, the call does the same
  · rw [Call.alone_request timestamptz ⟨0, tx.timestamp⟩ hd.sound,
      (Creation.ofIntent timestamptz intent).outcome_created hc hfree,
      Database.publish_committed, hview]
    rfl
  · rw [Database.publish, hw, if_neg (List.cons_ne_nil _ _)]

/-- Publishing nothing. -/
theorem publish_nothing {call : Call} {promise : Option Answer} {tx : OpenTransaction}
    (htx : d.transactions t = some tx) (hw : tx.written = []) :
    Progress timestamptz call d (d.publish t tx) t promise promise := by
  refine .quiet (.publishes htx (.nothing hw)) ?_ ?_ (Or.inr rfl)
  · rw [Database.publish_committed, OpenTransaction.view_nil hw]
  · rw [Database.publish, if_pos hw]

/-- A transaction that is backed by its call can be published at any time. -/
theorem Backed.publish (hd : DbInv d) {call : Call} {promise : Option Answer}
    {tx : OpenTransaction} (htx : d.transactions t = some tx)
    (h : Backed timestamptz d t call promise tx) :
    ∃ promise', Progress timestamptz call d (d.publish t tx) t promise promise'
      ∧ ∀ a, promise = some a → promise' = some a := by
  cases h with
  | nothing hw => exact ⟨promise, publish_nothing htx hw, fun _ h => h⟩
  | settles hT hp hb hlock hrow hr hc hw =>
      subst hp
      exact ⟨_, publish_settled hd hT htx hb hlock hrow hr hc hw, fun _ h => (by cases h)⟩
  | creates hcall hp hb hc hfree hw =>
      subst hp hcall
      exact ⟨_, publish_created hd htx hb hc hfree hw, fun _ h => (by cases h)⟩

/-! ## Transitions -/

section Transitions

variable {call : Call} {T : Transition Answer} {promise : Option Answer} {o : SqlOp}
  {k : SqlRes o → Prog SqlRes Answer} {r : SqlRes o}

/-- What is promised when a row is locked is what the call is answered if it runs then. -/
theorem Transition.Performs.alone_of_promised (hT : T.Performs call) (hd : DbInv d) {row : PgRow}
    (hrow : lookup d.committed T.requestId = some row) {now : Int} {a : Answer}
    (ha : T.promised now row = some a) :
    call.alone timestamptz ⟨0, now⟩ d.committed = (a, d.committed) := by
  obtain ⟨failure, hf, rfl⟩ := Option.map_eq_some_iff.mp ha
  rw [hT.alone timestamptz ⟨0, now⟩ hd.sound, T.outcome_refused hrow hf]
  rfl

/-- A promise is no promise exactly when there is no refusal. -/
theorem Transition.promised_of_refusal {row : PgRow} {now : Int} (h : T.refusal now row = none) :
    T.promised now row = none := by
  rw [Transition.promised, h]
  rfl

/-- A transition that is refused ends with what was promised. -/
theorem Transition.Performs.refused (hT : T.Performs call) {row : PgRow} {now : Int}
    {failure : DomainFailure} (hr : T.refusal now row = some failure)
    (htx : Holding d t fun tx => T.Locked d row tx ∧ tx.timestamp = now) :
    RunningOk timestamptz d t call (T.promised now row) (T.refused failure) := by
  refine .ended (Or.inr ?_) fun tx hopen => .nothing (htx tx hopen).1.written
  rw [Transition.promised, hr, hT.wrap]
  rfl

/-- What the locked row leads to: a refusal, the check of the deadline, or the update. -/
theorem Transition.Performs.decoded (hT : T.Performs call) {row : PgRow} {now : Int}
    (hb : d.begun t = some now) (hc : row.checks = true)
    (htx : Holding d t fun tx => T.Locked d row tx ∧ tx.timestamp = now) :
    RunningOk timestamptz d t call (T.promised now row) (T.settle row.record) := by
  unfold Transition.settle
  cases hrefuse : T.refuse row.record with
  | some failure => exact hT.refused (by rw [Transition.refusal, hrefuse]) htx
  | none =>
      cases hdeadline : T.deadline with
      -- the clock of the server is asked next
      | true => exact .transition hT (.checkDue hb hc hrefuse hdeadline htx)
      | false =>
          have hr : T.refusal now row = none := by
            rw [Transition.refusal, hrefuse, hdeadline]
            rfl
          rw [Transition.promised_of_refusal hr]
          exact .transition hT (.write hb hc hr htx)

/-- What the check of the deadline leads to. -/
theorem Transition.Performs.compared (hT : T.Performs call) {row : PgRow} {now : Int}
    (hb : d.begun t = some now) (hc : row.checks = true) (hrefuse : T.refuse row.record = none)
    (hdeadline : T.deadline = true)
    (htx : Holding d t fun tx => T.Locked d row tx ∧ tx.timestamp = now) :
    RunningOk timestamptz d t call (T.promised now row)
      (if Decidable.decide (row.expiresAt ≤ now) then T.write else T.refused .notDue) := by
  -- due at the time of the transaction, or early
  by_cases hdue : row.expiresAt ≤ now
  · have hr : T.refusal now row = none := by
      rw [Transition.refusal, hrefuse]
      exact if_neg fun h => h.2 hdue
    rw [Transition.promised_of_refusal hr, if_pos (decide_eq_true hdue)]
    exact .transition hT (.write hb hc hr htx)
  · have hr : T.refusal now row = some .notDue := by
      rw [Transition.refusal, hrefuse]
      exact if_pos ⟨hdeadline, hdue⟩
    rw [if_neg (by simpa using hdue)]
    exact hT.refused hr htx

/-- What the update of the locked row leads to. -/
theorem Transition.Performs.updated (hT : T.Performs call) {tx : OpenTransaction} {row : PgRow}
    (hopen : d.transactions t = some tx) (hb : d.begun t = some tx.timestamp)
    (hlocked : T.Locked d row tx) (hr : T.refusal tx.timestamp row = none)
    (hfree : d.Free t T.requestId) (hc : (row.settle T.set tx.timestamp).checks = true) :
    ∃ promise', Progress timestamptz call d (d.setTransaction t (some { tx with
          locks := T.requestId :: tx.locks
          written := Keyed.put PgRow.requestId tx.written (row.settle T.set tx.timestamp) }))
        t none promise'
      ∧ RunningOk timestamptz (d.setTransaction t (some { tx with
          locks := T.requestId :: tx.locks
          written := Keyed.put PgRow.requestId tx.written (row.settle T.set tx.timestamp) }))
        t call promise' (T.decodeWritten (row.settle T.set tx.timestamp)) := by
  have hid : (row.settle T.set tx.timestamp).requestId = T.requestId :=
    (PgRow.settle_requestId _ _ _).trans (requestId_of_lookup hlocked.row)
  -- nothing was written before
  have hwritten : Keyed.put PgRow.requestId tx.written (row.settle T.set tx.timestamp)
      = [row.settle T.set tx.timestamp] := by
    rw [hlocked.written]
    rfl
  have hold : lookup d.committed (row.settle T.set tx.timestamp).requestId = some row := by
    rw [hid]
    exact hlocked.row
  refine ⟨none, .quiet (.updates hopen (by rw [hid]) hwritten (hid ▸ hfree) hold rfl) rfl rfl
    (Or.inr rfl), .transition hT (.decodeWritten hb hr hc ?_)⟩
  exact holding_self ⟨hwritten, rfl, hlocked.submitted, List.mem_cons_self, hlocked.row⟩

theorem Transition.At.serve (hT : T.Performs call) (hd : DbInv d)
    (h : T.At d t promise (.call o k)) (hs : Serves t d o r d') :
    ∃ promise', Progress timestamptz call d d' t promise promise'
      ∧ RunningOk timestamptz d' t call promise' (k r) := by
  cases h with
  | start htx =>
      cases hs with
      | begin now hnone =>
          -- nothing is held yet, and the time of the transaction is set
          have hb : (d.beginTransaction t now).begun t = some now := Function.update_self ..
          refine ⟨none, .quiet (.begins now) rfl rfl (Or.inl rfl), .transition hT (.lock hb ?_)⟩
          exact holding_begun ⟨⟨rfl, rfl, rfl, Or.inl rfl⟩, rfl⟩
  | @lock now hb htx =>
      cases hs with
      | selectNothing hopen hl hnone =>
          obtain ⟨hreach, rfl⟩ := htx _ hopen
          -- there is no such row, and the call has its answer now
          rw [OpenTransaction.view_nil hreach.written, hd.sound.filter_id] at hnone
          have hrow := Option.toList_eq_nil_iff.mp hnone
          refine ⟨some (.ok (.error .requestNotFound)),
            .answered .same rfl rfl _ (fun _ => hb) ?_, .ended (Or.inr ?_) ?_⟩
          · rw [hT.alone timestamptz ⟨0, _⟩ hd.sound, T.outcome_missing hrow]
            rfl
          · rw [hT.wrap]
            rfl
          · intro tx' htx'
            exact .nothing (htx _ htx').1.written
      | selected hopen hl =>
          obtain ⟨hreach, -⟩ := htx _ hopen
          -- no row has been locked yet
          rcases hreach.locking with h | ⟨h, -⟩ <;> cases hl.symm.trans h
  | @locked now row hb hc htx =>
      cases hs with
      | selectNothing hopen hl hnone =>
          cases hl.symm.trans (htx _ hopen).2.2
      | selected hopen hl =>
          -- the answer was promised when the row was locked
          obtain ⟨hlocked, rfl, hlocking⟩ := htx _ hopen
          cases hl.symm.trans hlocking
          refine ⟨_, .quiet (.alters hopen rfl rfl) rfl rfl (Or.inr rfl),
            .transition hT (.decodeLocked hb hc ?_)⟩
          exact holding_self ⟨⟨hlocked.written, hlocked.submitted, hlocked.lock, hlocked.row⟩, rfl⟩
  | @decodeLocked now row hb hc htx =>
      cases hs with
      | decode =>
          -- a row that keeps its constraints can be decoded
          rw [PgRow.decode_of_checks hc]
          exact ⟨_, .quiet .same rfl rfl (Or.inr rfl), hT.decoded hb hc htx⟩
  | @checkDue now row hb hc hrefuse hdeadline htx =>
      cases hs with
      | @selectDue _ tx hopen =>
          obtain ⟨hlocked, rfl⟩ := htx _ hopen
          refine ⟨_, .quiet .same rfl rfl (Or.inr rfl), ?_⟩
          rw [OpenTransaction.view_nil hlocked.written, hlocked.row]
          exact hT.compared hb hc hrefuse hdeadline htx
  | @write now row hb hc hr htx =>
      cases hs with
      | updateNothing hopen hrow =>
          -- a locked row does not go away
          obtain ⟨hlocked, -⟩ := htx _ hopen
          rw [OpenTransaction.view_nil hlocked.written, hlocked.row] at hrow
          cases hrow
      | updateRefused hopen hrow hfree hc' =>
          -- the error has ended the transaction
          refine ⟨none, .quiet .ends rfl rfl (Or.inr rfl), .ended (Or.inl ?_) ?_⟩
          · exact ⟨T.updateName, checkViolation, congrFun hT.wrap _⟩
          · exact holding_none (Database.setTransaction_self ..)
      | @updated _ _ tx row' hopen hrow hfree hc' =>
          -- the settlement is written, and nobody sees it yet
          obtain ⟨hlocked, rfl⟩ := htx _ hopen
          rw [OpenTransaction.view_nil hlocked.written, hlocked.row] at hrow
          cases hrow
          exact hT.updated hopen hb hlocked hr hfree hc'
  | @decodeWritten now row hb hr hc htx =>
      cases hs with
      | decode =>
          rw [PgRow.decode_of_checks hc]
          exact ⟨none, .quiet .same rfl rfl (Or.inr rfl), .transition hT (.finish hb hr hc htx)⟩
  | @finish now row hb hr hc htx =>
      cases hs with
      | commit hopen =>
          -- the commit is the linearization point of a settlement
          obtain ⟨hw, rfl, -, hlock, hrow⟩ := htx _ hopen
          refine ⟨_, publish_settled hd hT hopen hb hlock hrow hr hc hw, .ended (Or.inr ?_) ?_⟩
          · rw [hT.wrap]
            rfl
          · exact holding_none (Database.publish_self ..)

/-- Locking the row is the linearization point of a refusal. -/
theorem Transition.Performs.lock (hT : T.Performs call) (hd : DbInv d)
    {tx tx' : OpenTransaction} {row : PgRow} (hopen : d.transactions t = some tx)
    (hb : d.begun t = some tx.timestamp) (hfree : d.Free t T.requestId)
    (hrow : lookup d.committed T.requestId = some row)
    (hl : tx'.locks = T.requestId :: tx.locks) (hw : tx'.written = tx.written) :
    Progress timestamptz call d
      { d.setTransaction t (some tx') with log := .locked t T.requestId :: d.log } t none
      (T.promised tx.timestamp row) where
  change := .locks hopen hl hw hfree hrow
  effect := by
    -- a refusal is certain once the row is locked, and that is the point of the call
    cases hp : T.promised tx.timestamp row with
    | none => exact .quiet rfl
    | some a => exact .point tx.timestamp (fun _ => hb) (hT.alone_of_promised hd hrow hp)
  logged := by
    refine .locked rfl rfl (fun id' set hset => ?_)
    cases hT.settles.symm.trans hset
    refine ⟨rfl, row, hrow, fun hsettled => ?_⟩
    rw [Transition.promised, Transition.refusal, hT.settled _ hsettled]
    rfl
  begun := Or.inl rfl

theorem Transition.At.work (hT : T.Performs call) (hd : DbInv d)
    (h : T.At d t promise (.call o k)) (hs : Works t d o d') :
    ∃ promise', Progress timestamptz call d d' t promise promise'
      ∧ RunningOk timestamptz d' t call promise' (.call o k) := by
  cases h with
  | @lock now hb htx =>
      cases hs with
      | @snapshot _ tx waiting hopen hl hw hsome =>
          -- what is found is the one row with this id
          obtain ⟨hreach, rfl⟩ := htx _ hopen
          rw [OpenTransaction.view_nil hreach.written, hd.sound.filter_id] at hw
          refine ⟨none, .quiet (.alters hopen rfl rfl) rfl rfl (Or.inr rfl),
            .transition hT (.lock hb ?_)⟩
          cases hrow : lookup d.committed T.requestId with
          | none =>
              rw [hrow] at hw
              exact absurd hw.eq_nil hsome
          | some row =>
              rw [hrow] at hw
              have hwaiting : waiting = [T.requestId] := by
                rw [← requestId_of_lookup hrow]
                exact List.perm_singleton.mp hw
              exact holding_self ⟨⟨hreach.locks, hreach.written, hreach.submitted,
                Or.inr ⟨by rw [hwaiting], row, hrow⟩⟩, rfl⟩
      | @lock _ tx requestId rest rows row hopen hl hfree hrow hcond =>
          obtain ⟨hreach, rfl⟩ := htx _ hopen
          rcases hreach.locking with hnone | ⟨hlocking, -⟩
          · cases hl.symm.trans hnone
          · cases hl.symm.trans hlocking
            rw [OpenTransaction.view_nil hreach.written] at hrow
            -- if the call is refused, this is its point
            refine ⟨_, hT.lock hd hopen hb hfree hrow rfl rfl,
              .transition hT (.locked hb (hd.sound.checks_of_lookup hrow) ?_)⟩
            refine holding_self (d := d) ?_
            exact ⟨⟨hreach.written, hreach.submitted, List.mem_cons_self, hrow⟩, rfl, rfl⟩
      | @skip _ tx requestId rest rows hopen hl hfree hgone =>
          obtain ⟨hreach, rfl⟩ := htx _ hopen
          rcases hreach.locking with hnone | ⟨hlocking, row, hrow⟩
          · cases hl.symm.trans hnone
          · cases hl.symm.trans hlocking
            -- a row of the table keeps its id, so it is not skipped
            rw [OpenTransaction.view_nil hreach.written] at hgone
            have hkey := hgone row hrow
            simp [requestId_of_lookup hrow] at hkey
  | @locked now row hb hc htx =>
      cases hs with
      | snapshot hopen hl => cases hl.symm.trans (htx _ hopen).2.2
      | lock hopen hl => cases hl.symm.trans (htx _ hopen).2.2
      | skip hopen hl => cases hl.symm.trans (htx _ hopen).2.2
  | start htx => cases hs
  | decodeLocked hb hc htx => cases hs
  | checkDue hb hc hrefuse hdeadline htx => cases hs
  | write hb hc hr htx => cases hs
  | decodeWritten hb hr hc htx => cases hs
  | finish hb hr hc htx => cases hs

end Transitions

/-! ## Creations -/

section Creations

variable {intent : RequestIntent} {promise : Option Answer} {o : SqlOp}
  {k : SqlRes o → Prog SqlRes Answer} {r : SqlRes o}

/-- A row that has a key of the row to be inserted shares a key with its intent. -/
theorem exists_shares {table : Table}
    (h : taken table (.ofIntent timestamptz intent) = true) :
    ∃ row ∈ table, sharesKey intent row = true := by
  obtain ⟨row, hrow, hkey⟩ := List.any_eq_true.mp h
  simp only [Bool.or_eq_true, beq_iff_eq] at hkey
  refine ⟨row, hrow, ?_⟩
  simp only [sharesKey, Bool.or_eq_true, Bool.and_eq_true, beq_iff_eq]
  rcases hkey with hid | hpair
  · exact Or.inr hid
  · exact Or.inl ⟨congrArg Prod.fst hpair, congrArg Prod.snd hpair⟩

/-- What the rows that share a key lead to, when all are locked. -/
theorem Creation.resolves {rows : List PgRow} (hne : rows ≠ [])
    (hc : ∀ row ∈ rows, row.checks = true) (htx : Holding d t Creation.Reading) :
    RunningOk timestamptz d t (.request intent)
      (some (outcomeAnswer (.ok (resolveRows intent rows))))
      ((Creation.ofIntent timestamptz intent).resolve rows) := by
  match rows with
  | [] => exact absurd rfl hne
  | [row] => exact .creation (.decodeExisting (hc row (List.mem_singleton_self row)) htx)
  | _ :: _ :: _ => exact .ended (Or.inr rfl) fun tx hopen => .nothing (htx tx hopen).written

/-- What the one row that shares a key leads to. -/
theorem Creation.compares {row : PgRow} (htx : Holding d t Creation.Reading) :
    RunningOk timestamptz d t (.request intent)
      (some (outcomeAnswer (.ok (resolveRows intent [row]))))
      ((Creation.ofIntent timestamptz intent).compare row.record) := by
  unfold Creation.compare
  -- the same intent is repeated, and another one refused
  cases hsame : sameIntent row.record intent with
  | true =>
      rw [resolveRows, if_pos hsame]
      rw [show (!sameIntent row.record (Creation.ofIntent timestamptz intent).intent) = false
        from congrArg _ hsame]
      exact .creation (.finishExisting htx)
  | false =>
      rw [resolveRows, if_neg (by rw [hsame]; exact Bool.false_ne_true)]
      rw [show (!sameIntent row.record (Creation.ofIntent timestamptz intent).intent) = true
        from congrArg _ hsame]
      exact .ended (Or.inr rfl) fun tx hopen => .nothing (htx tx hopen).written

theorem Creation.At.serve (hd : DbInv d)
    (h : Creation.At timestamptz intent d t promise (.call o k)) (hs : Serves t d o r d') :
    ∃ promise', Progress timestamptz (.request intent) d d' t promise promise'
      ∧ RunningOk timestamptz d' t (.request intent) promise' (k r) := by
  cases h with
  | start htx =>
      cases hs with
      | begin now hnone =>
          have hb : (d.beginTransaction t now).begun t = some now := Function.update_self ..
          refine ⟨none, .quiet (.begins now) rfl rfl (Or.inl rfl), .creation (.insert hb ?_)⟩
          exact holding_begun ⟨⟨rfl, rfl, rfl, rfl⟩, rfl⟩
  | @insert now hb htx =>
      cases hs with
      | insertRefused hopen hc =>
          -- the error has ended the transaction
          refine ⟨none, .quiet .ends rfl rfl (Or.inr rfl), .ended (Or.inl ?_) ?_⟩
          · exact ⟨"create approval request", checkViolation, rfl⟩
          · exact holding_none (Database.setTransaction_self ..)
      | insertTaken hopen hc ht =>
          -- a key is in use, and the rows that use one are selected next
          obtain ⟨hfresh, rfl⟩ := htx _ hopen
          rw [OpenTransaction.view_nil hfresh.written] at ht
          obtain ⟨row, hrow, hshare⟩ := exists_shares ht
          refine ⟨none, .quiet .same rfl rfl (Or.inr rfl), .creation (.select hb hc hrow hshare ?_)⟩
          intro tx' htx'
          obtain ⟨hfresh', htime⟩ := htx _ htx'
          exact ⟨⟨hfresh'.written, hfresh'.submitted, Or.inl hfresh'.locking⟩, htime⟩
      | @inserted _ tx hopen hc ht hu =>
          -- the row is written, and nobody sees it yet
          obtain ⟨hfresh, rfl⟩ := htx _ hopen
          rw [OpenTransaction.view_nil hfresh.written] at ht
          have hwritten : Keyed.put PgRow.requestId tx.written (PgRow.ofIntent timestamptz intent)
              = [.ofIntent timestamptz intent] := by
            rw [hfresh.written]
            rfl
          refine ⟨none, .quiet (.inserts hopen rfl hwritten hu) rfl rfl (Or.inr rfl),
            .creation (.decodeInserted hb hc ?_)⟩
          exact holding_self ⟨hwritten, rfl, hfresh.submitted, ht⟩
  | @decodeInserted now hb hc htx =>
      cases hs with
      | decode =>
          rw [PgRow.decode_of_checks hc]
          exact ⟨none, .quiet .same rfl rfl (Or.inr rfl), .creation (.finishInserted hb hc htx)⟩
  | @finishInserted now hb hc htx =>
      cases hs with
      | commit hopen =>
          -- the commit is the linearization point of a creation
          obtain ⟨hw, rfl, -, hfree⟩ := htx _ hopen
          refine ⟨_, publish_created hd hopen hb hc hfree hw, .ended (Or.inr rfl) ?_⟩
          exact holding_none (Database.publish_self ..)
  | @select now row hb hc hrow hshare htx =>
      cases hs with
      | selectNothing hopen hl hnone =>
          obtain ⟨hselecting, -⟩ := htx _ hopen
          rw [OpenTransaction.view_nil hselecting.written] at hnone
          -- the row that is in the way does not go away
          exact absurd hnone (List.ne_nil_of_mem (List.mem_filter.mpr ⟨hrow, hshare⟩))
      | selected hopen hl =>
          obtain ⟨hselecting, -⟩ := htx _ hopen
          rcases hselecting.locking with hnone | ⟨waiting, fetched, hlocking, hne, -⟩
          · cases hl.symm.trans hnone
          · cases hl.symm.trans hlocking
            exact absurd rfl hne
  | @selected rows hne hc htx =>
      cases hs with
      | selectNothing hopen hl hnone => cases hl.symm.trans (htx _ hopen).2
      | selected hopen hl =>
          -- the answer was promised when the last row was locked
          obtain ⟨hreading, hlocking⟩ := htx _ hopen
          cases hl.symm.trans hlocking
          exact ⟨_, .quiet (.alters hopen rfl rfl) rfl rfl (Or.inr rfl),
            Creation.resolves hne hc (holding_self ⟨hreading.written, hreading.submitted⟩)⟩
  | @decodeExisting row hc htx =>
      cases hs with
      | decode =>
          rw [PgRow.decode_of_checks hc]
          exact ⟨_, .quiet .same rfl rfl (Or.inr rfl), Creation.compares htx⟩
  | finishExisting htx =>
      cases hs with
      | commit hopen =>
          -- nothing was written, so the commit changes nothing
          refine ⟨_, publish_nothing hopen (htx _ hopen).written, .ended (Or.inr rfl) ?_⟩
          exact holding_none (Database.publish_self ..)

/-- The rows a snapshot finds are still to be locked. -/
theorem Creation.collecting_snapshot (hd : DbInv d) {tx : OpenTransaction} {waiting : List String}
    (hw : waiting.Perm ((d.committed.filter (sharesKey intent)).map PgRow.requestId)) :
    Collecting intent d.committed tx waiting [] where
  nodup := hw.nodup_iff.mpr ((List.filter_sublist.map PgRow.requestId).nodup hd.sound.unique.keys)
  waiting id hid := by
    obtain ⟨row, hrow, rfl⟩ := List.mem_map.mp (hw.subset hid)
    obtain ⟨hmem, hshare⟩ := List.mem_filter.mp hrow
    exact ⟨row, Keyed.lookup_of_mem hd.sound.unique.keys hmem, hshare⟩
  fetched _ hrow := by cases hrow

/-- A row that has been waited for is locked. -/
theorem Creation.Collecting.lock {tx tx' : OpenTransaction} {id : String} {rest : List String}
    {rows : List PgRow} {row : PgRow} (h : Collecting intent d.committed tx (id :: rest) rows)
    (hrow : lookup d.committed id = some row) (hl : tx'.locks = id :: tx.locks) :
    Collecting intent d.committed tx' rest (rows ++ [row]) where
  nodup := by
    rw [List.map_append, List.map_singleton, requestId_of_lookup hrow, List.append_assoc]
    exact h.nodup
  waiting id' hid := h.waiting id' (List.mem_cons_of_mem _ hid)
  fetched r hr := by
    rw [hl]
    -- rows from before, and the one that has just been locked
    rcases List.mem_append.mp hr with hr | hr
    · obtain ⟨hlock, hlook, hshare⟩ := h.fetched r hr
      exact ⟨List.mem_cons_of_mem _ hlock, hlook, hshare⟩
    · rw [List.mem_singleton] at hr
      subst hr
      obtain ⟨r', hr', hshare⟩ := h.waiting id List.mem_cons_self
      cases hrow.symm.trans hr'
      rw [requestId_of_lookup hrow]
      exact ⟨List.mem_cons_self, hrow, hshare⟩

/-- When the last row has been locked, the answer is known. -/
theorem Creation.Collecting.alone (hd : DbInv d) {tx : OpenTransaction} {rows : List PgRow}
    (h : Collecting intent d.committed tx [] rows) (hne : rows ≠ [])
    (hc : (PgRow.ofIntent timestamptz intent).checks = true) (now : Int) :
    (Call.request intent).alone timestamptz ⟨0, now⟩ d.committed
      = (outcomeAnswer (.ok (resolveRows intent rows)), d.committed) := by
  have hrows : ∀ row ∈ rows, row ∈ d.committed ∧ sharesKey intent row = true := fun row hrow =>
    ⟨Keyed.mem_of_lookup (h.fetched row hrow).2.1, (h.fetched row hrow).2.2⟩
  have hnodup := h.nodup
  rw [List.append_nil] at hnodup
  rw [Call.alone_request timestamptz ⟨0, now⟩ hd.sound,
    (Creation.ofIntent timestamptz intent).outcome_found hd.sound hc hne hrows hnodup]
  rfl

/-- A row is locked: there is another one to come, or the answer is known. -/
theorem Creation.Collecting.locks (hd : DbInv d) {tx : OpenTransaction} {id : String}
    {rest : List String} {rows : List PgRow} {row row₀ : PgRow}
    (h : Collecting intent d.committed tx (id :: rest) rows)
    (hopen : d.transactions t = some tx) (hb : d.begun t = some tx.timestamp)
    (hw : tx.written = []) (hs : tx.submitted = false)
    (hc : (PgRow.ofIntent timestamptz intent).checks = true) (hrow₀ : row₀ ∈ d.committed)
    (hshare : sharesKey intent row₀ = true) (hfree : d.Free t id)
    (hrow : lookup d.committed id = some row)
    (hd' : d' = { d.setTransaction t (some { tx with
        locks := id :: tx.locks
        locking := some ⟨rest, rows ++ [row]⟩ }) with log := .locked t id :: d.log }) :
    ∃ promise', Progress timestamptz (.request intent) d d' t none promise'
      ∧ RunningOk timestamptz d' t (.request intent) promise'
        (Creation.ofIntent timestamptz intent).select := by
  subst hd'
  have hnext : Creation.Collecting intent d.committed { tx with
      locks := id :: tx.locks
      locking := some ⟨rest, rows ++ [row]⟩ } rest (rows ++ [row]) := h.lock hrow rfl
  have hlogged : ∀ promise, Logged timestamptz (.request intent) d
      { d.setTransaction t (some { tx with
          locks := id :: tx.locks
          locking := some ⟨rest, rows ++ [row]⟩ }) with log := .locked t id :: d.log } t promise :=
    fun _ => .locked rfl rfl (fun _ _ h => by cases h)
  have hne : rows ++ [row] ≠ [] := by simp
  cases rest with
  | nil =>
      -- this was the last one
      refine ⟨_, ⟨.locks hopen rfl rfl hfree hrow,
        .point tx.timestamp (fun _ => hb) (hnext.alone hd hne hc tx.timestamp),
        hlogged _, Or.inl rfl⟩, .creation (.selected hne (fun r hr => ?_) ?_)⟩
      · exact hd.sound.checks_of_lookup (hnext.fetched r hr).2.1
      · exact holding_self (d := d) ⟨⟨hw, hs⟩, rfl⟩
  | cons id' rest =>
      -- there is another one to come
      refine ⟨none, ⟨.locks hopen rfl rfl hfree hrow, .quiet rfl, hlogged _, Or.inl rfl⟩,
        .creation (.select hb hc hrow₀ hshare ?_)⟩
      refine holding_self (d := d) ⟨⟨hw, hs, Or.inr ?_⟩, rfl⟩
      exact ⟨id' :: rest, rows ++ [row], rfl, List.cons_ne_nil _ _, hnext⟩

theorem Creation.At.work (hd : DbInv d)
    (h : Creation.At timestamptz intent d t promise (.call o k)) (hs : Works t d o d') :
    ∃ promise', Progress timestamptz (.request intent) d d' t promise promise'
      ∧ RunningOk timestamptz d' t (.request intent) promise' (.call o k) := by
  cases h with
  | @select now row₀ hb hc hrow₀ hshare htx =>
      cases hs with
      | @snapshot _ tx waiting hopen hl hw hsome =>
          -- the rows that share a key are to be locked, in some order
          obtain ⟨hselecting, rfl⟩ := htx _ hopen
          rw [OpenTransaction.view_nil hselecting.written] at hw
          refine ⟨none, .quiet (.alters hopen rfl rfl) rfl rfl (Or.inr rfl),
            .creation (.select hb hc hrow₀ hshare ?_)⟩
          exact holding_self ⟨⟨hselecting.written, hselecting.submitted,
            Or.inr ⟨waiting, [], rfl, hsome, Creation.collecting_snapshot hd hw⟩⟩, rfl⟩
      | @lock _ tx id rest rows row hopen hl hfree hrow hcond =>
          obtain ⟨hselecting, rfl⟩ := htx _ hopen
          rw [OpenTransaction.view_nil hselecting.written] at hrow
          rcases hselecting.locking with hnone | ⟨waiting, fetched, hlocking, -, hcollecting⟩
          · cases hl.symm.trans hnone
          · cases hl.symm.trans hlocking
            exact hcollecting.locks hd hopen hb hselecting.written hselecting.submitted hc hrow₀
              hshare hfree hrow rfl
      | @skip _ tx id rest rows hopen hl hfree hgone =>
          obtain ⟨hselecting, rfl⟩ := htx _ hopen
          rw [OpenTransaction.view_nil hselecting.written] at hgone
          rcases hselecting.locking with hnone | ⟨waiting, fetched, hlocking, -, hcollecting⟩
          · cases hl.symm.trans hnone
          · cases hl.symm.trans hlocking
            -- a row of the table keeps its keys, so it is not skipped
            obtain ⟨row, hrow, hshare⟩ := hcollecting.waiting id List.mem_cons_self
            cases hshare.symm.trans (hgone row hrow)
  | selected hne hc htx =>
      cases hs with
      | snapshot hopen hl => cases hl.symm.trans (htx _ hopen).2
      | lock hopen hl => cases hl.symm.trans (htx _ hopen).2
      | skip hopen hl => cases hl.symm.trans (htx _ hopen).2
  | start htx => cases hs
  | insert hb htx => cases hs
  | decodeInserted hb hc htx => cases hs
  | finishInserted hb hc htx => cases hs
  | decodeExisting hc htx => cases hs
  | finishExisting htx => cases hs

end Creations

/-! ## Reads -/

section Reads

variable {requestId : String} {requester : Option String} {promise : Option Answer} {o : SqlOp}
  {k : SqlRes o → Prog SqlRes Answer} {r : SqlRes o}

theorem Inspection.At.serve (hd : DbInv d)
    (h : (Inspection.ofRead requestId requester).At d t promise (.call o k))
    (hs : Serves t d o r d') :
    ∃ promise', Progress timestamptz (.read requestId requester) d d' t promise promise'
      ∧ RunningOk timestamptz d' t (.read requestId requester) promise' (k r) := by
  cases h with
  | start htx =>
      cases hs with
      | select =>
          -- a read has its point at its one statement
          have halone := Call.alone_read timestamptz ⟨0, 0⟩ hd.sound requestId requester
          unfold Inspection.outcome at halone
          rw [hd.sound.filter_condition]
          cases hrow : (lookup d.committed requestId).filter
              (Inspection.ofRead requestId requester).condition with
          | none =>
              rw [show (Inspection.ofRead requestId requester).requestId = requestId from rfl,
                hrow] at halone ⊢
              refine ⟨_, .answered .same rfl rfl 0 (fun h => by cases h) halone,
                .ended (Or.inr rfl) (holding_none htx)⟩
          | some row =>
              rw [show (Inspection.ofRead requestId requester).requestId = requestId from rfl,
                hrow] at halone ⊢
              have hlook := (Option.filter_eq_some_iff.mp hrow).1
              refine ⟨_, .answered .same rfl rfl 0 (fun h => by cases h) halone,
                .inspection (.decodeFound (hd.sound.checks_of_lookup hlook) htx)⟩
  | decodeFound hc htx =>
      cases hs with
      | decode =>
          rw [PgRow.decode_of_checks hc]
          exact ⟨_, .quiet .same rfl rfl (Or.inr rfl), .ended (Or.inr rfl) (holding_none htx)⟩

theorem Inspection.At.not_work
    (h : (Inspection.ofRead requestId requester).At d t promise (.call o k))
    (hs : Works t d o d') : False := by
  cases h with
  | start htx => cases hs
  | decodeFound hc htx => cases hs

end Reads

/-! ## Any client -/

section Any

variable {call : Call} {promise : Option Answer} {o : SqlOp}
  {k : SqlRes o → Prog SqlRes Answer} {r : SqlRes o}

/-- **What a served statement comes to.** -/
theorem RunningOk.serve (hd : DbInv d) (h : RunningOk timestamptz d t call promise (.call o k))
    (hs : Serves t d o r d') : ∃ promise', Progress timestamptz call d d' t promise promise'
      ∧ RunningOk timestamptz d' t call promise' (k r) := by
  cases h with
  | transition hT h => exact h.serve hT hd hs
  | creation h => exact h.serve hd hs
  | inspection h => exact h.serve hd hs

/-- **What a statement that gets on comes to.** -/
theorem RunningOk.work (hd : DbInv d) (h : RunningOk timestamptz d t call promise (.call o k))
    (hs : Works t d o d') : ∃ promise', Progress timestamptz call d d' t promise promise'
      ∧ RunningOk timestamptz d' t call promise' (.call o k) := by
  cases h with
  | transition hT h => exact h.work hT hd hs
  | creation h => exact h.work hd hs
  | inspection h => exact (h.not_work hs).elim

end Any

end Steps

end BusinessApproval.Postgres
