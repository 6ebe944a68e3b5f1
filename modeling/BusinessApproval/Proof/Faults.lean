import BusinessApproval.Proof.Calls
import BusinessApproval.Proof.Standard

/-!
# All or nothing

A storage function that meets a failure has either not changed the table, or made
its whole change: every failure but that of the commit comes before the table
changes, and nothing comes after the commit. `CommitLast` is that shape of program,
`CommitLast.attempt` compares a run with failures to the run without, and
`allOrNothing` is what follows for every call on every table a run can leave.
-/

namespace BusinessApproval.Postgres

/-! ## Committing last -/

/-- The program has ended with an error of the database. -/
def FailsWith (p : Prog SqlRes Answer) : Prop :=
  ∃ name source, p = .ret (.error (.database name source))

/--
A program that ends at the first failure it meets, and whose last step before it
succeeds is a commit. Until then it may be refused.
-/
inductive CommitLast : Prog SqlRes Answer → Prop
  | failed (e : StorageError) : CommitLast (.ret (.error e))
  | refused (failure : DomainFailure) : CommitLast (.ret (.ok (.error failure)))
  | step {o : SqlOp} {k : SqlRes o → Prog SqlRes Answer} (ho : isCommit o = false)
      (hfault : ∀ fault clock, FailsWith (k (Fault.answer fault clock o)))
      (hk : ∀ r, CommitLast (k r)) : CommitLast (.call o k)
  | commit {k : SqlRes .commit → Prog SqlRes Answer} (reply : Reply)
      (hok : k (.ok ()) = .ret (.ok (.ok reply)))
      (herror : ∀ source, FailsWith (k (.error source))) : CommitLast (.call .commit k)

/-- A program each of whose steps, when it fails, is its end. -/
def FailsFast : Prog SqlRes Answer → Prop
  | .ret _ => True
  | .call o k => (∀ fault clock, FailsWith (k (Fault.answer fault clock o))) ∧ ∀ r, FailsFast (k r)

theorem CommitLast.failsFast {p : Prog SqlRes Answer} (h : CommitLast p) : FailsFast p := by
  induction h with
  | failed e => trivial
  | refused failure => trivial
  | step ho hfault hk ih => exact ⟨hfault, ih⟩
  | @commit k reply hok herror =>
      refine ⟨fun fault clock => herror fault.source, fun r => ?_⟩
      cases r with
      | error source =>
          obtain ⟨name, source', h⟩ := herror source
          rw [h]
          trivial
      | ok u =>
          rw [hok]
          trivial

section Transitions

variable {t : Transition Answer} (hwrap : t.wrap = settledAnswer)

include hwrap

theorem Transition.commitLast_fail (name : String) (source : SqlxError) :
    CommitLast (t.fail name source) := by
  rw [Transition.fail, hwrap]
  exact .failed _

theorem Transition.commitLast_refused (failure : DomainFailure) :
    CommitLast (t.refused failure) := by
  rw [Transition.refused, hwrap]
  exact .refused failure

theorem Transition.failsWith (name : String) (source : SqlxError) :
    FailsWith (t.fail name source) := by
  rw [Transition.fail, hwrap]
  exact ⟨name, source, rfl⟩

theorem Transition.commitLast_finish (approval : StoredApproval) :
    CommitLast (t.finish approval) := by
  refine .commit (.settled approval) ?_ (fun source => t.failsWith hwrap _ source)
  simp only [hwrap]
  rfl

theorem Transition.commitLast_write : CommitLast t.write := by
  refine .step rfl (fun fault clock => t.failsWith hwrap _ fault.source) (fun r => ?_)
  match r with
  | .error source => exact t.commitLast_fail hwrap _ source
  | .ok [] => exact t.commitLast_fail hwrap _ .rowNotFound
  | .ok (row :: _) =>
      refine .step rfl (fun fault clock => ⟨_, _, congrArg Prog.ret (congrFun hwrap _)⟩) (fun r => ?_)
      cases r with
      | error e =>
          simp only [hwrap]
          exact .failed e
      | ok approval => exact t.commitLast_finish hwrap approval

theorem Transition.commitLast_settle (current : StoredApproval) :
    CommitLast (t.settle current) := by
  unfold Transition.settle
  cases t.refuse current with
  | some failure => exact t.commitLast_refused hwrap failure
  | none =>
      cases t.deadline with
      | false => exact t.commitLast_write hwrap
      | true =>
          refine .step rfl (fun fault clock => t.failsWith hwrap _ fault.source) (fun r => ?_)
          -- due or early, by the clock of the server
          match r with
          | .error source => exact t.commitLast_fail hwrap _ source
          | .ok [] => exact t.commitLast_fail hwrap _ .rowNotFound
          | .ok (true :: _) => exact t.commitLast_write hwrap
          | .ok (false :: _) => exact t.commitLast_refused hwrap _

theorem Transition.commitLast_start : CommitLast t.start := by
  refine .step rfl (fun fault clock => t.failsWith hwrap _ fault.source) (fun r => ?_)
  cases r with
  | error source => exact t.commitLast_fail hwrap _ source
  | ok u =>
      refine .step rfl (fun fault clock => t.failsWith hwrap _ fault.source) (fun r => ?_)
      match r with
      | .error source => exact t.commitLast_fail hwrap _ source
      -- there is no such row
      | .ok [] => exact t.commitLast_refused hwrap _
      | .ok (row :: _) =>
          refine .step rfl (fun fault clock => ⟨_, _, congrArg Prog.ret (congrFun hwrap _)⟩)
            (fun r => ?_)
          cases r with
          | error e =>
              simp only [hwrap]
              exact .failed e
          | ok current => exact t.commitLast_settle hwrap current

end Transitions

section Creations

variable (timestamptz : Int → Int) (intent : RequestIntent)

theorem Creation.commitLast_finish (name : String) (created : Bool) (approval : StoredApproval) :
    CommitLast ((Creation.ofIntent timestamptz intent).finish name created approval) :=
  .commit (.outcome ⟨created, approval⟩) rfl (fun _ => ⟨_, _, rfl⟩)

theorem Creation.commitLast_resolve (rows : List PgRow) :
    CommitLast ((Creation.ofIntent timestamptz intent).resolve rows) := by
  match rows with
  | [] => exact .failed _
  | [row] =>
      refine .step rfl (fun fault clock => ⟨_, _, rfl⟩) (fun r => ?_)
      cases r with
      | error e => exact .failed e
      | ok approval =>
          change CommitLast ((Creation.ofIntent timestamptz intent).compare approval)
          unfold Creation.compare
          split
          · exact .refused _
          · exact Creation.commitLast_finish timestamptz intent _ false approval
  | _ :: _ :: _ => exact .refused _

theorem Creation.commitLast_start : CommitLast (Creation.ofIntent timestamptz intent).start := by
  refine .step rfl (fun fault clock => ⟨_, _, rfl⟩) (fun r => ?_)
  cases r with
  | error source => exact .failed _
  | ok u =>
      refine .step rfl (fun fault clock => ⟨_, _, rfl⟩) (fun r => ?_)
      match r with
      | .error source => exact .failed _
      -- a key is in use
      | .ok [] =>
          refine .step rfl (fun fault clock => ⟨_, _, rfl⟩) (fun r => ?_)
          cases r with
          | error source => exact .failed _
          | ok rows => exact Creation.commitLast_resolve timestamptz intent rows
      -- the row has been written
      | .ok (row :: _) =>
          refine .step rfl (fun fault clock => ⟨_, _, rfl⟩) (fun r => ?_)
          cases r with
          | error e => exact .failed e
          | ok approval => exact Creation.commitLast_finish timestamptz intent _ true approval

end Creations

theorem Call.commitLast (timestamptz : Int → Int) {call : Call} (h : call.writes = true) :
    CommitLast (call.prog timestamptz) := by
  cases call.kind with
  | request intent =>
      rw [prog_request]
      exact Creation.commitLast_start timestamptz intent
  | read requestId requester => cases h
  | @transition _ t ht =>
      rw [ht.prog]
      exact t.commitLast_start ht.wrap

theorem Inspection.failsFast (requestId : String) (requester : Option String) :
    FailsFast (Inspection.ofRead requestId requester).start := by
  refine ⟨fun fault clock => ⟨_, _, rfl⟩, fun r => ?_⟩
  match r with
  | .error source => trivial
  | .ok [] => trivial
  | .ok (row :: _) =>
      refine ⟨fun fault clock => ⟨_, _, rfl⟩, fun r => ?_⟩
      cases r with
      | error e => trivial
      | ok approval => trivial

/-- A storage function ends at the first failure it meets. -/
theorem Call.failsFast (timestamptz : Int → Int) (call : Call) :
    FailsFast (call.prog timestamptz) := by
  cases hw : call.writes with
  | true => exact (Call.commitLast timestamptz hw).failsFast
  | false =>
      cases call with
      | read requestId requester =>
          rw [prog_read]
          exact Inspection.failsFast requestId requester
      | _ => cases hw

/-! ## Runs with failures -/

section Runs

variable (clock : Clock) (plan : Nat → Option Fault)

/-- Only a commit changes the table. -/
theorem Session.perform_table {o : SqlOp} (ho : isCommit o = false) (s : Session) :
    (Session.perform clock o s).2.table = s.table := by
  -- a statement of a transaction changes that alone
  have hwithin : ∀ {α : Type} (statement : Transaction → Except SqlxError (α × Transaction)),
      (s.within statement).2.table = s.table := by
    intro α statement
    unfold Session.within
    cases s.transaction with
    | none => rfl
    | some tx =>
        simp only
        cases statement tx with
        | error source => rfl
        | ok answer => rfl
  cases o with
  | commit => cases ho
  | insert row => exact hwithin _
  | selectForUpdate condition => exact hwithin _
  | selectDue requestId => exact hwithin _
  | update requestId set => exact hwithin _
  | nowUtc => rfl
  | begin => rfl
  | select condition => rfl
  | decode row => rfl

/-- A commit is the end of the transaction, or fails for want of one. -/
theorem Session.perform_commit (s : Session) :
    (Session.perform clock .commit s).1 = .ok ()
      ∨ ∃ source, (Session.perform clock .commit s).1 = .error source
        ∧ (Session.perform clock .commit s).2.table = s.table := by
  simp only [Session.perform]
  cases s.transaction with
  | none => exact Or.inr ⟨noTransaction, rfl, rfl⟩
  | some tx => exact Or.inl rfl

/-- Without a success the table is as it was. -/
theorem CommitLast.unchanged {p : Prog SqlRes Answer} (h : CommitLast p) (s : Session)
    (hfail : ∀ reply, (Prog.run (Session.perform clock) p s).1 ≠ .ok (.ok reply)) :
    (Prog.run (Session.perform clock) p s).2.table = s.table := by
  induction h generalizing s with
  | failed e => rfl
  | refused failure => rfl
  | @step o k ho hfault hk ih =>
      rw [Prog.run_call] at hfail ⊢
      rw [ih _ _ hfail, Session.perform_table clock ho]
  | @commit k reply hok herror =>
      rw [Prog.run_call] at hfail ⊢
      -- after a commit that has gone through the reply is a success
      rcases Session.perform_commit clock s with hdone | ⟨source, hsource, htable⟩
      · rw [hdone, hok] at hfail
        exact absurd rfl (hfail reply)
      · obtain ⟨name, source', he⟩ := herror source
        rw [hsource, he]
        exact htable

/--
How a run with failures from `table` compares with the run without, which answers
`free.1` and leaves `free.2`.
-/
inductive Attempted (table : Table) (free : Answer × Session) (answer : Answer) (m : Monitored) :
    Prop
  /-- No failure got in its way. -/
  | alike (hanswer : answer = free.1) (htable : m.session.table = free.2.table)
      (hacknowledged : ∀ reply, answer = .ok (.ok reply) → m.acknowledged = true)
  /-- It failed, and has changed nothing. -/
  | failed (hanswer : ∃ e, answer = .error e) (htable : m.session.table = table)
  /-- It failed at the commit, which was carried out. -/
  | unanswered (hanswer : ∃ e, answer = .error e) (hsubmitted : m.submitted = true)
      (hdone : ∃ reply, free.1 = .ok (.ok reply)) (htable : m.session.table = free.2.table)

theorem faulty_of_none {m : Monitored} (h : plan m.step = none) (o : SqlOp) :
    faulty clock plan o m = ((Session.perform clock o m.session).1,
      ⟨(Session.perform clock o m.session).2, m.step + 1, m.submitted || isCommit o,
        m.acknowledged || acknowledges o (Session.perform clock o m.session).1⟩) := by
  rw [faulty, h]

theorem faulty_of_some {m : Monitored} {fault : Fault} (h : plan m.step = some fault) (o : SqlOp) :
    faulty clock plan o m = (fault.answer clock o,
      ⟨if fault.carriedOut then (Session.perform clock o m.session).2 else m.session, m.step + 1,
        m.submitted || isCommit o, m.acknowledged⟩) := by
  rw [faulty, h]

/-- A run with failures ends like the run without, or in failure with all or nothing done. -/
theorem CommitLast.attempt {p : Prog SqlRes Answer} (h : CommitLast p) (m : Monitored) :
    Attempted m.session.table (Prog.run (Session.perform clock) p m.session)
      (Prog.run (faulty clock plan) p m).1 (Prog.run (faulty clock plan) p m).2 := by
  induction h generalizing m with
  | failed e => exact .failed ⟨e, rfl⟩ rfl
  | refused failure => exact .alike rfl rfl (fun reply h => by cases h)
  | @step o k ho hfault hk ih =>
      rw [Prog.run_call, Prog.run_call]
      cases hplan : plan m.step with
      | none =>
          rw [faulty_of_none clock plan hplan]
          have hrest := ih (Session.perform clock o m.session).1
            ⟨(Session.perform clock o m.session).2, m.step + 1, m.submitted || isCommit o,
              m.acknowledged || acknowledges o (Session.perform clock o m.session).1⟩
          rw [Session.perform_table clock ho] at hrest
          exact hrest
      | some fault =>
          obtain ⟨name, source, he⟩ := hfault fault clock
          rw [faulty_of_some clock plan hplan, he]
          refine .failed ⟨_, rfl⟩ ?_
          -- carried out or not, a step before the commit does not touch the table
          cases hdone : fault.carriedOut with
          | false => rfl
          | true => simpa using Session.perform_table clock ho m.session
  | @commit k reply hok herror =>
      rw [Prog.run_call, Prog.run_call]
      have hcommit := Session.perform_commit clock m.session
      cases hplan : plan m.step with
      | none =>
          rw [faulty_of_none clock plan hplan]
          rcases hcommit with hdone | ⟨source, hsource, htable⟩
          · rw [hdone, hok]
            exact .alike rfl rfl (fun _ _ => Bool.or_true _)
          · obtain ⟨name, source', he⟩ := herror source
            rw [hsource, he]
            exact .failed ⟨_, rfl⟩ htable
      | some fault =>
          obtain ⟨name, source, he⟩ := herror fault.source
          rw [faulty_of_some clock plan hplan]
          change Attempted _ _ (Prog.run _ (k (.error fault.source)) _).1
            (Prog.run _ (k (.error fault.source)) _).2
          rw [he]
          cases hcarried : fault.carriedOut with
          | false => exact .failed ⟨_, rfl⟩ rfl
          | true =>
              rcases hcommit with hdone | ⟨source, -, htable⟩
              · rw [hdone, hok]
                exact .unanswered ⟨_, rfl⟩ (Bool.or_true _) ⟨reply, rfl⟩ rfl
              · exact .failed ⟨_, rfl⟩ htable

/-- A read leaves the table alone, whatever fails. -/
theorem Inspection.attempt_table (i : Inspection Answer) (m : Monitored) :
    (Prog.run (faulty clock plan) i.start m).2.session.table = m.session.table := by
  have hemits : i.start.Emits (fun o => isCommit o = false) (fun _ _ => True) := by
    refine ⟨rfl, fun r _ => ?_⟩
    match r with
    | .error source => trivial
    | .ok [] => trivial
    | .ok (row :: _) =>
        refine ⟨rfl, fun r _ => ?_⟩
        cases r with
        | error e => trivial
        | ok approval => trivial
  refine Prog.run_inv (I := fun (n : Monitored) => n.session.table = m.session.table)
    (fun o n ho hn => ?_) hemits rfl
  refine ⟨trivial, ?_⟩
  cases hplan : plan n.step with
  | none =>
      rw [faulty_of_none clock plan hplan]
      exact (Session.perform_table clock ho n.session).trans hn
  | some fault =>
      rw [faulty_of_some clock plan hplan]
      -- the fault strikes before the statement, or after it
      cases hcarried : fault.carriedOut with
      | false => exact hn
      | true => exact (Session.perform_table clock ho n.session).trans hn

end Runs

/-! ## Every call, on every table -/

section Calls

variable (timestamptz : Int → Int)

/-- The tables that calls lead to from the empty one, whatever fails on the way. -/
inductive Reached : Table → Prop
  | empty : Reached []
  | call (clock : Clock) (plan : Nat → Option Fault) (call : Call) {table : Table}
      (h : Reached table) : Reached (call.attempt timestamptz clock plan table).2.session.table

/-- The whole change a call can make to a table. -/
inductive Call.Completes (now : Int) (table : Table) : Call → Table → Prop
  | created {intent : RequestIntent} (hfree : taken table (.ofIntent timestamptz intent) = false) :
      Completes now table (.request intent)
        (Keyed.put PgRow.requestId table (.ofIntent timestamptz intent))
  | settled {call : Call} {requestId : String} {set : PgRow.Settlement} {row : PgRow}
      (hset : call.settles = some (requestId, set)) (hrow : lookup table requestId = some row)
      (hpending : row.status = "pending") :
      Completes now table call (Keyed.put PgRow.requestId table (row.settle set now))

/-- A reply that says the approval was there already. -/
def Reply.repeated : Reply → Bool
  | .outcome result => !result.created
  | _ => false

/-- The reply shows an approval as its row has it. -/
def Reply.Shows (reply : Reply) (table : Table) : Prop :=
  ∃ approval row, reply.approval = some approval ∧ lookup table approval.requestId = some row
    ∧ decodeApproval row = .ok approval

/-- What a call makes of a table it succeeds on. -/
structure Call.Succeeds (now : Int) (call : Call) (table : Table) (reply : Reply)
    (after : Table) : Prop where
  shows : reply.Shows after
  change : if reply.repeated then after = table else call.Completes timestamptz now table after

variable {timestamptz}

theorem Creation.outcome_succeeds {table : Table} (hs : Sound table) {intent : RequestIntent}
    {now : Int} {reply : Reply}
    (h : outcomeAnswer ((Creation.ofIntent timestamptz intent).outcome table).1
      = .ok (.ok reply)) :
    Call.Succeeds timestamptz now (.request intent) table reply
      ((Creation.ofIntent timestamptz intent).outcome table).2 := by
  unfold Creation.outcome at h ⊢
  cases hc : (Creation.ofIntent timestamptz intent).row.checks with
  | false => simp [hc, outcomeAnswer, Except.map] at h
  | true =>
      cases ht : taken table (Creation.ofIntent timestamptz intent).row with
      | false =>
          -- both keys are free, and the row is written
          simp only [hc, ht, Bool.not_true, Bool.not_false, Bool.false_eq_true, if_false, if_true]
            at h ⊢
          cases h
          refine ⟨⟨_, _, rfl, Keyed.lookup_put_self _ _, PgRow.decode_of_checks hc⟩, ?_⟩
          exact .created ht
      | true =>
          -- a key is in use: there has to be one row, of the same intent
          simp only [hc, ht, Bool.not_true, Bool.false_eq_true, if_false] at h ⊢
          rcases hrows : table.filter (sharesKey (Creation.ofIntent timestamptz intent).intent)
            with _ | ⟨row, _ | ⟨row', rows⟩⟩
          · simp [hrows, outcomeAnswer, Except.map] at h
          · simp only [hrows] at h ⊢
            have hmem : row ∈ table := List.mem_of_mem_filter (hrows ▸ List.mem_singleton_self row)
            cases hsame : sameIntent row.record (Creation.ofIntent timestamptz intent).intent with
            | false => simp [hsame, outcomeAnswer, Except.map] at h
            | true =>
                simp only [hsame, if_true] at h ⊢
                cases h
                exact ⟨⟨_, row, rfl, Keyed.lookup_of_mem hs.unique.keys hmem,
                  PgRow.decode_of_checks (hs.checked row hmem)⟩, rfl⟩
          · simp [hrows, outcomeAnswer, Except.map] at h

theorem Transition.outcome_succeeds {table : Table} (hs : Sound table) {call : Call}
    {t : Transition Answer} (ht : t.Performs call) {now : Int} {reply : Reply}
    (h : settledAnswer (t.outcome now table).1 = .ok (.ok reply)) :
    call.Succeeds timestamptz now table reply (t.outcome now table).2 := by
  unfold Transition.outcome at h ⊢
  cases hrow : lookup table t.requestId with
  | none => simp [hrow, settledAnswer, Except.map] at h
  | some row =>
      simp only [hrow] at h ⊢
      cases hr : t.refusal now row with
      | some failure => simp [hr, settledAnswer, Except.map] at h
      | none =>
          -- it is not refused, so it was pending
          simp only [hr] at h ⊢
          cases hc : (row.settle t.set now).checks with
          | false => simp [hc, settledAnswer, Except.map] at h
          | true =>
              simp only [hc, Bool.not_true, Bool.false_eq_true, if_false] at h ⊢
              cases h
              refine ⟨⟨_, _, rfl, Keyed.lookup_put_self _ _, PgRow.decode_of_checks hc⟩, ?_⟩
              exact .settled ht.settles hrow (t.pending_of_refusal ht (hs.checks_of_lookup hrow) hr)

variable (timestamptz)

/-- What a call makes of a sound table when it succeeds alone. -/
theorem Call.alone_succeeds {table : Table} (hs : Sound table) (clock : Clock) {call : Call}
    (hw : call.writes = true) {reply : Reply}
    (h : (call.alone timestamptz clock table).1 = .ok (.ok reply)) :
    call.Succeeds timestamptz clock.transactionTimestamp table reply
      (call.alone timestamptz clock table).2 := by
  cases call.kind with
  | request intent =>
      rw [Call.alone_request timestamptz clock hs] at h ⊢
      exact Creation.outcome_succeeds hs h
  | read requestId requester => cases hw
  | @transition _ t ht =>
      rw [ht.alone timestamptz clock hs] at h ⊢
      exact Transition.outcome_succeeds hs ht h

/-- What a call leaves of a table when some of its steps fail. -/
structure AllOrNothing (now : Int) (call : Call) (table : Table)
    (answer : Answer) (m : Monitored) : Prop where
  /-- A refusal changes nothing. -/
  refused : ∀ failure, answer = .ok (.error failure) → m.session.table = table
  /-- Nor does an error before the commit. -/
  early : ∀ e, answer = .error e → m.submitted = false → m.session.table = table
  /-- An error of the commit leaves nothing or everything done. -/
  late : ∀ e, answer = .error e → m.submitted = true →
    m.session.table = table ∨ call.Completes timestamptz now table m.session.table
  /-- Success is a commit that was acknowledged, and the reply is the committed row. -/
  success : ∀ reply, answer = .ok (.ok reply) → m.acknowledged = true
    ∧ call.Succeeds timestamptz now table reply m.session.table

/-- The attempt of a call against the call alone. -/
theorem Call.attempted (clock : Clock) (plan : Nat → Option Fault) {call : Call}
    (hw : call.writes = true) (table : Table) :
    Attempted table (Prog.run (Session.perform clock) (call.prog timestamptz) (Session.idle table))
      (call.attempt timestamptz clock plan table).1 (call.attempt timestamptz clock plan table).2 :=
  (Call.commitLast timestamptz hw).attempt clock plan (Monitored.idle table)

theorem Call.allOrNothing {table : Table} (hs : Sound table) (clock : Clock)
    (plan : Nat → Option Fault) {call : Call} (hw : call.writes = true) :
    AllOrNothing timestamptz clock.transactionTimestamp call table
      (call.attempt timestamptz clock plan table).1
      (call.attempt timestamptz clock plan table).2 := by
  have hsucceeds : ∀ reply, (call.alone timestamptz clock table).1 = .ok (.ok reply) →
      call.Succeeds timestamptz clock.transactionTimestamp table reply
        (call.alone timestamptz clock table).2 :=
    fun reply h => call.alone_succeeds timestamptz hs clock hw h
  have hunchanged := (Call.commitLast timestamptz hw).unchanged clock (Session.idle table)
  cases Call.attempted timestamptz clock plan hw table with
  | alike hanswer htable hacknowledged =>
      -- no fault was met: the attempt is the call alone
      have hsame : (∀ reply, (call.attempt timestamptz clock plan table).1 ≠ .ok (.ok reply)) →
          (call.attempt timestamptz clock plan table).2.session.table = table := by
        intro hne
        rw [hanswer] at hne
        exact htable.trans (hunchanged hne)
      refine ⟨fun failure h => hsame ?_, fun e h _ => hsame ?_, fun e h _ => Or.inl (hsame ?_),
        fun reply h => ⟨hacknowledged reply h, ?_⟩⟩
      · intro reply hr
        cases h.symm.trans hr
      · intro reply hr
        cases h.symm.trans hr
      · intro reply hr
        cases h.symm.trans hr
      · rw [htable]
        exact hsucceeds reply (hanswer.symm.trans h)
  | failed hanswer htable =>
      obtain ⟨e, he⟩ := hanswer
      -- the fault came before the commit was sent
      exact ⟨fun _ _ => htable, fun _ _ _ => htable, fun _ _ _ => Or.inl htable,
        fun reply h => by cases he.symm.trans h⟩
  | unanswered hanswer hsubmitted hdone htable =>
      obtain ⟨e, he⟩ := hanswer
      -- the commit was carried out, and its acknowledgement lost
      obtain ⟨reply, hreply⟩ := hdone
      refine ⟨fun _ h => (by cases he.symm.trans h), fun _ _ h => ?_, fun _ _ _ => ?_,
        fun _ h => (by cases he.symm.trans h)⟩
      · rw [hsubmitted] at h
        cases h
      · have hchange := (hsucceeds reply hreply).change
        rw [htable]
        cases hr : reply.repeated with
        | true =>
            rw [hr] at hchange
            exact Or.inl hchange
        | false =>
            rw [hr] at hchange
            exact Or.inr hchange

theorem Call.attempt_table (clock : Clock) (plan : Nat → Option Fault) (call : Call)
    (table : Table) : (call.attempt timestamptz clock plan table).2.session.table = table
      ∨ (call.attempt timestamptz clock plan table).2.session.table
        = (call.alone timestamptz clock table).2 := by
  cases hw : call.writes with
  | true =>
      cases Call.attempted timestamptz clock plan hw table with
      | alike hanswer htable => exact Or.inr htable
      | failed hanswer htable => exact Or.inl htable
      | unanswered hanswer hsubmitted hdone htable => exact Or.inr htable
  | false =>
      -- a read changes nothing
      left
      unfold Call.attempt
      cases call.kind with
      | request intent => cases hw
      | read requestId requester =>
          rw [prog_read]
          exact Inspection.attempt_table clock plan _ (Monitored.idle table)
      | @transition _ t ht =>
          rw [ht.writes] at hw
          cases hw

/-- Calls and failures leave only sound tables. -/
theorem Reached.sound {table : Table} (h : Reached timestamptz table) : Sound table := by
  induction h with
  | empty => exact sound_nil
  | call clock plan call h ih =>
      rcases Call.attempt_table timestamptz clock plan call _ with hsame | hdone
      · rw [hsame]
        exact ih
      · rw [hdone]
        exact call.alone_sound timestamptz clock ih

end Calls

/-! ## Asking again after a failure -/

section Reissue

variable {timestamptz : Int → Int} {table : Table} {intent : RequestIntent}

/-- The row of an admissible intent is within the constraints, and is its approval. -/
theorem ofIntent_of_admissible (hexact : Exact timestamptz)
    (ha : ApprovalService.Admissible (.request intent)) :
    (PgRow.ofIntent timestamptz intent).checks = true
      ∧ (PgRow.ofIntent timestamptz intent).record = .ofIntent intent :=
  (Creation.ofIntent timestamptz intent).row_of_admissible hexact ha

/-- A request finds its keys free and creates its row. -/
theorem alone_created (hexact : Exact timestamptz)
    (ha : ApprovalService.Admissible (.request intent)) (hs : Sound table)
    (hfree : taken table (.ofIntent timestamptz intent) = false) (clock : Clock) :
    (Call.request intent).alone timestamptz clock table
      = (.ok (.ok (.outcome ⟨true, .ofIntent intent⟩)),
        Keyed.put PgRow.requestId table (.ofIntent timestamptz intent)) := by
  obtain ⟨hc, hrec⟩ := ofIntent_of_admissible hexact ha
  have houtcome : (Creation.ofIntent timestamptz intent).outcome table
      = (.ok (.ok ⟨true, .ofIntent intent⟩),
        Keyed.put PgRow.requestId table (.ofIntent timestamptz intent)) := by
    simp only [Creation.outcome, Creation.row, Creation.ofIntent, hc, hrec, hfree, Bool.not_true,
      Bool.not_false, Bool.false_eq_true, if_false, if_true]
  rw [Call.alone_request timestamptz clock hs, houtcome]
  rfl

/-- A request finds the row of its own intent and repeats it. -/
theorem alone_repeated (hexact : Exact timestamptz)
    (ha : ApprovalService.Admissible (.request intent)) (hs : Sound table) {row : PgRow}
    (hrow : lookup table intent.requestId = some row)
    (hsame : sameIntent row.record intent = true) (clock : Clock) :
    (Call.request intent).alone timestamptz clock table
      = (.ok (.ok (.outcome ⟨false, row.record⟩)), table) := by
  obtain ⟨hc, -⟩ := ofIntent_of_admissible hexact ha
  -- its id is in use, by the row
  have ht : taken table (.ofIntent timestamptz intent) = true := by
    refine List.any_eq_true.mpr ⟨row, Keyed.mem_of_lookup hrow, ?_⟩
    simp only [Bool.or_eq_true, beq_iff_eq]
    exact Or.inl (requestId_of_lookup hrow)
  have hrep : Represents table (fun id => (lookup table id).map PgRow.record) := ⟨hs, fun _ => rfl⟩
  have hledger : Ledger.request (fun id => (lookup table id).map PgRow.record) intent
      = (.ok ⟨false, row.record⟩, fun id => (lookup table id).map PgRow.record) :=
    Ledger.request_of_sameIntent (by rw [hrow, Option.map_some]) hsame
  obtain ⟨hanswer, htable, -⟩ := (Creation.ofIntent timestamptz intent).resolve_refines hrep hc ht
  rw [show (Creation.ofIntent timestamptz intent).intent = intent from rfl, hledger] at hanswer
  rw [Call.alone_request timestamptz clock hs, hanswer, htable]
  rfl

/-- What the same request does after an attempt, with nothing in between. -/
structure Reissued (timestamptz : Int → Int) (clock : Clock) (intent : RequestIntent)
    (table after : Table) : Prop where
  /-- The attempt had not committed: the request creates the approval. -/
  created : after = table → (Call.request intent).alone timestamptz clock after
    = (.ok (.ok (.outcome ⟨true, .ofIntent intent⟩)),
      Keyed.put PgRow.requestId table (.ofIntent timestamptz intent))
  /-- It had: the request repeats the row that was committed. -/
  repeated : after ≠ table → ∃ row approval, lookup after intent.requestId = some row
    ∧ decodeApproval row = .ok approval
    ∧ (Call.request intent).alone timestamptz clock after
      = (.ok (.ok (.outcome ⟨false, approval⟩)), after)

theorem reissued (hexact : Exact timestamptz)
    (ha : ApprovalService.Admissible (.request intent)) (hs : Sound table)
    (hfree : taken table (.ofIntent timestamptz intent) = false) (clock again : Clock)
    (plan : Nat → Option Fault) :
    Reissued timestamptz again intent table
      ((Call.request intent).attempt timestamptz clock plan table).2.session.table := by
  obtain ⟨hc, hrec⟩ := ofIntent_of_admissible hexact ha
  refine ⟨fun hsame => ?_, fun hchanged => ?_⟩
  · rw [hsame]
    exact alone_created hexact ha hs hfree again
  · -- the only change an attempt can have made is the whole creation
    rcases Call.attempt_table timestamptz clock plan (.request intent) table with hsame | hdone
    · exact absurd hsame hchanged
    · rw [hdone, alone_created hexact ha hs hfree clock]
      have hlook : lookup (Keyed.put PgRow.requestId table (.ofIntent timestamptz intent))
          intent.requestId = some (.ofIntent timestamptz intent) := Keyed.lookup_put_self _ _
      refine ⟨_, _, hlook, PgRow.decode_of_checks hc, ?_⟩
      refine alone_repeated hexact ha (hs.put_fresh hfree hc) hlook ?_ again
      rw [hrec]
      exact StoredApproval.sameIntent_ofIntent intent

end Reissue

/--
**Writes are all or nothing.**

Every call, on every table, with failures at any of its steps; and a request whose
keys were free, sent by the service, and sent again when the first attempt is over.
-/
structure WritesAtomic {Ctx : Type} (deps : Deps Ctx) (config : ApprovalPolicy) : Prop where
  call : ∀ table, Reached deps.timestamptz table → ∀ clock plan call, call.writes = true →
    AllOrNothing deps.timestamptz clock.transactionTimestamp call table
      (call.attempt deps.timestamptz clock plan table).1
      (call.attempt deps.timestamptz clock plan table).2
  reissue : ∀ table, Reached deps.timestamptz table → ∀ context body intent,
    ApprovalService.Sends deps config (.request context body) (.request intent) →
    taken table (.ofIntent deps.timestamptz intent) = false → ∀ clock again plan,
    Reissued deps.timestamptz again intent table
      ((Call.request intent).attempt deps.timestamptz clock plan table).2.session.table

end BusinessApproval.Postgres
