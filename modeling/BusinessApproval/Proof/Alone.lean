import BusinessApproval.Proof.Rows

/-!
# The storage functions, run alone

Run with nothing beside it on a sound table, each storage function is a function
of the table: `outcome` gives its answer and the table it leaves. No decoding
fails, and a table stays sound.
-/

namespace BusinessApproval.Postgres

variable {β : Type}

/-! ## Transitions -/

/-- Why a transition is refused on a row at an instant, the deadline included. -/
def Transition.refusal (t : Transition β) (now : Int) (row : PgRow) : Option DomainFailure :=
  match t.refuse row.record with
  | some failure => some failure
  | none => if t.deadline ∧ ¬ row.expiresAt ≤ now then some .notDue else none

/-- What a transition answers and leaves, at the timestamp of its transaction. -/
def Transition.outcome (t : Transition β) (now : Int) (table : Table) :
    Except StorageError (Except DomainFailure StoredApproval) × Table :=
  match lookup table t.requestId with
  | none => (.ok (.error .requestNotFound), table)
  | some row =>
      match t.refusal now row with
      | some failure => (.ok (.error failure), table)
      | none =>
          let row := row.settle t.set now
          if !row.checks then (.error (.database t.updateName checkViolation), table)
          else (.ok (.ok row.record), Keyed.put PgRow.requestId table row)

section Alone

variable (clock : Clock) {table rows : Table} (t : Transition β)

/-- The run from `write` on, in a transaction that sees the row. -/
theorem Transition.run_write (table : Table) {row : PgRow} (hrow : lookup rows t.requestId = some row) :
    ∃ tx, Prog.run (Session.perform clock) t.write
        ⟨table, some ⟨clock.transactionTimestamp, rows⟩⟩
      = if !(row.settle t.set clock.transactionTimestamp).checks then
          (t.wrap (.error (.database t.updateName checkViolation)), ⟨table, tx⟩)
        else (t.wrap (.ok (.ok (row.settle t.set clock.transactionTimestamp).record)),
          ⟨Keyed.put PgRow.requestId rows (row.settle t.set clock.transactionTimestamp), tx⟩) := by
  refine ⟨none, ?_⟩
  cases hc : (row.settle t.set clock.transactionTimestamp).checks with
  | false =>
      simp [Transition.write, Transition.fail, Session.perform, Session.within,
        Transaction.update, hrow, hc]
  | true =>
      simp [Transition.write, Transition.decodeWritten, Transition.finish, Session.perform,
        Session.within, Transaction.update, hrow, hc, PgRow.decode_of_checks hc]

theorem Transition.run_start (hs : Sound table) :
    (Prog.run (Session.perform clock) t.start (Session.idle table)).1
        = t.wrap (t.outcome clock.transactionTimestamp table).1
      ∧ (Prog.run (Session.perform clock) t.start (Session.idle table)).2.table
        = (t.outcome clock.transactionTimestamp table).2 := by
  unfold Transition.outcome
  cases hrow : lookup table t.requestId with
  | none =>
      simp [Transition.start, Transition.lock, Transition.refused, Session.perform,
        Session.within, Session.idle, hs.filter_id, hrow]
  | some row =>
      have hdec := PgRow.decode_of_checks (hs.checks_of_lookup hrow)
      obtain ⟨tx, hwrite⟩ := t.run_write clock table hrow
      simp only [Transition.start, Transition.lock, Transition.decodeLocked, Transition.settle,
        Transition.refusal, Prog.run_call, Session.perform, Session.within, Session.idle,
        hs.filter_id, hrow, Option.toList_some, hdec]
      cases hr : t.refuse row.record with
      | some failure => simp [Transition.refused]
      | none =>
          cases hdl : t.deadline with
          | false =>
              -- no clock is asked
              simp only [Bool.false_eq_true, false_and, if_false, hwrite]
              split <;> exact ⟨rfl, rfl⟩
          | true =>
              -- due, or early, at the time of the transaction
              by_cases hdue : row.expiresAt ≤ clock.transactionTimestamp
              · simp only [Transition.checkDue, Prog.run_call, Session.perform, Session.within,
                  Transaction.due, hrow, Option.toList_some, List.map_cons, List.map_nil, hdue,
                  decide_true, if_true, not_true_eq_false, and_false, if_false, hwrite]
                split <;> exact ⟨rfl, rfl⟩
              · simp [Transition.checkDue, Session.perform, Session.within, Transaction.due, hrow,
                  hdue, Transition.refused]

section Outcomes

variable (t : Transition β) {table : Table} {row : PgRow} {now : Int}

theorem Transition.outcome_missing (hrow : lookup table t.requestId = none) :
    t.outcome now table = (.ok (.error .requestNotFound), table) := by
  rw [Transition.outcome, hrow]

theorem Transition.outcome_refused {failure : DomainFailure}
    (hrow : lookup table t.requestId = some row) (hr : t.refusal now row = some failure) :
    t.outcome now table = (.ok (.error failure), table) := by
  simp only [Transition.outcome, hrow, hr]

theorem Transition.outcome_settled (hrow : lookup table t.requestId = some row)
    (hr : t.refusal now row = none) (hc : (row.settle t.set now).checks = true) :
    t.outcome now table = (.ok (.ok (row.settle t.set now).record),
      Keyed.put PgRow.requestId table (row.settle t.set now)) := by
  simp only [Transition.outcome, hrow, hr, hc, Bool.not_true, Bool.false_eq_true, if_false]

/-- The ways a transition ends on a table. -/
inductive Transition.Ends (now : Int) (table : Table) :
    Except StorageError (Except DomainFailure StoredApproval) × Table → Prop
  | missing (hrow : lookup table t.requestId = none) :
      Ends now table (.ok (.error .requestNotFound), table)
  | refused {row : PgRow} {failure : DomainFailure} (hrow : lookup table t.requestId = some row)
      (hr : t.refusal now row = some failure) : Ends now table (.ok (.error failure), table)
  | violated {row : PgRow} (hrow : lookup table t.requestId = some row)
      (hr : t.refusal now row = none) (hc : (row.settle t.set now).checks = false) :
      Ends now table (.error (.database t.updateName checkViolation), table)
  | settled {row : PgRow} (hrow : lookup table t.requestId = some row)
      (hr : t.refusal now row = none) (hc : (row.settle t.set now).checks = true) :
      Ends now table (.ok (.ok (row.settle t.set now).record),
        Keyed.put PgRow.requestId table (row.settle t.set now))

theorem Transition.ends (now : Int) (table : Table) : t.Ends now table (t.outcome now table) := by
  unfold Transition.outcome
  cases hrow : lookup table t.requestId with
  | none => exact .missing hrow
  | some row =>
      cases hr : t.refusal now row with
      | some failure =>
          simp only [hr]
          exact .refused hrow hr
      | none =>
          cases hc : (row.settle t.set now).checks with
          | false =>
              simp only [hr, hc, Bool.not_false, if_true]
              exact .violated hrow hr hc
          | true =>
              simp only [hr, hc, Bool.not_true, Bool.false_eq_true, if_false]
              exact .settled hrow hr hc

end Outcomes

theorem Transition.outcome_sound (now : Int) (hs : Sound table) :
    Sound (t.outcome now table).2 := by
  unfold Transition.outcome
  cases hrow : lookup table t.requestId with
  | none => exact hs
  | some row =>
      -- the row keeps its key
      have hkey : (row.settle t.set now).requestId = t.requestId :=
        (PgRow.settle_requestId _ _ _).trans (requestId_of_lookup hrow)
      simp only
      cases t.refusal now row with
      | some failure => exact hs
      | none =>
          simp only
          cases hc : (row.settle t.set now).checks with
          | false => exact hs
          | true =>
              have hold : lookup table (row.settle t.set now).requestId = some row := by
                rw [hkey, hrow]
              exact hs.put_same hold rfl hc

end Alone

/-! ## Creation -/

/-- What a creation answers and leaves. -/
def Creation.outcome (c : Creation β) (table : Table) :
    Except StorageError (Except DomainFailure RequestOutcome) × Table :=
  if !c.row.checks then (.error (.database "create approval request" checkViolation), table)
  else if !taken table c.row then
    (.ok (.ok ⟨true, c.row.record⟩), Keyed.put PgRow.requestId table c.row)
  else
    match table.filter (sharesKey c.intent) with
    | [] => (.error .inconsistentIdempotency, table)
    | [row] =>
        if sameIntent row.record c.intent then (.ok (.ok ⟨false, row.record⟩), table)
        else (.ok (.error .idempotencyConflict), table)
    | _ => (.ok (.error .idempotencyConflict), table)

section Outcomes

variable (c : Creation β) {table : Table}

theorem Creation.outcome_created (hc : c.row.checks = true) (hfree : taken table c.row = false) :
    c.outcome table = (.ok (.ok ⟨true, c.row.record⟩), Keyed.put PgRow.requestId table c.row) := by
  simp only [Creation.outcome, hc, hfree, Bool.not_true, Bool.not_false, Bool.false_eq_true,
    if_false, if_true]

theorem taken_of_sharesKey {row : PgRow} (hrow : row ∈ table)
    (hshare : sharesKey c.intent row = true) : taken table c.row = true := by
  refine List.any_eq_true.mpr ⟨row, hrow, ?_⟩
  simp only [sharesKey, Bool.or_eq_true, Bool.and_eq_true, beq_iff_eq] at hshare ⊢
  rcases hshare with ⟨hinstance, hkey⟩ | hid
  · exact Or.inr (Prod.ext hinstance hkey)
  · exact Or.inl hid

/-- Two rows that share a key with an intent are one, if one of them has the intent. -/
theorem eq_of_sameIntent (hs : Sound table) {intent : RequestIntent} {row row' : PgRow}
    (hrow : row ∈ table) (hrow' : row' ∈ table) (hsame : sameIntent row.record intent = true)
    (hshare : sharesKey intent row' = true) : row' = row := by
  obtain ⟨hid, hinstance, hkey, -⟩ := sameIntent_iff.mp hsame
  simp only [sharesKey, Bool.or_eq_true, Bool.and_eq_true, beq_iff_eq] at hshare
  rcases hshare with ⟨hinstance', hkey'⟩ | hid'
  · exact Keyed.eq_of_alt hs.unique.alts hrow' hrow
      (Prod.ext (hinstance'.trans hinstance.symm) (hkey'.trans hkey.symm))
  · exact List.inj_on_of_nodup_map hs.unique.keys hrow' hrow (hid'.trans hid.symm)

/-- What a creation answers when it finds these rows. -/
def resolveRows (intent : RequestIntent) : List PgRow → Except DomainFailure RequestOutcome
  | [row] =>
      if sameIntent row.record intent then .ok ⟨false, row.record⟩ else .error .idempotencyConflict
  | _ => .error .idempotencyConflict

theorem resolveRows_conflict {intent : RequestIntent} {rows : List PgRow}
    (h : ∀ row ∈ rows, ¬ sameIntent row.record intent = true) :
    resolveRows intent rows = .error .idempotencyConflict := by
  match rows with
  | [] => rfl
  | [row] => exact if_neg (h row (List.mem_singleton_self row))
  | _ :: _ :: _ => rfl

theorem Creation.outcome_taken (hc : c.row.checks = true) (ht : taken table c.row = true)
    (hne : table.filter (sharesKey c.intent) ≠ []) :
    c.outcome table = (.ok (resolveRows c.intent (table.filter (sharesKey c.intent))), table) := by
  simp only [Creation.outcome, hc, ht, Bool.not_true, Bool.false_eq_true, if_false]
  match hrows : table.filter (sharesKey c.intent) with
  | [] => exact absurd hrows hne
  | [row] =>
      simp only [resolveRows]
      split <;> rfl
  | _ :: _ :: _ => rfl

/-- Some of the rows that share a key are enough to tell what a creation answers. -/
theorem Creation.outcome_found (hs : Sound table) (hc : c.row.checks = true)
    {rows : List PgRow} (hne : rows ≠ [])
    (hrows : ∀ row ∈ rows, row ∈ table ∧ sharesKey c.intent row = true)
    (hnodup : (rows.map PgRow.requestId).Nodup) :
    c.outcome table = (.ok (resolveRows c.intent rows), table) := by
  have hsub : ∀ row ∈ rows, row ∈ table.filter (sharesKey c.intent) :=
    fun row hrow => List.mem_filter.mpr (hrows row hrow)
  obtain ⟨row, hrow⟩ := List.exists_mem_of_ne_nil rows hne
  have ht := taken_of_sharesKey c (hrows row hrow).1 (hrows row hrow).2
  rw [c.outcome_taken hc ht (List.ne_nil_of_mem (hsub row hrow))]
  by_cases hsame : ∃ r ∈ table.filter (sharesKey c.intent), sameIntent r.record c.intent = true
  · -- the row with the intent is the only one there is to find
    obtain ⟨r, hr, hsame⟩ := hsame
    have hmem := (List.mem_filter.mp hr).1
    have hall : ∀ s ∈ table.filter (sharesKey c.intent), s = r := fun s hs' =>
      eq_of_sameIntent hs hmem (List.mem_filter.mp hs').1 hsame (List.mem_filter.mp hs').2
    have hfilter : table.filter (sharesKey c.intent) = [r] :=
      Keyed.filter_eq_singleton hs.unique.keys hmem (List.mem_filter.mp hr).2
        (fun s hs' hshare => hall s (List.mem_filter.mpr ⟨hs', hshare⟩))
    have hrows' : rows = [r] := by
      match rows with
      | [] => exact absurd rfl hne
      | [s] => rw [hall s (hsub s (List.mem_singleton_self s))]
      | s :: s' :: rest =>
          have h := hall s (hsub s (by simp))
          have h' := hall s' (hsub s' (by simp))
          simp [h, h'] at hnodup
    rw [hfilter, hrows']
  · have hnone : ∀ s ∈ table.filter (sharesKey c.intent), ¬ sameIntent s.record c.intent = true :=
      fun s hs' h => hsame ⟨s, hs', h⟩
    rw [resolveRows_conflict hnone, resolveRows_conflict fun s hs' => hnone s (hsub s hs')]

end Outcomes

section Alone

variable (clock : Clock) {table : Table} (c : Creation β)

theorem Creation.run_start (hs : Sound table) :
    (Prog.run (Session.perform clock) c.start (Session.idle table)).1
        = c.wrap (c.outcome table).1
      ∧ (Prog.run (Session.perform clock) c.start (Session.idle table)).2.table
        = (c.outcome table).2 := by
  unfold Creation.outcome
  cases hc : c.row.checks with
  | false =>
      simp [Creation.start, Creation.insert, Creation.fail, Session.perform, Session.within,
        Session.idle, Transaction.insert, hc]
  | true =>
      cases ht : taken table c.row with
      | false =>
          simp [Creation.start, Creation.insert, Creation.decodeInserted, Creation.finish,
            Session.perform, Session.within, Session.idle, Transaction.insert, hc, ht,
            PgRow.decode_of_checks hc]
      | true =>
          -- a key is in use, and the rows that use one are looked at
          simp only [Creation.start, Creation.insert, Creation.select, Prog.run_call,
            Session.perform, Session.within, Session.idle, Transaction.insert, hc, ht,
            Bool.not_true, Bool.false_eq_true, if_false, if_true]
          match hrows : table.filter (sharesKey c.intent) with
          | [] => exact ⟨rfl, rfl⟩
          | [row] =>
              have hmem : row ∈ table := List.mem_of_mem_filter (hrows ▸ List.mem_singleton_self row)
              have hdec := PgRow.decode_of_checks (hs.checked row hmem)
              cases hsame : sameIntent row.record c.intent with
              | false =>
                  simp [Creation.resolve, Creation.decodeExisting, Creation.compare,
                    Creation.conflict, Session.perform, hdec, hsame]
              | true =>
                  simp [Creation.resolve, Creation.decodeExisting, Creation.compare,
                    Creation.finish, Session.perform, hdec, hsame]
          | _ :: _ :: _ => exact ⟨rfl, rfl⟩

theorem Creation.outcome_sound (hs : Sound table) : Sound (c.outcome table).2 := by
  unfold Creation.outcome
  cases hc : c.row.checks with
  | false => exact hs
  | true =>
      cases ht : taken table c.row with
      | false => exact hs.put_fresh ht hc
      | true =>
          simp only [Bool.not_true, Bool.false_eq_true, if_false]
          split
          · exact hs
          · split <;> exact hs
          · exact hs

end Alone

/-! ## Reading -/

/-- What a read answers. -/
def Inspection.outcome (i : Inspection β) (table : Table) : Option StoredApproval :=
  ((lookup table i.requestId).filter i.condition).map PgRow.record

theorem Sound.filter_condition {table : Table} (hs : Sound table) (i : Inspection β) :
    table.filter i.condition = ((lookup table i.requestId).filter i.condition).toList := by
  refine Keyed.filter_of_key hs.unique.keys (fun row hrow => ?_)
  simp only [Inspection.condition, Bool.and_eq_true, beq_iff_eq] at hrow
  exact hrow.1

theorem Inspection.run_start (clock : Clock) (i : Inspection β) {table : Table}
    (hs : Sound table) :
    Prog.run (Session.perform clock) i.start (Session.idle table)
      = (i.wrap (.ok (i.outcome table)), Session.idle table) := by
  unfold Inspection.outcome
  simp only [Inspection.start, Prog.run_call, Session.perform, Session.idle, hs.filter_condition]
  cases hrow : (lookup table i.requestId).filter i.condition with
  | none => rfl
  | some row =>
      have hlook : lookup table i.requestId = some row := (Option.filter_eq_some_iff.mp hrow).1
      have hdec := PgRow.decode_of_checks (hs.checks_of_lookup hlook)
      simp [Inspection.decodeFound, Session.perform, hdec]

end BusinessApproval.Postgres
