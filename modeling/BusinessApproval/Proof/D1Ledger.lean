import BusinessApproval.Proof.D1Rows

/-!
# D1 implements the ledger

A table whose keys are unique and whose rows stand for approvals represents the
ledger of those approvals. Every store method, run alone on the table, answers
what the same method answers on the ledger, and the table it leaves represents the
ledger that is left: `alone_refines`. The guesses of `classify` about why an
`UPDATE` changed nothing are thereby right.
-/

namespace BusinessApproval.D1

/-- A table, and the ledger it stands for. -/
structure Represents (time : TimeCrate) (table : Table) (L : Ledger) : Prop where
  unique : Keyed.Unique D1Row.requestId D1Row.pair table
  rows : ∀ row ∈ table, ∃ a, StandsFor time row a
  ledger : ∀ id, L id = (lookup table id).bind fun row => StoredApproval.ofJson time row.recordJson

/-- The instants a D1 call works with. -/
def Clock.moments (clock : Clock) : Moments where
  now := clock.dateNow * 1000000
  settled := clock.newDate * 1000000
  due := clock.dateNow * 1000000

section

variable {time : TimeCrate} {table : Table} {L : Ledger} {clock : Clock}

theorem represents_nil (time : TimeCrate) : Represents time [] (fun _ => none) :=
  ⟨Keyed.unique_nil, by simp, fun _ => rfl⟩

namespace Represents

/-- The row with an id stands for the ledger's approval under it. -/
theorem of_lookup (h : Represents time table L) {id : String} {row : D1Row}
    (hrow : lookup table id = some row) : ∃ a, L id = some a ∧ StandsFor time row a := by
  obtain ⟨a, ha⟩ := h.rows row (Keyed.mem_of_lookup hrow)
  exact ⟨a, by rw [h.ledger, hrow]; exact ha.decodes, ha⟩

theorem of_lookup_none (h : Represents time table L) {id : String}
    (hrow : lookup table id = none) : L id = none := by
  rw [h.ledger, hrow]
  rfl

theorem exists_row (h : Represents time table L) {id : String} {a : StoredApproval}
    (ha : L id = some a) : ∃ row, lookup table id = some row ∧ StandsFor time row a := by
  cases hrow : lookup table id with
  | none => rw [h.of_lookup_none hrow] at ha; cases ha
  | some row =>
      obtain ⟨b, hb, hstands⟩ := h.of_lookup hrow
      rw [ha] at hb
      exact ⟨row, rfl, Option.some.inj hb ▸ hstands⟩

/-- Writing a row is writing the approval it stands for. -/
theorem put (h : Represents time table L) {row : D1Row} {a : StoredApproval}
    (hrow : StandsFor time row a)
    (hu : Keyed.Unique D1Row.requestId D1Row.pair (Keyed.put D1Row.requestId table row)) :
    Represents time (Keyed.put D1Row.requestId table row)
      (Function.update L row.requestId (some a)) := by
  refine ⟨hu, fun r hr => ?_, fun id => ?_⟩
  · rcases Keyed.mem_put hr with rfl | hr
    · exact ⟨a, hrow⟩
    · exact h.rows r hr
  · simp only [lookup, Keyed.lookup_put, Function.update_apply]
    -- only this id has changed
    by_cases hid : id = row.requestId
    · rw [if_pos hid, if_pos hid]
      exact hrow.decodes.symm
    · rw [if_neg hid, if_neg hid]
      exact h.ledger id

end Represents

/-! ## Genuine answers -/

theorem assertBatch_reply {changes : Nat} (h : changes ≤ 1) (rows : List D1Row) :
    assertBatch (batchReply changes rows) = .ok () := by
  rcases Nat.le_one_iff_eq_zero_or_eq_one.mp h with rfl | rfl
  · rfl
  · rfl

theorem changedOne_reply (changes : Nat) (h : changes ≤ 1) (rows : List D1Row) :
    changedOne (batchReply changes rows) = (changes == 1) := by
  rcases Nat.le_one_iff_eq_zero_or_eq_one.mp h with rfl | rfl
  · rfl
  · rfl

theorem resultsOf_reply (changes : Nat) (rows : List D1Row) :
    resultsOf (batchReply changes rows) = rows.map D1Row.toJson := rfl

theorem decode_row (row : D1Row) : decode (some row.toJson) = .ok row.recordJson := rfl

theorem optionalApproval_of_standsFor {row : D1Row} {a : StoredApproval}
    (h : StandsFor time row a) : optionalApproval time (some row.recordJson) = some (some a) := by
  have hdecodes := h.decodes
  obtain ⟨fields, hobj⟩ := h.isObj
  rw [hobj] at hdecodes ⊢
  change (StoredApproval.ofJson time (.obj fields)).map some = some (some a)
  rw [hdecodes, Option.map_some]

/-- What the rows a `SELECT` finds stand for, at most one of them. -/
inductive Shows (time : TimeCrate) : Option D1Row → Option StoredApproval → Prop
  | none : Shows time none none
  | some {row : D1Row} {a : StoredApproval} (h : StandsFor time row a) :
      Shows time (some row) (some a)

/-- A transition concludes from a genuine answer by the changes and the one row it shows. -/
theorem concludeTransition_reply (kind : Kind) (caller : String) {changes : Nat}
    (h : changes ≤ 1) {found : Option D1Row} {approval : Option StoredApproval}
    (hshows : Shows time found approval) :
    concludeTransition time kind caller (.ok (batchReply changes found.toList))
      = classify kind caller ⟨changes == 1, approval⟩ := by
  -- what the script makes of the reply
  have hvalue : transitionValue (batchReply changes found.toList)
      = .ok (.obj [("changed", .bool (changes == 1)),
        ("approval", (found.map D1Row.recordJson).getD .null)]) := by
    unfold transitionValue
    rw [assertBatch_reply h, resultsOf_reply, changedOne_reply _ h]
    cases found with
    | none => rfl
    | some row => rfl
  -- what is read in that
  have happroval : optionalApproval time (some ((found.map D1Row.recordJson).getD .null))
      = some approval := by
    cases hshows with
    | none => rfl
    | some hstands => exact optionalApproval_of_standsFor hstands
  have hresult : TransitionResult.ofJson time (.obj [("changed", .bool (changes == 1)),
        ("approval", (found.map D1Row.recordJson).getD .null)])
      = some ⟨changes == 1, approval⟩ := by
    unfold TransitionResult.ofJson
    change (do
      let approval ← optionalApproval time (some ((found.map D1Row.recordJson).getD .null))
      some (TransitionResult.mk (changes == 1) approval)) = _
    rw [happroval]
    rfl
  have hbind : (Except.ok (batchReply changes found.toList) >>= transitionValue) = _ := hvalue
  unfold concludeTransition
  simp only [hbind, hresult]

theorem mapM_decode (rows : List D1Row) :
    (rows.map D1Row.toJson).mapM (fun row => decode (some row)) = .ok (rows.map D1Row.recordJson) := by
  induction rows with
  | nil => rfl
  | cons row rows ih =>
      rw [List.map_cons, List.mapM_cons, decode_row, ih]
      rfl

theorem mapM_ofJson {rows : List D1Row}
    (h : ∀ row ∈ rows, StandsFor time row (approvalOf time row)) :
    (rows.map D1Row.recordJson).mapM (StoredApproval.ofJson time)
      = some (rows.map (approvalOf time)) := by
  induction rows with
  | nil => rfl
  | cons row rows ih =>
      rw [List.map_cons, List.mapM_cons, (h row List.mem_cons_self).decodes,
        ih (fun r hr => h r (List.mem_cons_of_mem _ hr))]
      rfl

/-- A creation concludes from a genuine answer by the changes and the rows it shows. -/
theorem concludeRequest_reply (intent : RequestIntent) {changes : Nat} (h : changes ≤ 1)
    {rows : List D1Row} (hrows : ∀ row ∈ rows, StandsFor time row (approvalOf time row)) :
    concludeRequest time intent (.ok (batchReply changes rows))
      = resolve intent ⟨changes == 1, rows.map (approvalOf time)⟩ := by
  -- what the script makes of the reply
  have hvalue : requestValue (batchReply changes rows)
      = .ok (.obj [("created", .bool (changes == 1)), ("rows", .arr (rows.map D1Row.recordJson))]) := by
    unfold requestValue
    rw [assertBatch_reply h, resultsOf_reply, changedOne_reply _ h, mapM_decode]
    rfl
  -- what is read in that
  have hresult : ResultRows.ofJson time (.obj [("created", .bool (changes == 1)),
        ("rows", .arr (rows.map D1Row.recordJson))])
      = some ⟨changes == 1, rows.map (approvalOf time)⟩ := by
    unfold ResultRows.ofJson
    change (do
      let rows ← (rows.map D1Row.recordJson).mapM (StoredApproval.ofJson time)
      some (ResultRows.mk (changes == 1) rows)) = _
    rw [mapM_ofJson hrows]
    rfl
  have hbind : (Except.ok (batchReply changes rows) >>= requestValue) = _ := hvalue
  unfold concludeRequest
  simp only [hbind, hresult]

theorem concludeRead_reply {found : Option D1Row} {approval : Option StoredApproval}
    (hshows : Shows time found approval) :
    concludeRead time (.ok ((found.map D1Row.toJson).getD .null)) = .ok approval := by
  cases hshows with
  | none => rfl
  | @some row a hstands =>
      have hbind : (Except.ok row.toJson >>= fun row => decode (some row))
          = .ok row.recordJson := rfl
      unfold concludeRead
      simp only [Option.map_some, Option.getD_some, hbind, optionalApproval_of_standsFor hstands,
        validateEvidence, hstands.consistent, if_true]
      rfl

/-! ## Transitions -/

theorem key_of_matches {kind : Kind} {input : Input} {now : Int} {row : D1Row}
    (h : Matches kind input now row = true) : row.requestId = input.id := by
  simp only [Matches, Bool.and_eq_true, beq_iff_eq] at h
  exact h.1.1.1

/-- The row a batch's `SELECT … WHERE request_id=?` finds. -/
theorem filter_id (hu : Keyed.Unique D1Row.requestId D1Row.pair table) (id : String) :
    table.filter (fun row => row.requestId == id) = (lookup table id).toList :=
  Keyed.filter_key hu.keys id

/-- The rows an `UPDATE` of a transition changes, and what it leaves. -/
theorem update_apply (hu : Keyed.Unique D1Row.requestId D1Row.pair table) (kind : Kind)
    (input : Input) (hproper : Proper kind input) (date now : Int) :
    (updateOf kind input date now).apply table
      = match (lookup table input.id).filter (Matches kind input now) with
        | some row => .ok (1, Keyed.put D1Row.requestId table (settled kind input date row))
        | none => .ok (0, table) := by
  -- the condition holds of the row with the id, or of none
  have hfilter : table.filter (Matches kind input now)
      = ((lookup table input.id).filter (Matches kind input now)).toList :=
    Keyed.filter_of_key hu.keys (fun _ => key_of_matches)
  have hmap : table.map (fun row => if Matches kind input now row then settled kind input date row
      else row) = ((lookup table input.id).filter (Matches kind input now)).elim table
        (fun row => Keyed.put D1Row.requestId table (settled kind input date row)) :=
    Keyed.map_of_key hu.keys (fun _ => key_of_matches) (fun _ => rfl)
  -- no settled row breaks a constraint, so the write is not refused
  have hstatus : ∀ row, (settled kind input date row).checks = true := by
    intro row
    have hs : (settled kind input date row).status = transitionStatus kind input := rfl
    have hr : (settled kind input date row).revision = 2 := rfl
    unfold D1Row.checks
    rw [hs, hr]
    cases kind with
    | decide =>
        rcases hproper.decided rfl with h | h <;> rw [transitionStatus, h] <;> decide
    | cancel => rfl
    | expire => rfl
  have hany : (table.filter (Matches kind input now)).any
      (fun row => !(settled kind input date row).checks) = false := by
    rw [List.any_eq_false]
    intro row _
    rw [hstatus]
    decide
  unfold updateOf Write.apply
  simp only [hany, Bool.false_eq_true, if_false, hmap]
  rw [hfilter]
  cases (lookup table input.id).filter (Matches kind input now) with
  | none => rfl
  | some row => rfl

/-- What a transition's batch does and answers. -/
theorem runBatch_transition (h : Represents time table L) (kind : Kind) (input : Input)
    (hproper : Proper kind input) (date now : Int) :
    runBatch (updateOf kind input date now) (fun row => row.requestId == input.id) table
      = match lookup table input.id with
        | none => (.ok (batchReply 0 []), table)
        | some row =>
            if Matches kind input now row then
              (.ok (batchReply 1 [settled kind input date row]),
                Keyed.put D1Row.requestId table (settled kind input date row))
            else (.ok (batchReply 0 [row]), table) := by
  unfold runBatch
  rw [update_apply h.unique kind input hproper]
  cases hrow : lookup table input.id with
  | none =>
      simp only [Option.filter_none, filter_id h.unique, hrow]
      rfl
  | some row =>
      have hid : row.requestId = input.id := Keyed.key_of_lookup hrow
      cases hm : Matches kind input now row with
      | false =>
          -- the row does not match, and is shown as it is
          simp only [Option.filter_some, hm, Bool.false_eq_true, if_false, filter_id h.unique, hrow]
          rfl
      | true =>
          -- the row that is shown is the one that the update has left
          have hold : lookup table (settled kind input date row).requestId = some row := by
            rw [← hrow, ← hid]
            rfl
          have hu := h.unique.put_same hold rfl
          have hnew : lookup (Keyed.put D1Row.requestId table (settled kind input date row)) input.id
              = some (settled kind input date row) := by
            rw [← hid]
            exact Keyed.lookup_put_self table (settled kind input date row)
          simp only [Option.filter_some, hm, if_true, filter_id hu, hnew]
          rfl

/-- What a transition must tell apart: the rows its guard lets through, and why not the others. -/
structure Guards (time : TimeCrate) (kind : Kind) (input : Input) (now : Int)
    (refuse : StoredApproval → Option DomainFailure) : Prop where
  guard : ∀ row a, StandsFor time row a → row.requestId = input.id →
    (Matches kind input now row = true ↔ refuse a = none)
  reason : ∀ a failure, evidenceConsistent a = true → refuse a = some failure →
    classify kind input.caller ⟨false, some a⟩ = .ok (.error failure)

/-- A settlement, as the input of a transition of its kind. -/
structure Carries (kind : Kind) (input : Input) (set : Settlement) : Prop where
  status : transitionStatus kind input = set.status.asStr
  caller : input.caller = set.caller
  actor : (if kind == .expire then none else input.actor) = set.actor
  evidence : (if kind == .decide then input.evidence else none) = set.evidenceRef
  reason : (if kind == .expire then none else input.reason) = set.reason
  /-- Settled so, an approval has consistent evidence. -/
  consistent : ∀ (a : StoredApproval) instant, evidenceConsistent (a.settle set instant) = true

theorem Carries.settled_eq {kind : Kind} {input : Input} {set : Settlement}
    (h : Carries kind input set) (date : Int) :
    settled kind input date = D1Row.settle set.status.asStr set.caller set.actor set.evidenceRef
      set.reason (Rfc3339.isoMillis date) := by
  rw [settled, h.status, h.caller, h.actor, h.evidence, h.reason]

theorem classify_changed (kind : Kind) (caller : String) {a : StoredApproval}
    (h : evidenceConsistent a = true) : classify kind caller ⟨true, some a⟩ = .ok (.ok a) := by
  unfold classify
  simp only [validateEvidence, h, if_true]
  rfl

theorem classify_missing (kind : Kind) (caller : String) :
    classify kind caller ⟨false, none⟩ = .ok (.error .requestNotFound) := rfl

/-- What a transition's batch answers and leaves is the ledger's settlement. -/
theorem transition_refines (hiso : ReadsIso time) (h : Represents time table L) {kind : Kind}
    {input : Input} (hproper : Proper kind input) {date now : Int}
    (hdate : BusinessApproval.InYears (date * 1000000)) {set : Settlement}
    {refuse : StoredApproval → Option DomainFailure} (hset : Carries kind input set)
    (hguard : Guards time kind input now refuse) :
    concludeTransition time kind input.caller
        (runBatch (updateOf kind input date now) (fun row => row.requestId == input.id) table).1
      = .ok (L.settle input.id refuse set (date * 1000000)).1
    ∧ Represents time
        (runBatch (updateOf kind input date now) (fun row => row.requestId == input.id) table).2
        (L.settle input.id refuse set (date * 1000000)).2 := by
  rw [runBatch_transition h kind input hproper]
  unfold Ledger.settle
  cases hrow : lookup table input.id with
  | none =>
      rw [h.of_lookup_none hrow]
      refine ⟨?_, h⟩
      exact (concludeTransition_reply kind input.caller (Nat.zero_le 1) .none).trans
        (classify_missing kind input.caller)
  | some row =>
      obtain ⟨a, ha, hstands⟩ := h.of_lookup hrow
      have hid : row.requestId = input.id := Keyed.key_of_lookup hrow
      have hmatch := hguard.guard row a hstands hid
      rw [ha]
      cases hr : refuse a with
      | some failure =>
          -- refused: the guard keeps the update away, and the row that is read says why
          have hm : ¬ Matches kind input now row = true := fun hm => by
            rw [hmatch.mp hm] at hr
            cases hr
          simp only [hm, hr]
          refine ⟨?_, h⟩
          exact (concludeTransition_reply kind input.caller (Nat.zero_le 1) (.some hstands)).trans
            (hguard.reason a failure hstands.consistent hr)
      | none =>
          have hm := hmatch.mpr hr
          -- not refused: the updated row is what the select reads
          have hnew : StandsFor time (settled kind input date row)
              (a.settle set (date * 1000000)) := by
            rw [hset.settled_eq]
            exact hstands.settle hiso set hdate (hset.consistent a _)
          have hold : lookup table (settled kind input date row).requestId = some row := by
            rw [← hrow, ← hid]
            rfl
          simp only [hm, hr, if_true]
          refine ⟨?_, ?_⟩
          · exact (concludeTransition_reply kind input.caller (Nat.le_refl 1) (.some hnew)).trans
              (classify_changed kind input.caller hnew.consistent)
          · rw [← hid]
            exact h.put hnew (h.unique.put_same hold rfl)

/-- The columns a guard looks at. -/
theorem matches_iff {kind : Kind} {input : Input} {now : Int} {row : D1Row} {a : StoredApproval}
    (h : StandsFor time row a) (hid : row.requestId = input.id) :
    Matches kind input now row = true ↔
      a.status = .pending ∧ constraint kind input.caller (microsText now) row = true := by
  simp only [Matches, hid, beq_self_eq_true, Bool.true_and, Bool.and_eq_true, beq_iff_eq,
    ← h.pending_iff]

theorem classify_settled (kind : Kind) {caller : String} {a : StoredApproval}
    (h : evidenceConsistent a = true) (hs : a.status ≠ .pending)
    (hcaller : kind = .cancel → a.requesterInstance = caller) :
    classify kind caller ⟨false, some a⟩ = .ok (.error .alreadyTerminal) := by
  have hown : (kind == .cancel && a.requesterInstance != caller) = false := by
    cases kind with
    | cancel => rw [hcaller rfl]; simp
    | decide => rfl
    | expire => rfl
  unfold classify
  simp only [validateEvidence, h, if_true, hown]
  change (if a.status ≠ .pending then _ else _) = _
  rw [if_pos hs]
  rfl

theorem guards_decide (input : Input) (now : Int) :
    Guards time .decide input now Ledger.refuseSettled where
  guard row a h hid := by
    rw [matches_iff h hid]
    unfold Ledger.refuseSettled
    by_cases hp : a.status = .pending
    · simp [hp, constraint]
    · simp [hp]
  reason a failure hc hr := by
    unfold Ledger.refuseSettled at hr
    split at hr
    next hs =>
      cases hr
      exact classify_settled .decide hc hs (fun hk => by cases hk)
    next => cases hr

theorem guards_cancel (input : Input) (now : Int) :
    Guards time .cancel input now (Ledger.refuseOthers input.caller) where
  guard row a h hid := by
    rw [matches_iff h hid]
    unfold Ledger.refuseOthers Ledger.refuseSettled constraint
    rw [h.requesterInstance]
    by_cases hp : a.status = .pending <;> by_cases hc : a.requesterInstance = input.caller <;>
      simp [hp, hc]
  reason a failure hc hr := by
    unfold Ledger.refuseOthers at hr
    split at hr
    next hother =>
      cases hr
      -- somebody else asks, whatever the status
      have hown : (Kind.cancel == .cancel && a.requesterInstance != input.caller) = true := by
        simpa using hother
      unfold classify
      simp only [validateEvidence, hc, if_true, hown]
      rfl
    next hown =>
      unfold Ledger.refuseSettled at hr
      split at hr
      next hs =>
        cases hr
        exact classify_settled .cancel hc hs (fun _ => not_not.mp hown)
      next => cases hr

/-- SQLite's integer is the clock's microsecond; nothing is cut off at 64 bits. -/
theorem castInteger_microsText {now : Int} (hnow : BusinessApproval.InYears (now * 1000000)) :
    Decimal.castInteger (microsText now) = now * 1000 := by
  obtain ⟨hlow, hhigh⟩ := hnow
  apply Decimal.castInteger_toString
  · unfold Decimal.minInt64
    omega
  · unfold Decimal.maxInt64
    omega

theorem guards_expire (input : Input) {now : Int}
    (hnow : BusinessApproval.InYears (now * 1000000)) :
    Guards time .expire input now (Ledger.refuseEarly (now * 1000000)) where
  guard row a h hid := by
    -- the row has whole microseconds, and the clock whole milliseconds
    have hdue : row.expiresUs ≤ now * 1000 ↔ a.expiresAt ≤ now * 1000000 := by
      have := h.expiresUs
      omega
    rw [matches_iff h hid]
    unfold Ledger.refuseEarly Ledger.refuseSettled constraint
    rw [castInteger_microsText hnow]
    by_cases hp : a.status = .pending
    · by_cases hd : a.expiresAt ≤ now * 1000000
      · simp [hp, hd, hdue.mpr hd]
      · have hd' : ¬ row.expiresUs ≤ now * 1000 := fun h' => hd (hdue.mp h')
        simp [hp, hd, hd']
    · simp [hp]
  reason a failure hc hr := by
    unfold Ledger.refuseEarly Ledger.refuseSettled at hr
    by_cases hp : a.status = .pending
    · simp only [hp, ne_eq, not_true_eq_false, if_false] at hr
      split at hr
      next => cases hr
      next =>
        -- it is pending, and the deadline is ahead
        cases hr
        unfold classify
        simp only [validateEvidence, hc, if_true, hp]
        rfl
    · simp only [ne_eq, hp, not_false_eq_true, if_true] at hr
      cases hr
      exact classify_settled .expire hc hp (fun hk => by cases hk)

/-! ## Creation -/

theorem Represents.wellKeyed (h : Represents time table L) : L.WellKeyed where
  ids ha := by
    obtain ⟨row, hrow, hstands⟩ := h.exists_row ha
    rw [← hstands.requestId]
    exact Keyed.key_of_lookup hrow
  pairs ha hb hpair := by
    obtain ⟨row, hrow, hstands⟩ := h.exists_row ha
    obtain ⟨row', hrow', hstands'⟩ := h.exists_row hb
    have heq : row = row' := Keyed.eq_of_alt h.unique.alts (Keyed.mem_of_lookup hrow)
      (Keyed.mem_of_lookup hrow') (by rw [hstands.pair, hstands'.pair, hpair])
    rw [← Keyed.key_of_lookup hrow, ← Keyed.key_of_lookup hrow', heq]

theorem Represents.stands (h : Represents time table L) {row : D1Row} (hrow : row ∈ table) :
    StandsFor time row (approvalOf time row) ∧ L row.requestId = some (approvalOf time row) := by
  have hlook : lookup table row.requestId = some row :=
    Keyed.lookup_of_mem h.unique.keys hrow
  obtain ⟨a, ha, hstands⟩ := h.of_lookup hlook
  rw [hstands.approvalOf_eq]
  exact ⟨hstands, ha⟩

theorem sharesKey_iff {i : IntentInput} {intent : RequestIntent} {row : D1Row} {a : StoredApproval}
    (hid : i.requestId = intent.requestId) (hreq : i.requesterInstance = intent.requesterInstance)
    (hkey : i.idempotencyKey = intent.idempotencyKey) (h : StandsFor time row a) :
    sharesKey i row = true ↔ Ledger.SharesKey intent a := by
  simp only [sharesKey, Ledger.SharesKey, StoredApproval.pair, Prod.mk.injEq, hid, hreq, hkey,
    h.requestId, h.requesterInstance, h.idempotencyKey, Bool.or_eq_true, Bool.and_eq_true,
    beq_iff_eq]
  exact or_comm

theorem resolve_found (intent : RequestIntent) {found : List StoredApproval}
    (hc : ∀ a ∈ found, evidenceConsistent a = true) :
    resolve intent ⟨false, found⟩ = .ok (Ledger.resolveFound intent found) := by
  match found with
  | [] => rfl
  | [a] =>
      unfold resolve Ledger.resolveFound
      simp only [validateEvidence, hc a (List.mem_singleton_self a), if_true]
      cases sameIntent a intent with
      | true => rfl
      | false => rfl
  | _ :: _ :: _ => rfl

/-- The rows that share a key stand for the approvals that do. -/
theorem Represents.mem_found (h : Represents time table L) {i : IntentInput}
    {intent : RequestIntent}
    (hshares : ∀ row a, StandsFor time row a →
      (sharesKey i row = true ↔ Ledger.SharesKey intent a))
    (a : StoredApproval) : a ∈ (table.filter (sharesKey i)).map (approvalOf time) ↔
      (∃ id, L id = some a) ∧ Ledger.SharesKey intent a := by
  simp only [List.mem_map, List.mem_filter]
  constructor
  · rintro ⟨row, ⟨hrow, hshare⟩, rfl⟩
    obtain ⟨hstands, hL⟩ := h.stands hrow
    exact ⟨⟨_, hL⟩, (hshares row _ hstands).mp hshare⟩
  · rintro ⟨⟨id, hid⟩, hshare⟩
    obtain ⟨row, hrow, hstands⟩ := h.exists_row hid
    exact ⟨row, ⟨Keyed.mem_of_lookup hrow, (hshares row a hstands).mpr hshare⟩,
      hstands.approvalOf_eq⟩

/-- Different rows stand for different approvals. -/
theorem Represents.nodup_found (h : Represents time table L) (p : D1Row → Bool) :
    ((table.filter p).map (approvalOf time)).Nodup := by
  refine List.Nodup.of_map StoredApproval.requestId ?_
  have hids : ((table.filter p).map (approvalOf time)).map StoredApproval.requestId
      = (table.filter p).map D1Row.requestId := by
    rw [List.map_map]
    refine List.map_congr_left (fun row hrow => ?_)
    exact (h.stands (List.mem_of_mem_filter hrow)).1.requestId.symm
  rw [hids]
  exact (List.filter_sublist.map D1Row.requestId).nodup h.unique.keys

/-- A row that could be inserted is the only one its `SELECT` finds. -/
theorem Represents.filter_put (h : Represents time table L) {i : IntentInput}
    {intent : RequestIntent} {row : D1Row} (hstands : StandsFor time row (.ofIntent intent))
    (hshares : ∀ row a, StandsFor time row a →
      (sharesKey i row = true ↔ Ledger.SharesKey intent a))
    (ht : taken table row = false) :
    (Keyed.put D1Row.requestId table row).filter (sharesKey i) = [row] := by
  obtain ⟨hidfree, hpairfree⟩ := Keyed.taken_eq_false.mp ht
  have hmem : row ∈ Keyed.put D1Row.requestId table row :=
    Keyed.mem_of_lookup (Keyed.lookup_put_self table row)
  refine Keyed.filter_eq_singleton (h.unique.put_fresh ht).keys hmem
    ((hshares row _ hstands).mpr (Or.inr rfl)) (fun other hother hshare => ?_)
  -- no other row has either key
  rcases Keyed.mem_put hother with rfl | hold
  · rfl
  · obtain ⟨hstands', -⟩ := h.stands hold
    have hs := (hshares _ _ hstands').mp hshare
    rw [Ledger.SharesKey, ← hstands'.pair, ← hstands'.requestId] at hs
    rcases hs with hp | hi
    · exact absurd (hp.trans hstands.pair.symm) (hpairfree other hold)
    · exact absurd (hi.trans hstands.requestId.symm) (hidfree other hold)

/-- A row whose keys are taken shares one with a row of the table. -/
theorem Represents.found_of_taken (h : Represents time table L) {intent : RequestIntent}
    {i : IntentInput} (hshares : ∀ row a, StandsFor time row a →
      (sharesKey i row = true ↔ Ledger.SharesKey intent a)) {row : D1Row}
    (hstands : StandsFor time row (.ofIntent intent)) (ht : taken table row = true) :
    (table.filter (sharesKey i)).map (approvalOf time) ≠ [] := by
  obtain ⟨other, hother, hsame⟩ := List.any_eq_true.mp ht
  simp only [Bool.or_eq_true, beq_iff_eq] at hsame
  obtain ⟨hstands', -⟩ := h.stands hother
  have hshare : Ledger.SharesKey intent (approvalOf time other) := by
    rw [Ledger.SharesKey, ← hstands'.pair, ← hstands'.requestId]
    -- it has the id, or the pair
    rcases hsame with hs | hs
    · exact Or.inr (hs.trans hstands.requestId)
    · exact Or.inl (hs.trans hstands.pair)
  exact List.ne_nil_of_mem (List.mem_map_of_mem (List.mem_filter.mpr
    ⟨hother, (hshares _ _ hstands').mpr hshare⟩))

/-- A row whose keys are free stands for an approval with free keys. -/
theorem Represents.free_of_not_taken (h : Represents time table L) {intent : RequestIntent}
    {row : D1Row} (hstands : StandsFor time row (.ofIntent intent))
    (ht : taken table row = false) : L intent.requestId = none
      ∧ ¬ L.PairTaken (intent.requesterInstance, intent.idempotencyKey) := by
  obtain ⟨hids, hpairs⟩ := Keyed.taken_eq_false.mp ht
  constructor
  · cases hL : L intent.requestId with
    | none => rfl
    | some a =>
        obtain ⟨r, hr, -⟩ := h.exists_row hL
        have hkey : r.requestId = intent.requestId := Keyed.key_of_lookup hr
        exact absurd (hkey.trans hstands.requestId.symm) (hids r (Keyed.mem_of_lookup hr))
  · rintro ⟨id, a, ha, hp⟩
    obtain ⟨r, hr, hrs⟩ := h.exists_row ha
    exact hpairs r (Keyed.mem_of_lookup hr) (by rw [hrs.pair, hstands.pair]; exact hp)

/-- What a creation's batch answers and leaves is the ledger's. -/
theorem creation_refines (hlaw : time.Lawful) (h : Represents time table L)
    {intent : RequestIntent} (ha : ApprovalService.Admissible (.request intent)) :
    (Prog.run (perform clock) (requestMethod time intent).run table).1 = .ok (L.request intent).1
      ∧ Represents time (Prog.run (perform clock) (requestMethod time intent).run table).2
        (L.request intent).2 := by
  obtain ⟨i, hi, hid, hreq, hkey, hstands⟩ := standsFor_ofIntent hlaw ha.1 ha.2.1
  have hshares : ∀ row a, StandsFor time row a →
      (sharesKey i row = true ↔ Ledger.SharesKey intent a) :=
    fun _ _ => sharesKey_iff hid hreq hkey
  rw [requestMethod_eq time hi]
  generalize hnew : D1Row.ofIntent i (toString (intent.expiresAt.tdiv 1000)) = row at hstands ⊢
  change concludeRequest time intent (runBatch (.insert row) (sharesKey i) table).1 = _
    ∧ Represents time (runBatch (.insert row) (sharesKey i) table).2 _
  unfold runBatch Write.apply
  simp only [hstands.checks, Bool.not_true, Bool.false_eq_true, if_false]
  cases ht : taken table row with
  | true =>
      -- the insert meets a key that is taken, and the select finds whose it is
      have hne := h.found_of_taken hshares hstands ht
      rw [Ledger.request_of_found h.wellKeyed (h.nodup_found _) (h.mem_found hshares) hne]
      simp only [if_true]
      refine ⟨?_, h⟩
      rw [concludeRequest_reply intent (Nat.zero_le 1)
        (fun r hr => (h.stands (List.mem_of_mem_filter hr)).1)]
      exact resolve_found intent (fun a hmem => by
        obtain ⟨r, hr, rfl⟩ := List.mem_map.mp hmem
        exact (h.stands (List.mem_of_mem_filter hr)).1.consistent)
  | false =>
      obtain ⟨hL, hfree⟩ := h.free_of_not_taken hstands ht
      have hrep := h.put hstands (h.unique.put_fresh ht)
      -- the inserted row is the only one that shares a key with the intent
      have hone := h.filter_put hstands hshares ht
      simp only [Bool.false_eq_true, if_false, Ledger.request, hL, hfree, hone]
      refine ⟨?_, ?_⟩
      · rw [concludeRequest_reply intent (Nat.le_refl 1) (fun r hr => by
          rw [List.mem_singleton.mp hr, hstands.approvalOf_eq]
          exact hstands), List.map_cons, List.map_nil, hstands.approvalOf_eq]
        have hsame := StoredApproval.sameIntent_ofIntent intent
        unfold resolve
        simp only [validateEvidence, hstands.consistent, if_true, hsame]
        rfl
      · rw [show intent.requestId = row.requestId from hstands.requestId.symm]
        exact hrep

/-! ## The store methods -/

theorem read_refines (clock : Clock) (h : Represents time table L) (id : String)
    (requester : Option String) :
    Prog.run (perform clock) (readMethod time id requester).run table
      = (.ok (L.read id requester), table) := by
  -- ids are unique, so the select finds one row at most
  have hfilter : table.filter (readable id requester)
      = ((lookup table id).filter (readable id requester)).toList := by
    refine Keyed.filter_of_key h.unique.keys (fun row hrow => ?_)
    simp only [readable, Bool.and_eq_true, beq_iff_eq] at hrow
    exact hrow.1
  have hshows : Shows time ((lookup table id).filter (readable id requester))
      (L.read id requester) := by
    unfold Ledger.read
    cases hrow : lookup table id with
    | none => rw [h.of_lookup_none hrow]; exact .none
    | some row =>
        obtain ⟨a, ha, hstands⟩ := h.of_lookup hrow
        have hid : row.requestId = id := Keyed.key_of_lookup hrow
        have hcond : readable id requester row
            = (requester.isNone || requester == some a.requesterInstance) := by
          rw [readable, hid, beq_self_eq_true, Bool.true_and, hstands.requesterInstance]
        rw [ha, Option.filter_some, Option.filter_some, hcond]
        split
        · exact .some hstands
        · exact .none
  rw [readMethod_eq]
  change (concludeRead time (.ok (((table.filter (readable id requester)).head?.map
    D1Row.toJson).getD .null)), table) = _
  rw [hfilter, Option.head?_toList, concludeRead_reply hshows]

theorem instantOfMicros_text (hlaw : time.Lawful) {ms : Int}
    (hms : BusinessApproval.InYears (ms * 1000000)) :
    instantOfMicros time (microsText ms) = some (ms * 1000000) := by
  obtain ⟨hlow, hhigh⟩ := hms
  -- nothing overflows on the way
  have hinner : checked128 (ms * 1000) = some (ms * 1000) :=
    if_pos (by unfold minInt128 maxInt128; omega)
  have houter : checked128 (ms * 1000 * 1000) = some (ms * 1000 * 1000) :=
    if_pos (by unfold minInt128 maxInt128; omega)
  have hnanos : time.fromUnixTimestampNanos (ms * 1000 * 1000) = some (ms * 1000000) := by
    rw [hlaw.fromNanos, if_pos (by omega)]
    congr 1
    omega
  unfold instantOfMicros microsText
  rw [Decimal.parseInt_toString]
  simp only [bind, Option.bind_some, hinner, houter, hnanos]

/-- A transition method run alone is the ledger's settlement. -/
theorem transitionMethod_refines (hiso : ReadsIso time) (hclock : clock.InYears)
    (h : Represents time table L) {kind : Kind} {input : Input} (hproper : Proper kind input)
    {set : Settlement} {refuse : StoredApproval → Option DomainFailure}
    (hset : Carries kind input set) (hguard : Guards time kind input clock.dateNow refuse) :
    (Prog.run (perform clock) (transitionMethod time kind input).run table).1
        = .ok (L.settle input.id refuse set clock.moments.settled).1
      ∧ Represents time (Prog.run (perform clock) (transitionMethod time kind input).run table).2
        (L.settle input.id refuse set clock.moments.settled).2 := by
  rw [transitionMethod_eq time hproper]
  exact transition_refines hiso h hproper hclock.newDate hset hguard

/-- **A store method run alone on a table does what it does on the ledger.** -/
theorem alone_refines (hlaw : time.Lawful) (hiso : ReadsIso time) (hclock : clock.InYears)
    (o : StoreOp) (ha : ApprovalService.Admissible o) (h : Represents time table L) :
    (alone time clock o table).1 = (Ledger.perform clock.moments o L).1
      ∧ Represents time (alone time clock o table).2 (Ledger.perform clock.moments o L).2 := by
  cases o with
  | now =>
      refine ⟨?_, h⟩
      change (instantOfMicros time (microsText clock.dateNow)).elim
        (Except.error StorageError.unavailable) Except.ok = Except.ok (clock.dateNow * 1000000)
      rw [instantOfMicros_text hlaw hclock.dateNow]
      rfl
  | request intent => exact creation_refines hlaw h ha
  | read id requester =>
      have hrun := read_refines clock h id requester
      exact ⟨congrArg Prod.fst hrun, (congrArg Prod.snd hrun).symm ▸ h⟩
  | decide id status caller actor evidence reason =>
      have hproper : Proper .decide
          ⟨id, some status.asStr, caller, some actor, some evidence, reason⟩ :=
        -- a decision approves or rejects
        ⟨fun _ => by rcases ha with rfl | rfl <;> simp [ApprovalStatus.asStr]⟩
      have hset : Carries .decide
          ⟨id, some status.asStr, caller, some actor, some evidence, reason⟩
          ⟨status, caller, some actor, some evidence, reason⟩ :=
        ⟨rfl, rfl, rfl, rfl, rfl, fun _ _ => by rcases ha with rfl | rfl <;> rfl⟩
      exact transitionMethod_refines hiso hclock h hproper hset (guards_decide _ _)
  | cancel id caller actor reason =>
      have hset : Carries .cancel ⟨id, none, caller, some actor, none, reason⟩
          ⟨.cancelled, caller, some actor, none, reason⟩ :=
        ⟨rfl, rfl, rfl, rfl, rfl, fun _ _ => rfl⟩
      exact transitionMethod_refines hiso hclock h ⟨fun hk => by cases hk⟩ hset (guards_cancel _ _)
  | expire id caller =>
      have hset : Carries .expire ⟨id, none, caller, none, none, none⟩
          ⟨.expired, caller, none, none, none⟩ :=
        ⟨rfl, rfl, rfl, rfl, rfl, fun _ _ => rfl⟩
      exact transitionMethod_refines hiso hclock h ⟨fun hk => by cases hk⟩ hset
        (guards_expire _ hclock.dateNow)

end

end BusinessApproval.D1
