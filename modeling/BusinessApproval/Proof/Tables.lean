import BusinessApproval.Proof.Interleaved

/-!
# The tables along an order

What one call makes of the table it meets, run alone: `Writes` says it once, with what is
known of the call. From this follows, along an order of calls, that no table loses a row,
that a settled row stays as it is, and where each row of the last table comes from: some
request has created it, and if it is settled, some transition has settled it, at the
timestamp it was run at.
-/

namespace BusinessApproval.Postgres

open Concurrent

variable {timestamptz : Int → Int} {table table' : Table} {now : Int} {call : Call}

/-! ## One call -/

/-- What a call leaves of a table. -/
inductive Writes (timestamptz : Int → Int) (now : Int) (call : Call) (table : Table) :
    Table → Prop
  | same : Writes timestamptz now call table table
  | created {intent : RequestIntent} (hcall : call = .request intent)
      (hfree : taken table (.ofIntent timestamptz intent) = false) :
      Writes timestamptz now call table
        (Keyed.put PgRow.requestId table (.ofIntent timestamptz intent))
  | settled {id : String} {set : PgRow.Settlement} {old : PgRow}
      (hset : call.settles = some (id, set)) (hold : lookup table id = some old)
      (hp : old.status = "pending") (hdue : set.status = "expired" → old.expiresAt ≤ now)
      (hc : (old.settle set now).checks = true) :
      Writes timestamptz now call table (Keyed.put PgRow.requestId table (old.settle set now))

theorem Transition.Performs.writes_outcome {T : Transition Answer} (hT : T.Performs call)
    (hs : Sound table)
    (hdue : ∀ row, T.refusal now row = none → (row.settle T.set now).checks = true →
      T.set.status = "expired" → row.expiresAt ≤ now) :
    Writes timestamptz now call table (T.outcome now table).2 := by
  have hends := T.ends now table
  generalize T.outcome now table = outcome at hends
  cases hends with
  | missing hrow => exact .same
  | refused hrow hr => exact .same
  | violated hrow hr hc => exact .same
  | @settled row hrow hr hc =>
      exact .settled hT.settles hrow (T.pending_of_refusal hT (hs.checks_of_lookup hrow) hr)
        (hdue row hr hc) hc

/-- What expires leaves no evidence. -/
theorem evidence_of_expired {row : PgRow} (hc : row.checks = true) (hs : row.status = "expired") :
    row.evidenceRef = none := by
  simp only [PgRow.checks, Bool.and_eq_true] at hc
  obtain ⟨⟨-, hevidence⟩, -⟩ := hc
  simp [PgRow.evidenceCheck, hs] at hevidence
  exact hevidence.1.1.2

/-- **A call leaves the table as it is, adds the row of its intent, or settles a pending row.** -/
theorem serially_writes (timestamptz : Int → Int) (hs : Sound table) (now : Int) (call : Call) :
    Writes timestamptz now call table (serially timestamptz now call table).2 := by
  unfold serially
  cases call with
  | request intent =>
      rw [Call.alone_request timestamptz _ hs]
      have hends := (Creation.ofIntent timestamptz intent).ends hs
      generalize (Creation.ofIntent timestamptz intent).outcome table = outcome at hends ⊢
      cases hends with
      | violated hc => exact .same
      | created hc hfree => exact .created rfl hfree
      | repeated hrow hsame => exact .same
      | conflict hrow hshare hother => exact .same
  | read requestId requester =>
      rw [Call.alone_read timestamptz _ hs]
      exact .same
  | decide requestId decision caller actor evidenceRef reason =>
      have hT := performs_decide requestId decision caller actor evidenceRef reason
      rw [hT.alone timestamptz _ hs]
      -- a decision leaves evidence, whatever the status it sets
      exact hT.writes_outcome hs fun row hr hc hx =>
        absurd (evidence_of_expired hc hx) (Option.some_ne_none _)
  | cancel requestId caller actor reason =>
      have hT := performs_cancel requestId caller actor reason
      rw [hT.alone timestamptz _ hs]
      exact hT.writes_outcome hs fun row hr hc hx =>
        absurd hx (show "cancelled" ≠ "expired" by decide)
  | expire requestId caller =>
      have hT := performs_expire requestId caller
      rw [hT.alone timestamptz _ hs]
      refine hT.writes_outcome hs fun row hr hc hx => ?_
      rw [refusal_expire] at hr
      have hdue := Ledger.due_of_refuseEarly hr
      simp only [PgRow.record_expiresAt, ofTimestamptz] at hdue
      omega

namespace Writes

/-- The row under an id is as it was, or the call has written it. -/
theorem row (h : Writes timestamptz now call table table') {id : String} {row : PgRow}
    (hrow : lookup table' id = some row) :
    lookup table id = some row
      ∨ (∃ intent, call = .request intent ∧ row = .ofIntent timestamptz intent)
      ∨ ∃ set old, call.settles = some (id, set) ∧ lookup table id = some old
        ∧ old.status = "pending" ∧ (set.status = "expired" → old.expiresAt ≤ now)
        ∧ row = old.settle set now := by
  cases h with
  | same => exact Or.inl hrow
  | @created intent hcall hfree =>
      by_cases hid : id = (PgRow.ofIntent timestamptz intent).requestId
      · subst hid
        have hself : lookup _ _ = some (PgRow.ofIntent timestamptz intent) :=
          Keyed.lookup_put_self table _
        exact Or.inr (Or.inl ⟨intent, hcall, Option.some.inj (hrow.symm.trans hself)⟩)
      · exact Or.inl ((Keyed.lookup_put_ne hid).symm.trans hrow)
  | @settled id' set old hset hold hp hdue hc =>
      by_cases hid : id = id'
      · subst hid
        exact Or.inr (Or.inr ⟨set, old, hset, hold, hp, hdue,
          Option.some.inj (hrow.symm.trans (lookup_put_settle hold set now))⟩)
      · have hne : id ≠ (old.settle set now).requestId := by
          rw [PgRow.settle_requestId, requestId_of_lookup hold]
          exact hid
        exact Or.inl ((Keyed.lookup_put_ne hne).symm.trans hrow)

theorem grows (h : Writes timestamptz now call table table') : Grows table table' := by
  cases h with
  | same => exact Grows.refl table
  | created hcall hfree => exact Grows.put_fresh hfree
  | @settled id set old hset hold hp hdue hc =>
      have hid : lookup table (old.settle set now).requestId = some old := by
        rw [PgRow.settle_requestId, requestId_of_lookup hold]
        exact hold
      exact Grows.put_same hid (PgRow.settle_terms set now old)

/-- A settled row stays as it is. -/
theorem keeps (h : Writes timestamptz now call table table') {id : String} {row : PgRow}
    (hrow : lookup table id = some row) (hp : row.status ≠ "pending") :
    lookup table' id = some row := by
  cases h with
  | same => exact hrow
  | @created intent hcall hfree =>
      have hid : id ≠ (PgRow.ofIntent timestamptz intent).requestId := fun heq =>
        (Keyed.taken_eq_false.mp hfree).1 row (Keyed.mem_of_lookup hrow)
          ((requestId_of_lookup hrow).trans heq)
      exact (Keyed.lookup_put_ne hid).trans hrow
  | @settled id' set old hset hold hpending hdue hc =>
      have hid : id ≠ (old.settle set now).requestId := by
        rw [PgRow.settle_requestId, requestId_of_lookup hold]
        rintro rfl
        cases hold.symm.trans hrow
        exact hp hpending
      exact (Keyed.lookup_put_ne hid).trans hrow

end Writes

/-! ## An order of calls -/

section Orders

variable (timestamptz) in
theorem serial_sound (order : List (Entry Call Int)) :
    Sound (serial (serially timestamptz) [] order) := by
  induction order with
  | nil => exact sound_nil
  | cons e earlier ih => exact Call.alone_sound timestamptz ⟨0, e.stamp⟩ ih e.call

variable (timestamptz) in
/-- What the newest call of an order has made of the table. -/
theorem serial_writes (e : Entry Call Int) (earlier : List (Entry Call Int)) :
    Writes timestamptz e.stamp e.call (serial (serially timestamptz) [] earlier)
      (serial (serially timestamptz) [] (e :: earlier)) :=
  serially_writes timestamptz (serial_sound timestamptz earlier) e.stamp e.call

variable (timestamptz) in
/-- Every row of an earlier table is in the later ones. -/
theorem serial_grows {earlier order : List (Entry Call Int)} (h : earlier <:+ order) :
    Grows (serial (serially timestamptz) [] earlier) (serial (serially timestamptz) [] order) := by
  induction order with
  | nil =>
      rw [List.suffix_nil.mp h]
      exact Grows.refl _
  | cons e rest ih =>
      rcases List.suffix_cons_iff.mp h with rfl | h
      · exact Grows.refl _
      · exact (ih h).trans (serial_writes timestamptz e rest).grows

/-- A settled row of an earlier table is the row of the later ones. -/
theorem serial_keeps {earlier order : List (Entry Call Int)} (h : earlier <:+ order) {id : String}
    {row : PgRow} (hrow : lookup (serial (serially timestamptz) [] earlier) id = some row)
    (hp : row.status ≠ "pending") :
    lookup (serial (serially timestamptz) [] order) id = some row := by
  induction order with
  | nil =>
      rw [List.suffix_nil.mp h] at hrow
      exact hrow
  | cons e rest ih =>
      rcases List.suffix_cons_iff.mp h with rfl | h
      · exact hrow
      · exact (serial_writes timestamptz e rest).keeps (ih h) hp

/-- **Every row has been created by a request**, and keeps its terms. -/
theorem serial_created {order : List (Entry Call Int)} {id : String} {row : PgRow}
    (hrow : lookup (serial (serially timestamptz) [] order) id = some row) :
    ∃ e ∈ order, ∃ intent, e.call = .request intent
      ∧ row.terms = (PgRow.ofIntent timestamptz intent).terms := by
  induction order generalizing row with
  | nil => cases hrow
  | cons e earlier ih =>
      have hold : ∀ {old}, lookup (serial (serially timestamptz) [] earlier) id = some old →
          old.terms = row.terms → ∃ e' ∈ e :: earlier, ∃ intent, e'.call = .request intent
            ∧ row.terms = (PgRow.ofIntent timestamptz intent).terms := by
        intro old hlookup hterms
        obtain ⟨e', he', intent, hcall, hintent⟩ := ih hlookup
        exact ⟨e', List.mem_cons_of_mem _ he', intent, hcall, hterms.symm.trans hintent⟩
      rcases (serial_writes timestamptz e earlier).row hrow with
        hkept | ⟨intent, hcall, rfl⟩ | ⟨set, old, -, hlookup, -, -, rfl⟩
      · exact hold hkept rfl
      · exact ⟨e, List.mem_cons_self, intent, hcall, rfl⟩
      · exact hold hlookup rfl

/-- **Every settled row has been settled by a transition**, which met it when it was pending. -/
theorem serial_settled {order : List (Entry Call Int)} {id : String} {row : PgRow}
    (hrow : lookup (serial (serially timestamptz) [] order) id = some row)
    (hp : row.status ≠ "pending") :
    ∃ e earlier set old, e :: earlier <:+ order ∧ e.call.settles = some (id, set)
      ∧ lookup (serial (serially timestamptz) [] earlier) id = some old
      ∧ old.status = "pending" ∧ (set.status = "expired" → old.expiresAt ≤ e.stamp)
      ∧ row = old.settle set e.stamp := by
  induction order with
  | nil => cases hrow
  | cons e earlier ih =>
      rcases (serial_writes timestamptz e earlier).row hrow with
        hkept | ⟨intent, -, rfl⟩ | ⟨set, old, hset, hold, hpending, hdue, rfl⟩
      · obtain ⟨e', older, set, old, hsuffix, hrest⟩ := ih hkept
        exact ⟨e', older, set, old, hsuffix.trans (List.suffix_cons e earlier), hrest⟩
      · exact absurd rfl hp
      · exact ⟨e, earlier, set, old, List.suffix_rfl, hset, hold, hpending, hdue, rfl⟩

end Orders

end BusinessApproval.Postgres
