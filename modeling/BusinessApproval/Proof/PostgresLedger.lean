import BusinessApproval.Proof.Admission
import BusinessApproval.Proof.Alone
import BusinessApproval.Spec.Ledger

/-!
# PostgreSQL implements the ledger

A sound table represents the ledger of its decoded rows. Every store method, run
alone on the table, answers what the same method answers on the ledger, and the
table it leaves represents the ledger that is left: `alone_refines`.
-/

namespace BusinessApproval.Postgres

/-- A table, and the ledger it stands for. -/
structure Represents (table : Table) (L : Ledger) : Prop where
  sound : Sound table
  ledger : ∀ id, L id = (lookup table id).map PgRow.record

theorem represents_nil : Represents [] (fun _ => none) := ⟨sound_nil, fun _ => rfl⟩

/-- The instants a PostgreSQL call works with. -/
def Clock.moments (clock : Clock) : Moments where
  now := clock.nowUtc
  settled := ofTimestamptz clock.transactionTimestamp
  due := ofTimestamptz clock.transactionTimestamp

/-- What is relied on of `sqlx`: a storable instant survives its `TIMESTAMPTZ` encoding. -/
def Exact (timestamptz : Int → Int) : Prop :=
  ∀ t, Storable t → ofTimestamptz (timestamptz t) = t

namespace Represents

variable {table : Table} {L : Ledger}

/-- Writing a row is writing its record. -/
theorem put (h : Represents table L) {row : PgRow}
    (hs : Sound (Keyed.put PgRow.requestId table row)) :
    Represents (Keyed.put PgRow.requestId table row)
      (Function.update L row.requestId (some row.record)) := by
  refine ⟨hs, fun id => ?_⟩
  simp only [lookup, Keyed.lookup_put, Function.update_apply]
  by_cases hid : id = row.requestId
  · rw [if_pos hid, if_pos hid]
    rfl
  · rw [if_neg hid, if_neg hid]
    exact h.ledger id

/-- The ledger's approvals are the records of the rows. -/
theorem exists_row (h : Represents table L) {id : String} {approval : StoredApproval}
    (ha : L id = some approval) : ∃ row, lookup table id = some row ∧ row.record = approval := by
  rw [h.ledger id] at ha
  exact Option.map_eq_some_iff.mp ha

end Represents

/-! ## Transitions -/

section Transitions

variable {β : Type} {table : Table} {L : Ledger}

/-- The columns a settlement sets. -/
def columns (set : Settlement) : PgRow.Settlement where
  status := set.status.asStr
  terminalCallerInstance := set.caller
  terminalActor := set.actor
  evidenceRef := set.evidenceRef
  reason := set.reason

theorem record_settle_eq {row : PgRow} (hrow : row.checks = true)
    (hp : row.record.status = .pending) (set : Settlement) (now : Int) :
    (row.settle (columns set) now).record = row.record.settle set (ofTimestamptz now) := by
  have hrev : row.revision = 1 := by
    have hr : row.revision = if row.record.status = .pending then 1 else 2 :=
      revision_of_consistent (PgRow.checks_iff.mp hrow).consistent
    rw [hr, if_pos hp]
  rw [PgRow.record_settle set.status rfl, hrev]
  rfl

/-- A transition whose refusals are the ledger's is the ledger's settlement. -/
theorem Transition.outcome_refines (h : Represents table L) (t : Transition β) (now : Int)
    {set : Settlement} {refuse : StoredApproval → Option DomainFailure}
    (hset : t.set = columns set) (hproper : t.set.Proper)
    (hrefuse : ∀ row, t.refusal now row = refuse row.record)
    (hpending : ∀ approval, refuse approval = none → approval.status = .pending) :
    (t.outcome now table).1 = .ok (L.settle t.requestId refuse set (ofTimestamptz now)).1
      ∧ Represents (t.outcome now table).2
        (L.settle t.requestId refuse set (ofTimestamptz now)).2 := by
  have hsound := t.outcome_sound now h.sound
  unfold Transition.outcome at hsound ⊢
  unfold Ledger.settle
  rw [h.ledger]
  cases hrow : lookup table t.requestId with
  | none => exact ⟨rfl, h⟩
  | some row =>
      rw [hrow] at hsound
      simp only [Option.map_some, hrefuse] at hsound ⊢
      cases hr : refuse row.record with
      | some failure => exact ⟨rfl, h⟩
      | none =>
          have hrow' := h.sound.checks_of_lookup hrow
          have hp := hpending _ hr
          -- only a row that is still pending gets here, so the new version passes the checks
          have hchecks := PgRow.settle_checks hproper now hrow' hp
          rw [hr] at hsound
          simp only [hchecks, Bool.not_true, Bool.false_eq_true, if_false] at hsound ⊢
          have hid : (row.settle t.set now).requestId = t.requestId :=
            (PgRow.settle_requestId _ _ _).trans (requestId_of_lookup hrow)
          have hrec : (row.settle t.set now).record = row.record.settle set (ofTimestamptz now) := by
            rw [hset]
            exact record_settle_eq hrow' hp set now
          refine ⟨by rw [hrec], ?_⟩
          rw [← hid, ← hrec]
          exact h.put hsound

end Transitions

/-! ## Creation -/

/-- A digest the owner accepts passes the `CHECK` of migration 002. -/
theorem digestCheck_of_valid {row : PgRow}
    (h : ∀ digest, row.intentDigest = some digest → validIntentDigest digest = true) :
    row.digestCheck = true := by
  unfold PgRow.digestCheck
  cases hd : row.intentDigest with
  | none => rfl
  | some digest =>
      obtain ⟨hlen, hchars⟩ := validIntentDigest_chars (h digest hd)
      simp only [Option.all_some, Bool.and_eq_true, beq_iff_eq, List.all_eq_true]
      refine ⟨hlen, fun c hc => ?_⟩
      simp only [Bool.or_eq_true, Bool.and_eq_true, decide_eq_true_eq]
      exact hchars c hc

section Creation

variable {β : Type} {table : Table} {L : Ledger}

/-- The row an admissible intent inserts is within the constraints, and decodes to its approval. -/
theorem Creation.row_of_admissible {c : Creation β} (hexact : Exact c.timestamptz)
    (ha : ApprovalService.Admissible (.request c.intent)) :
    c.row.checks = true ∧ c.row.record = .ofIntent c.intent := by
  obtain ⟨hreq, hexp, horder, hdigest⟩ := ha
  have hrec : c.row.record = StoredApproval.ofRow c.row .pending :=
    PgRow.record_of_status .pending rfl
  have hr := hexact _ hreq
  have he := hexact _ hexp
  have hof : StoredApproval.ofRow c.row .pending = .ofIntent c.intent := by
    simp only [StoredApproval.ofRow, Creation.row, PgRow.ofIntent, StoredApproval.ofIntent, hr, he,
      Option.map_none]
  refine ⟨PgRow.checks_iff.mpr ⟨by rw [hrec]; rfl, by rw [hrec]; rfl, ?_, ?_⟩, hrec.trans hof⟩
  -- the deadline is after the request, in microseconds too
  · unfold ofTimestamptz at hr he
    simp only [Creation.row, PgRow.ofIntent]
    omega
  · exact digestCheck_of_valid hdigest

theorem sharesKey_iff {intent : RequestIntent} {row : PgRow} :
    sharesKey intent row = true ↔ Ledger.SharesKey intent row.record := by
  simp only [sharesKey, Ledger.SharesKey, StoredApproval.pair, Bool.or_eq_true, Bool.and_eq_true,
    beq_iff_eq, Prod.mk.injEq, PgRow.record_requestId, PgRow.record_requesterInstance,
    PgRow.record_idempotencyKey]

theorem Represents.wellKeyed (h : Represents table L) : L.WellKeyed where
  ids ha := by
    obtain ⟨row, hrow, rfl⟩ := h.exists_row ha
    exact requestId_of_lookup hrow
  pairs ha hb hpair := by
    obtain ⟨row, hrow, rfl⟩ := h.exists_row ha
    obtain ⟨row', hrow', rfl⟩ := h.exists_row hb
    have heq : row = row' := Keyed.eq_of_alt h.sound.unique.alts (Keyed.mem_of_lookup hrow)
      (Keyed.mem_of_lookup hrow') hpair
    rw [← requestId_of_lookup hrow, ← requestId_of_lookup hrow', heq]

/-- The ledger's approval of a row of the table. -/
theorem Represents.of_mem (h : Represents table L) {row : PgRow} (hrow : row ∈ table) :
    L row.requestId = some row.record := by
  rw [h.ledger, show lookup table row.requestId = some row from
    Keyed.lookup_of_mem h.sound.unique.keys hrow, Option.map_some]

/-- The rows that share a key are the approvals that do. -/
theorem Represents.mem_found (h : Represents table L) (intent : RequestIntent)
    (a : StoredApproval) : a ∈ (table.filter (sharesKey intent)).map PgRow.record ↔
      (∃ id, L id = some a) ∧ Ledger.SharesKey intent a := by
  simp only [List.mem_map, List.mem_filter, sharesKey_iff]
  constructor
  · rintro ⟨row, ⟨hrow, hshare⟩, rfl⟩
    exact ⟨⟨_, h.of_mem hrow⟩, hshare⟩
  · rintro ⟨⟨id, hid⟩, hshare⟩
    obtain ⟨row, hrow, rfl⟩ := h.exists_row hid
    exact ⟨row, ⟨Keyed.mem_of_lookup hrow, hshare⟩, rfl⟩

/-- Different rows of a sound table have different records. -/
theorem nodup_records (hs : Sound table) (p : PgRow → Bool) :
    ((table.filter p).map PgRow.record).Nodup := by
  refine List.Nodup.of_map StoredApproval.requestId ?_
  rw [List.map_map]
  exact (List.filter_sublist.map PgRow.requestId).nodup hs.unique.keys

/-- Resolving a conflict finds what the ledger finds. -/
theorem Creation.resolve_refines (h : Represents table L) (c : Creation β)
    (hc : c.row.checks = true) (ht : taken table c.row = true) :
    (c.outcome table).1 = .ok (L.request c.intent).1 ∧ (c.outcome table).2 = table
      ∧ (L.request c.intent).2 = L := by
  -- the row that is in the way is found
  have hne : (table.filter (sharesKey c.intent)).map PgRow.record ≠ [] := by
    obtain ⟨row, hrow, hkey⟩ := List.any_eq_true.mp ht
    simp only [Bool.or_eq_true, beq_iff_eq] at hkey
    have hshare : sharesKey c.intent row = true := sharesKey_iff.mpr hkey.symm
    exact List.ne_nil_of_mem (List.mem_map_of_mem (List.mem_filter.mpr ⟨hrow, hshare⟩))
  rw [Ledger.request_of_found h.wellKeyed (nodup_records h.sound _) (h.mem_found c.intent) hne]
  unfold Creation.outcome
  simp only [hc, ht, Bool.not_true, Bool.false_eq_true, if_false]
  rcases hrows : table.filter (sharesKey c.intent) with _ | ⟨row, _ | ⟨row', rows⟩⟩
  · rw [hrows] at hne
    exact absurd rfl hne
  · simp only [List.map_cons, List.map_nil, Ledger.resolveFound]
    cases sameIntent row.record c.intent with
    | true => exact ⟨rfl, rfl, trivial⟩
    | false => exact ⟨rfl, rfl, trivial⟩
  · exact ⟨rfl, rfl, trivial⟩

/-- The ways a creation ends on a table. -/
inductive Creation.Ends (c : Creation β) (table : Table) :
    Except StorageError (Except DomainFailure RequestOutcome) × Table → Prop
  | violated (hc : c.row.checks = false) :
      Ends c table (.error (.database "create approval request" checkViolation), table)
  | created (hc : c.row.checks = true) (hfree : taken table c.row = false) :
      Ends c table (.ok (.ok ⟨true, c.row.record⟩), Keyed.put PgRow.requestId table c.row)
  | repeated {row : PgRow} (hrow : row ∈ table) (hsame : sameIntent row.record c.intent = true) :
      Ends c table (.ok (.ok ⟨false, row.record⟩), table)
  | conflict {row : PgRow} (hrow : row ∈ table) (hshare : sharesKey c.intent row = true)
      (hother : sameIntent row.record c.intent = false) :
      Ends c table (.ok (.error .idempotencyConflict), table)

theorem Creation.ends (hs : Sound table) (c : Creation β) : c.Ends table (c.outcome table) := by
  cases hc : c.row.checks with
  | false =>
      have houtcome : c.outcome table
          = (.error (.database "create approval request" checkViolation), table) := by
        simp only [Creation.outcome, hc, Bool.not_false, if_true]
      rw [houtcome]
      exact .violated hc
  | true =>
      cases ht : taken table c.row with
      | false =>
          rw [c.outcome_created hc ht]
          exact .created hc ht
      | true =>
          have hrep : Represents table (fun id => (lookup table id).map PgRow.record) :=
            ⟨hs, fun _ => rfl⟩
          obtain ⟨hanswer, htable, -⟩ := c.resolve_refines hrep hc ht
          rw [Prod.ext (y := (_, _)) hanswer htable]
          simp only [Ledger.request]
          cases hrow : lookup table c.intent.requestId with
          | some row =>
              have hmem := Keyed.mem_of_lookup hrow
              simp only [Option.map_some]
              cases hsame : sameIntent row.record c.intent with
              | true => exact .repeated hmem hsame
              | false =>
                  refine .conflict hmem (sharesKey_iff.mpr (Or.inr ?_)) hsame
                  exact requestId_of_lookup hrow
          | none =>
              simp only [Option.map_none]
              -- the id is free, so it is the other key that is taken
              obtain ⟨row, hmem, hkey⟩ := List.any_eq_true.mp ht
              simp only [Bool.or_eq_true, beq_iff_eq] at hkey
              have hid : row.requestId ≠ c.intent.requestId :=
                Keyed.lookup_eq_none.mp hrow row hmem
              have hpair := hkey.resolve_left hid
              have hL := hrep.of_mem hmem
              rw [if_pos ⟨_, _, hL, hpair⟩]
              refine .conflict hmem (sharesKey_iff.mpr (Or.inl hpair)) ?_
              by_contra hsame
              exact hid (Ledger.keys_of_sameIntent ((Bool.not_eq_false _).mp hsame)).1

theorem Creation.outcome_refines (h : Represents table L) (c : Creation β)
    (hexact : Exact c.timestamptz) (ha : ApprovalService.Admissible (.request c.intent)) :
    (c.outcome table).1 = .ok (L.request c.intent).1
      ∧ Represents (c.outcome table).2 (L.request c.intent).2 := by
  obtain ⟨hc, hrec⟩ := c.row_of_admissible hexact ha
  cases ht : taken table c.row with
  | true =>
      obtain ⟨hanswer, htable, hledger⟩ := c.resolve_refines h hc ht
      rw [htable, hledger]
      exact ⟨hanswer, h⟩
  | false =>
      have hsound := c.outcome_sound h.sound
      unfold Creation.outcome at hsound ⊢
      simp only [hc, ht, Bool.not_true, Bool.not_false, Bool.false_eq_true, if_false, if_true]
        at hsound ⊢
      -- no approval of the ledger has the id, nor the pair
      obtain ⟨hid, hpair⟩ := Keyed.taken_eq_false.mp ht
      have hL : L c.intent.requestId = none := by
        rw [h.ledger, show lookup table c.intent.requestId = none from
          Keyed.lookup_eq_none.mpr hid]
        rfl
      have hfree : ¬ L.PairTaken (c.intent.requesterInstance, c.intent.idempotencyKey) := by
        rintro ⟨id, approval, happroval, hp⟩
        obtain ⟨row, hrow, rfl⟩ := h.exists_row happroval
        exact hpair row (Keyed.mem_of_lookup hrow) hp
      simp only [Ledger.request, hL, hfree, if_false, hrec]
      refine ⟨trivial, ?_⟩
      rw [← hrec]
      exact h.put hsound

end Creation

/-! ## The store methods -/

section Methods

variable {table : Table} {L : Ledger} {timestamptz : Int → Int} {clock : Clock}

theorem Inspection.outcome_refines {β : Type} (h : Represents table L) (i : Inspection β) :
    i.outcome table = L.read i.requestId i.requester := by
  unfold Inspection.outcome Ledger.read
  rw [h.ledger]
  cases hrow : lookup table i.requestId with
  | none => rfl
  | some row =>
      have hid : row.requestId = i.requestId := requestId_of_lookup hrow
      have hcond : i.condition row
          = (i.requester.isNone || i.requester == some row.record.requesterInstance) := by
        rw [Inspection.condition, hid, beq_self_eq_true, Bool.true_and, PgRow.record_requesterInstance]
      rw [Option.map_some, Option.filter_some, Option.filter_some, hcond]
      split <;> rfl

/-- How a store method turns a storage answer into its own. -/
def unavailableError {α : Type} (r : Except StorageError α) :
    Except BusinessApproval.StorageError α :=
  r.mapError fun _ => .unavailable

/-- A transition that is the ledger's settlement, as a store method. -/
theorem alone_transition (clock : Clock) (h : Represents table L)
    (t : Transition (Except BusinessApproval.StorageError (Except DomainFailure StoredApproval)))
    (hwrap : t.wrap = unavailableError) (set : Settlement)
    (refuse : StoredApproval → Option DomainFailure) (hset : t.set = columns set)
    (hproper : t.set.Proper)
    (hrefuse : ∀ row, t.refusal clock.transactionTimestamp row = refuse row.record)
    (hpending : ∀ approval, refuse approval = none → approval.status = .pending) :
    (Prog.run (Session.perform clock) t.start (Session.idle table)).1
        = .ok (L.settle t.requestId refuse set clock.moments.settled).1
      ∧ Represents (Prog.run (Session.perform clock) t.start (Session.idle table)).2.table
        (L.settle t.requestId refuse set clock.moments.settled).2 := by
  -- alone, a transition comes to its outcome
  obtain ⟨hanswer, htable⟩ := t.run_start clock h.sound
  obtain ⟨href, hrep⟩ :=
    t.outcome_refines h clock.transactionTimestamp hset hproper hrefuse hpending
  rw [hanswer, htable, href, hwrap]
  exact ⟨rfl, hrep⟩

/-- Without a deadline, a transition is refused for what its record shows. -/
theorem refusal_of_no_deadline {β : Type} (t : Transition β) (h : t.deadline = false) (now : Int)
    (row : PgRow) : t.refusal now row = t.refuse row.record := by
  unfold Transition.refusal
  rw [h]
  cases t.refuse row.record <;> rfl

theorem refusal_expire {β : Type}
    (wrap : Except StorageError (Except DomainFailure StoredApproval) → β) (id caller : String)
    (now : Int) (row : PgRow) :
    (Transition.expire wrap id caller).refusal now row
      = Ledger.refuseEarly (ofTimestamptz now) row.record := by
  have hdue : row.expiresAt ≤ now ↔ row.record.expiresAt ≤ ofTimestamptz now := by
    simp only [PgRow.record_expiresAt, ofTimestamptz]
    omega
  have hrefuse : refuseSettled row.record = Ledger.refuseSettled row.record := rfl
  unfold Transition.refusal Ledger.refuseEarly
  simp only [Transition.expire, hrefuse]
  cases Ledger.refuseSettled row.record with
  | some failure => rfl
  | none =>
      -- the ledger compares instants, the table whole microseconds
      by_cases hd : row.expiresAt ≤ now
      · rw [if_pos (hdue.mp hd)]
        exact if_neg (fun hn => hn.2 hd)
      · rw [if_neg (fun hd' => hd (hdue.mpr hd'))]
        exact if_pos ⟨trivial, hd⟩

/-- **A store method run alone on a table does what it does on the ledger.** -/
theorem alone_refines (hexact : Exact timestamptz) (o : StoreOp)
    (ha : ApprovalService.Admissible o) (h : Represents table L) :
    (alone timestamptz clock o table).1 = (Ledger.perform clock.moments o L).1
      ∧ Represents (alone timestamptz clock o table).2 (Ledger.perform clock.moments o L).2 := by
  cases o with
  | now => exact ⟨rfl, h⟩
  | request intent =>
      -- the method in stages, then the stages on the table, then the outcome on the ledger
      have heq := request_eq (⟨timestamptz, intent, unavailableError⟩ : Creation _)
      obtain ⟨hanswer, htable⟩ :=
        Creation.run_start clock (⟨timestamptz, intent, unavailableError⟩ : Creation _) h.sound
      obtain ⟨href, hrep⟩ := Creation.outcome_refines h
        (⟨timestamptz, intent, unavailableError⟩ : Creation _) hexact ha
      rw [← heq, href] at hanswer
      rw [← heq] at htable
      have hleft : (alone timestamptz clock (.request intent) table).2 = _ := htable
      exact ⟨hanswer, hleft ▸ hrep⟩
  | read id requester =>
      have heq := read_eq (⟨id, requester, unavailableError⟩ : Inspection _)
      have hrun := Inspection.run_start clock
        (⟨id, requester, unavailableError⟩ : Inspection _) h.sound
      rw [← heq, Inspection.outcome_refines h] at hrun
      have hleft : (alone timestamptz clock (.read id requester) table).2 = table :=
        congrArg (fun r => r.2.table) hrun
      refine ⟨congrArg Prod.fst hrun, ?_⟩
      rw [hleft]
      exact h
  | decide id status caller actor evidence reason =>
      have hrun := alone_transition clock h
        (Transition.decide unavailableError id status caller actor evidence reason) rfl
        ⟨status, caller, some actor, some evidence, reason⟩ Ledger.refuseSettled rfl
        (.decided status ha _ _ _ _) (fun row => refusal_of_no_deadline _ rfl _ row)
        (fun _ => Ledger.pending_of_refuseSettled)
      rw [← decide_eq] at hrun
      exact hrun
  | cancel id caller actor reason =>
      have hrun := alone_transition clock h
        (Transition.cancel unavailableError id caller actor reason) rfl
        ⟨.cancelled, caller, some actor, none, reason⟩ (Ledger.refuseOthers caller) rfl
        (.cancelled _ _ _) (fun row => refusal_of_no_deadline _ rfl _ row)
        (fun _ => Ledger.pending_of_refuseOthers)
      rw [← cancel_eq] at hrun
      exact hrun
  | expire id caller =>
      have hrun := alone_transition clock h (Transition.expire unavailableError id caller) rfl
        ⟨.expired, caller, none, none, none⟩ (Ledger.refuseEarly clock.moments.due) rfl
        (.expired _) (fun row => refusal_expire _ _ _ _ row) (fun _ => Ledger.pending_of_refuseEarly)
      rw [← expire_eq] at hrun
      exact hrun

end Methods

end BusinessApproval.Postgres
