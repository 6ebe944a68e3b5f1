import BusinessApproval.Model.Migrations
import BusinessApproval.Proof.Reasons
import BusinessApproval.Proof.Retry
import BusinessApproval.Proof.Server

/-!
# Upgrading a table

A table may be older than the digests. The upgrade gives its approvals none, and no call
ever gives them one: they are approvals like all others, that go on under the ledger, but a
request that names a digest is never answered with one of them, and a request for a
management operation names a digest.
-/

namespace BusinessApproval.Postgres

open ApprovalService

/-! ## The table -/

/-- The constraints of migration 1: unique keys, and the checks on every row. -/
structure FirstSound (rows : List FirstRow) : Prop where
  unique : Keyed.Unique FirstRow.requestId FirstRow.pair rows
  checked : ∀ row ∈ rows, row.checks = true

/-- The dates of a row are in the years 0 to 9999. -/
structure FirstRow.Dated (row : FirstRow) : Prop where
  requestedAt : InYears (ofTimestamptz row.requestedAt)
  expiresAt : InYears (ofTimestamptz row.expiresAt)
  terminalAt : ∀ t, row.terminalAt = some t → InYears (ofTimestamptz t)

/-- No row is in the way of the new constraint. -/
theorem bindImmutableIntent_eq (rows : List FirstRow) :
    bindImmutableIntent rows = .ok (upgraded rows) := by
  rw [bindImmutableIntent, if_pos]
  simp [upgraded, FirstRow.addIntentDigest, PgRow.digestCheck]

theorem mem_upgraded {rows : List FirstRow} {row : PgRow} :
    row ∈ upgraded rows ↔ ∃ first ∈ rows, first.addIntentDigest = row := List.mem_map

theorem FirstRow.checks_addIntentDigest {row : FirstRow} (h : row.checks = true) :
    row.addIntentDigest.checks = true := by
  rw [FirstRow.checks] at h
  rw [PgRow.checks, Bool.and_eq_true]
  exact ⟨h, rfl⟩

/-- The constraints of both migrations hold of what the upgrade leaves. -/
theorem FirstSound.sound {rows : List FirstRow} (h : FirstSound rows) : Sound (upgraded rows) where
  unique := by
    refine ⟨?_, ?_⟩
    · rw [upgraded, List.map_map]
      exact h.unique.keys
    · rw [upgraded, List.map_map]
      exact h.unique.alts
  checked row hrow := by
    obtain ⟨first, hfirst, rfl⟩ := mem_upgraded.mp hrow
    exact FirstRow.checks_addIntentDigest (h.checked first hfirst)

theorem FirstSound.lookup_upgraded {rows : List FirstRow} (h : FirstSound rows) {row : FirstRow}
    (hrow : row ∈ rows) : lookup (upgraded rows) row.requestId = some row.addIntentDigest :=
  Keyed.lookup_of_mem h.sound.unique.keys (mem_upgraded.mpr ⟨row, hrow, rfl⟩)

/-! ## The approvals -/

/-- The ledger of a table. -/
def ledgerOf (table : Table) : Ledger := fun id => (lookup table id).map PgRow.record

theorem Sound.represents {table : Table} (h : Sound table) : Represents table (ledgerOf table) :=
  ⟨h, fun _ => rfl⟩

theorem storable_ofTimestamptz {t : Int} (h : InYears (ofTimestamptz t)) :
    Storable (ofTimestamptz t) := ⟨h, by unfold ofTimestamptz; omega⟩

theorem FirstRow.sound_record {row : FirstRow} (hc : row.checks = true) (hd : row.Dated) :
    row.addIntentDigest.record.Sound := by
  have hholds := PgRow.checks_iff.mp (FirstRow.checks_addIntentDigest hc)
  refine ⟨hholds.consistent, storable_ofTimestamptz hd.requestedAt,
    storable_ofTimestamptz hd.expiresAt, ?_, fun t ht => ?_⟩
  · have horder := hholds.deadline
    change ofTimestamptz row.requestedAt < ofTimestamptz row.expiresAt
    change row.requestedAt < row.expiresAt at horder
    unfold ofTimestamptz
    omega
  · obtain ⟨micros, hmicros, rfl⟩ := Option.map_eq_some_iff.mp ht
    exact hd.terminalAt micros hmicros

/-- What the upgrade leaves stands for a sound ledger. -/
theorem FirstSound.stands {rows : List FirstRow} (h : FirstSound rows)
    (hdated : ∀ row ∈ rows, row.Dated) :
    Stands Represents (upgraded rows) (ledgerOf (upgraded rows)) where
  represents := h.sound.represents
  sound := by
    have hids : ∀ {id a}, ledgerOf (upgraded rows) id = some a → a.requestId = id := by
      intro id a ha
      obtain ⟨row, hrow, rfl⟩ := Option.map_eq_some_iff.mp ha
      exact requestId_of_lookup hrow
    refine ⟨⟨hids, fun {id id' a b} ha hb hpair => ?_⟩, fun {id a} ha => ?_⟩
    · obtain ⟨row, hrow, rfl⟩ := Option.map_eq_some_iff.mp ha
      obtain ⟨row', hrow', rfl⟩ := Option.map_eq_some_iff.mp hb
      -- the second key is unique as well
      have heq : row = row' := Keyed.eq_of_alt h.sound.unique.alts (Keyed.mem_of_lookup hrow)
        (Keyed.mem_of_lookup hrow') hpair
      rw [← requestId_of_lookup hrow, ← requestId_of_lookup hrow', heq]
    · obtain ⟨row, hrow, rfl⟩ := Option.map_eq_some_iff.mp ha
      obtain ⟨first, hfirst, rfl⟩ := mem_upgraded.mp (Keyed.mem_of_lookup hrow)
      exact FirstRow.sound_record (h.checked first hfirst) (hdated first hfirst)

/-- A row that stands for a later moment of an approval has the terms of the row before. -/
theorem PgRow.terms_of_evolves {row later : PgRow} (h : Evolves row.record later.record) :
    later.terms = row.terms := by
  have hrequested : later.requestedAt = row.requestedAt := ofTimestamptz_injective h.requestedAt
  have hexpires : later.expiresAt = row.expiresAt := ofTimestamptz_injective h.expiresAt
  unfold PgRow.terms
  rw [PgRow.mk.injEq]
  exact ⟨h.requestId, h.requesterInstance, h.idempotencyKey, h.requestedBy, h.approvalKind,
    h.subjectKind, h.subjectId, rfl, rfl, hrequested, hexpires, rfl, rfl, rfl, rfl, rfl,
    h.intentDigest⟩

/-- It is the same row, or it was pending and has been settled. -/
theorem PgRow.moves_of_evolves {row later : PgRow} (hc : row.checks = true)
    (hc' : later.checks = true) (h : Evolves row.record later.record) :
    later = row ∨ row.status = "pending" ∧ later.status ≠ "pending" ∧ later.revision = 2 := by
  rcases h.moves with heq | ⟨hp, -, hs, hr⟩
  · exact Or.inl (PgRow.record_injective hc' hc heq)
  · have hstatus := (PgRow.checks_iff.mp hc).status
    have hstatus' := (PgRow.checks_iff.mp hc').status
    refine Or.inr ⟨by rw [hstatus, hp]; rfl, fun hpending => hs ?_, hr⟩
    rw [hstatus'] at hpending
    exact ApprovalStatus.asStr_injective hpending

/-! ## One request -/

section Requests

variable {Ctx : Type} {deps : Deps Ctx} (config : ApprovalPolicy) {L : Ledger} {m : Moments}
  {context : Ctx} {body : RequestRequest} {caller : String}

/-- A request on a key of an approval without a digest does not succeed, if it names a digest
or should name one. -/
theorem serve_request_undigested (hlaw : deps.time.Lawful) (hm : m.InYears) (hL : L.Sound)
    (hcaller : deps.callerInstance context = some caller) {id : String} {a : StoredApproval}
    (ha : L id = some a) (hdigest : a.intentDigest = none)
    (hkey : id = body.requestId ∨ a.pair = (caller, body.idempotencyKey))
    (hbound : body.intentDigest ≠ none ∨ body.subject.kind = "management-operation") :
    (L.serve deps config m (.request context body)).1.succeeded = false
      ∧ (L.serve deps config m (.request context body)).2 = L := by
  rw [serve_request]
  cases hauth : authorizedCaller deps config context ApprovalPolicy.canRequest with
  | none => exact ⟨rfl, rfl⟩
  | some caller' =>
      cases hcaller.symm.trans (of_authorizedCaller hauth).1
      simp only
      cases hadmitted : admission deps.time caller body m.now with
      | error e => exact ⟨rfl, rfl⟩
      | ok intent =>
          have hadmits := admission_ok hlaw hm.now hadmitted
          obtain ⟨expiresAt, -, rfl⟩ := hadmits.deadline
          -- a management operation that is admitted names a digest
          have hnamed : body.intentDigest ≠ none := by
            rcases hbound with hbound | hmanagement
            · exact hbound
            · intro hnone
              have hsome := hadmits.fields.management hmanagement
              rw [hnone] at hsome
              cases hsome
          have hshares : Ledger.SharesKey (intentOf caller body (floorMicros m.now)
              (floorMicros expiresAt)) a := by
            rcases hkey with rfl | hpair
            · exact Or.inr (hL.wellKeyed.ids ha)
            · exact Or.inl hpair
          have hresolves := Ledger.request_resolves hL.wellKeyed
            (intentOf caller body (floorMicros m.now) (floorMicros expiresAt))
          simp only
          generalize L.request _ = outcome at hresolves ⊢
          cases hresolves with
          | created hfree => exact absurd hshares (hfree id a ha)
          | @repeated b hb hagrees =>
              -- what agrees has both keys, so it is the approval without a digest
              have hsame : b = a := by
                have hkeys := Ledger.keys_of_sameIntent (agrees_iff.mp hagrees)
                have hid : id = body.requestId := by
                  rcases hkey with hid | hpair
                  · exact hid
                  · exact hL.wellKeyed.pairs ha hb (hpair.trans hkeys.2.symm)
                rw [hid] at ha
                exact Option.some.inj (hb.symm.trans ha)
              exact absurd (hagrees.intentDigest.symm.trans (hsame ▸ hdigest)) hnamed
          | conflict => exact ⟨rfl, rfl⟩

end Requests

/-! ## All requests and calls to come -/

section Runs

variable {Ctx : Type} (deps : Deps Ctx) (config : ApprovalPolicy)

/-- A table that service calls lead to from an upgraded one. -/
def After (rows : List FirstRow) (table : Table) : Prop :=
  ∃ calls, (backend deps).Timely calls
    ∧ ((backend deps).run deps config calls (upgraded rows)).2 = table

/-- What an upgrade makes of the approvals there are. -/
structure Upgrades (rows : List FirstRow) : Prop where
  applies : bindImmutableIntent rows = .ok (upgraded rows)
  /-- The calls go on as on the ledger of these approvals, none of which has a digest. -/
  continues : ∀ calls, (backend deps).Timely calls →
    let followed := Ledger.run deps config (calls.map fun c => (c.1.moments, c.2))
      (ledgerOf (upgraded rows))
    ((backend deps).run deps config calls (upgraded rows)).1 = followed.1
      ∧ ∀ id, (backend deps).find ((backend deps).run deps config calls (upgraded rows)).2 id
        = followed.2 id
  /-- The constraints of both migrations hold for good. -/
  constrained : ∀ table, After deps config rows table → Sound table
  /-- An approval keeps its terms and gets no digest; it is settled once at most. -/
  kept : ∀ table, After deps config rows table → ∀ row ∈ rows, ∃ later,
    lookup table row.requestId = some later ∧ later.terms = row.addIntentDigest.terms
      ∧ later.intentDigest = none
      ∧ (later = row.addIntentDigest
        ∨ row.status = "pending" ∧ later.status ≠ "pending" ∧ later.revision = 2)
  /-- No answer shows a digest of it. -/
  shown : ∀ table, After deps config rows table → ∀ clock, clock.InYears → ∀ call, ∀ row ∈ rows,
    ((backend deps).serve deps config clock call table).1.field .requestId
        = some (.text row.requestId) →
      ∀ v, ((backend deps).serve deps config clock call table).1.field .intentDigest = some v →
        v = .optional none
  /-- A request on a key of it does not succeed if it names a digest, or should name one. -/
  refuses : ∀ table, After deps config rows table → ∀ clock, clock.InYears →
    ∀ context body caller, deps.callerInstance context = some caller →
    (∃ row ∈ rows, row.requestId = body.requestId ∨ row.pair = (caller, body.idempotencyKey)) →
    body.intentDigest ≠ none ∨ body.subject.kind = "management-operation" →
    ((backend deps).serve deps config clock (.request context body) table).1.succeeded = false
      ∧ ∀ id, lookup ((backend deps).serve deps config clock (.request context body) table).2 id
        = lookup table id
  /-- A request with its terms and no digest that is admitted is answered with it. -/
  replays : ∀ table, After deps config rows table → ∀ clock, clock.InYears →
    ∀ context body caller intent,
    authorizedCaller deps config context ApprovalPolicy.canRequest = some caller →
    admission deps.time caller body clock.nowUtc = .ok intent →
    ∀ row ∈ rows, Agrees row.addIntentDigest.record intent → ∃ later : PgRow,
      lookup table row.requestId = some later
        ∧ ((backend deps).serve deps config clock (.request context body) table).1
          = .request (.ok ⟨false, row.requestId, requestStatus later.record.status,
            toString later.revision⟩)
        ∧ ∀ id, lookup ((backend deps).serve deps config clock (.request context body) table).2 id
          = lookup table id

variable {deps} {config} {rows : List FirstRow} {table : Table}

/-- After any calls the table stands for a ledger that has come from the one at the start. -/
theorem After.stands (hlaw : deps.Lawful) (hs : FirstSound rows) (hdated : ∀ row ∈ rows, row.Dated)
    (h : After deps config rows table) :
    ∃ L, Stands Represents table L ∧ (ledgerOf (upgraded rows)).Evolves L := by
  obtain ⟨calls, hcalls, rfl⟩ := h
  exact (implements hlaw).stands_run config hlaw.time hcalls (hs.stands hdated)

/-- What has become of an approval of the start. -/
theorem FirstSound.exists_later (hs : FirstSound rows) {L : Ledger}
    (hL : Stands Represents table L) (hevolves : (ledgerOf (upgraded rows)).Evolves L)
    {row : FirstRow} (hrow : row ∈ rows) : ∃ later, lookup table row.requestId = some later
      ∧ L row.requestId = some later.record ∧ Evolves row.addIntentDigest.record later.record
      ∧ later.checks = true := by
  have hstart : ledgerOf (upgraded rows) row.requestId = some row.addIntentDigest.record := by
    rw [ledgerOf, hs.lookup_upgraded hrow, Option.map_some]
  obtain ⟨a, ha, hev⟩ := hevolves _ _ hstart
  obtain ⟨later, hlater, rfl⟩ := hL.represents.exists_row ha
  exact ⟨later, hlater, ha, hev, hL.represents.sound.checks_of_lookup hlater⟩

/-- **An upgrade binds no approval to a digest and loses none**, whatever is called afterwards
in the years 0 to 9999. -/
theorem upgrade_binds_nothing (deps : Deps Ctx) (hlaw : deps.Lawful) (config : ApprovalPolicy)
    (rows : List FirstRow) (hs : FirstSound rows) (hdated : ∀ row ∈ rows, row.Dated) :
    Upgrades deps config rows where
  applies := bindImmutableIntent_eq rows
  continues calls hcalls := by
    obtain ⟨hanswers, hrep⟩ := (implements hlaw).run config hlaw.time hcalls hs.sound.represents
    exact ⟨hanswers, fun id => (implements hlaw).find hrep id⟩
  constrained table h := by
    obtain ⟨L, hL, -⟩ := h.stands hlaw hs hdated
    exact hL.represents.sound
  kept table h row hrow := by
    obtain ⟨L, hL, hevolves⟩ := h.stands hlaw hs hdated
    obtain ⟨later, hlater, -, hev, hc⟩ := hs.exists_later hL hevolves hrow
    exact ⟨later, hlater, PgRow.terms_of_evolves hev, hev.intentDigest,
      PgRow.moves_of_evolves (FirstRow.checks_addIntentDigest (hs.checked row hrow)) hc hev⟩
  shown table h clock hclock call row hrow hid v hv := by
    obtain ⟨L, hL, hevolves⟩ := h.stands hlaw hs hdated
    obtain ⟨hserve, hL'⟩ := (implements hlaw).stands_serve config hlaw.time hclock call hL
    rw [hserve] at hid hv
    obtain ⟨a, ha, hreports⟩ := serve_reports hL.sound clock.moments call hid
    have hstep := (serve_change config hlaw.time ((implements hlaw).inYears hclock) L call).evolves
      hL.sound
    obtain ⟨later, -, hfound, hev, -⟩ := hs.exists_later hL' (hevolves.trans hstep) hrow
    -- the response is about this approval, which has no digest
    have heq : a.requestId = row.requestId := by
      rw [hreports.requestId] at hid
      exact FieldValue.text.inj (Option.some.inj hid)
    rw [heq, hfound] at ha
    have hfield := hreports.fields .intentDigest v (by decide) hv
    cases ha
    rw [StoredApproval.field, hev.intentDigest] at hfield
    exact (Option.some.inj hfield).symm
  refuses table h clock hclock context body caller hcaller hkey hbound := by
    obtain ⟨L, hL, hevolves⟩ := h.stands hlaw hs hdated
    obtain ⟨hserve, hL'⟩ :=
      (implements hlaw).stands_serve config hlaw.time hclock (.request context body) hL
    obtain ⟨row, hrow, hkey⟩ := hkey
    obtain ⟨later, hlater, hfound, hev, -⟩ := hs.exists_later hL hevolves hrow
    obtain ⟨hfailed, hsame⟩ := serve_request_undigested config hlaw.time
      ((implements hlaw).inYears hclock) hL.sound hcaller hfound hev.intentDigest
      (hkey.imp id fun hpair => hev.pair.trans hpair) hbound
    refine ⟨by rw [hserve, hfailed], fun id => ?_⟩
    exact (implements hlaw).row_eq hL'.represents hL.represents id (congrFun hsame id)
  replays table h clock hclock context body caller intent hcaller hadmitted row hrow hagrees := by
    obtain ⟨L, hL, hevolves⟩ := h.stands hlaw hs hdated
    obtain ⟨hserve, hL'⟩ :=
      (implements hlaw).stands_serve config hlaw.time hclock (.request context body) hL
    obtain ⟨later, hlater, hfound, hev, -⟩ := hs.exists_later hL hevolves hrow
    have hyears := (implements hlaw).inYears hclock
    have hsame : sameIntent later.record intent = true := by
      rw [hev.sameIntent]
      exact agrees_iff.mp hagrees
    have hid : intent.requestId = row.requestId := hagrees.requestId.symm
    have hretry := serve_retry hlaw.time hyears hL.sound hyears.now hadmitted hcaller
      (hid ▸ hfound) hsame
    -- it has been admitted, so its deadline is still to come
    have hearly : floorMicros clock.moments.now < intent.expiresAt := by
      have hadmits := admission_ok hlaw.time hyears.now hadmitted
      obtain ⟨expiresAt, -, rfl⟩ := hadmits.deadline
      exact hadmits.order
    rw [if_pos hearly] at hretry
    rw [hretry] at hserve hL'
    refine ⟨later, hlater, ?_, fun id =>
      (implements hlaw).row_eq hL'.represents hL.represents id rfl⟩
    rw [hserve, PgRow.record_requestId, requestId_of_lookup hlater]
    rfl

/-- A request for a management operation and a settled one, from before the digests. -/
def legacy : List FirstRow := [
  { requestId := "apr_operation"
    requesterInstance := "approval-client"
    idempotencyKey := "operation:7"
    requestedBy := "usr_requester"
    approvalKind := "operation.review"
    subjectKind := "management-operation"
    subjectId := "op_7"
    status := "pending"
    revision := 1
    requestedAt := 0
    expiresAt := 1000000
    terminalCallerInstance := none
    terminalActor := none
    evidenceRef := none
    reason := none
    terminalAt := none },
  { requestId := "apr_expense"
    requesterInstance := "approval-client"
    idempotencyKey := "expense:42"
    requestedBy := "usr_requester"
    approvalKind := "expense.review"
    subjectKind := "expense"
    subjectId := "exp_42"
    status := "cancelled"
    revision := 2
    requestedAt := 0
    expiresAt := 1000000
    terminalCallerInstance := some "approval-client"
    terminalActor := some "usr_requester"
    evidenceRef := none
    reason := none
    terminalAt := some 500000 }]

theorem upgrade_binds_nothing_legacy : Upgrades Standard.deps Standard.policy legacy := by
  refine upgrade_binds_nothing Standard.deps Standard.deps_lawful Standard.policy legacy
    ⟨⟨by decide, by decide⟩, by decide⟩ fun row hrow => ?_
  rcases List.mem_pair.mp hrow with rfl | rfl
  · exact ⟨⟨by decide, by decide⟩, ⟨by decide, by decide⟩, fun t ht => (by cases ht)⟩
  · refine ⟨⟨by decide, by decide⟩, ⟨by decide, by decide⟩, fun t ht => ?_⟩
    cases ht
    exact ⟨by decide, by decide⟩

end Runs

end BusinessApproval.Postgres
