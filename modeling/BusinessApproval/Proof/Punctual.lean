import BusinessApproval.Proof.ExactlyOnce
import BusinessApproval.Proof.Serial

/-!
# Deadlines and the clock

Two things could be expected of the evidence an approval is settled with: that what is
decided was decided before the deadline, and that what has expired was past it. On neither
store does a decision look at the clock, so the first holds when the callers see to it, and
not otherwise. An expiration compares the deadline with the timestamp it records on
PostgreSQL; on D1 these are two reads of the clock, and the earlier one is recorded.
-/

namespace BusinessApproval

open ApprovalService Concurrent

variable {Ctx Clock State Row : Type}

/-- Whatever has been decided was decided before its deadline. -/
def Backend.DecidedInTime (B : Backend Clock State Row) (s : State) : Prop :=
  ∀ id a, B.find s id = some a → a.status = .approved ∨ a.status = .rejected →
    ∃ instant, a.terminalAt = some instant ∧ instant < a.expiresAt

/-- Whatever has expired was past its deadline. -/
def Backend.ExpiredWhenDue (B : Backend Clock State Row) (s : State) : Prop :=
  ∀ id a, B.find s id = some a → a.status = .expired →
    ∃ instant, a.terminalAt = some instant ∧ a.expiresAt ≤ instant

/-! ## PostgreSQL -/

namespace Postgres

variable {timestamptz : Int → Int} {w : World} {order : List (Entry Call Int)}

/-- The calls of a world in the order of their effects, with the timestamps of their transactions. -/
structure Serializes (timestamptz : Int → Int) (w : World) (order : List (Entry Call Int)) :
    Prop where
  linear : Linearizes Completes (serially timestamptz) [] w.history order
  table : serial (serially timestamptz) [] order = w.shared.committed
  stamps : ∀ e ∈ order, e.call.writes = true → w.shared.begun e.client = some e.stamp

theorem Running.serializes (h : Running timestamptz w) : ∃ order, Serializes timestamptz w order := by
  obtain ⟨order, hinv⟩ := h.inv
  exact ⟨order, hinv.linear, hinv.table, hinv.stamps⟩

/-- Every decision that finds its approval pending has begun its transaction before the deadline. -/
def DecidesInTime (timestamptz : Int → Int) (order : List (Entry Call Int)) : Prop :=
  ∀ e earlier, e :: earlier <:+ order → ∀ requestId decision caller actor evidenceRef reason,
    e.call = .decide requestId decision caller actor evidenceRef reason →
    decision = .approved ∨ decision = .rejected →
    ∀ row, lookup (serial (serially timestamptz) [] earlier) requestId = some row →
      row.status = "pending" → e.stamp < row.expiresAt

theorem find_of_sound (deps : Deps Ctx) {table : Table} (hs : Sound table) (id : String) :
    (backend deps).find table id = (lookup table id).map PgRow.record := by
  change (lookup table id).bind (fun row => (decodeApproval row).toOption) = _
  cases hrow : lookup table id with
  | none => rfl
  | some row => simp only [Option.bind_some, Option.map_some,
      PgRow.decode_of_checks (hs.checks_of_lookup hrow), Except.toOption]

theorem record_status {row : PgRow} {status : ApprovalStatus} (h : row.status = status.asStr) :
    row.record.status = status := by
  rw [PgRow.record_of_status status h]
  rfl

/-- A decision that meets a pending row settles it, whatever the time. -/
theorem serially_decide (timestamptz : Int → Int) {table : Table} (hs : Sound table) {call : Call}
    {requestId : String} {decision : ApprovalStatus} {caller actor evidenceRef : String}
    {reason : Option String}
    (hcall : call = .decide requestId decision caller actor evidenceRef reason)
    (hdecision : decision = .approved ∨ decision = .rejected) {row : PgRow}
    (hrow : lookup table requestId = some row) (hp : row.status = "pending") (now : Int) :
    lookup (serially timestamptz now call table).2 requestId
      = some (row.settle ⟨decision.asStr, caller, some actor, some evidenceRef, reason⟩ now) := by
  have hT := performs_decide requestId decision caller actor evidenceRef reason
  have hchecks := hs.checks_of_lookup hrow
  have hpending := (pending_iff hchecks).mp hp
  have hr : (Transition.decide settledAnswer requestId decision caller actor evidenceRef
      reason).refusal now row = none := by
    rw [refusal_of_no_deadline _ rfl]
    exact if_neg (not_not.mpr hpending)
  have hc := PgRow.settle_checks (.decided decision hdecision caller actor evidenceRef reason) now
    hchecks hpending
  rw [hcall, serially, hT.alone timestamptz _ hs, Transition.outcome_settled _ hrow hr hc]
  exact lookup_put_settle hrow _ now

/-- Only a decision approves or rejects. -/
theorem decide_of_settles {call : Call} {id : String} {set : PgRow.Settlement}
    {status : ApprovalStatus} (hset : call.settles = some (id, set))
    (hs : set.status = status.asStr) (hstatus : status = .approved ∨ status = .rejected) :
    ∃ caller actor evidenceRef reason,
      call = .decide id status caller actor evidenceRef reason := by
  -- only a decision writes one of these statuses
  have hother : ∀ other : ApprovalStatus, other ≠ .approved → other ≠ .rejected →
      set.status ≠ other.asStr := by
    rintro other ha hr heq
    obtain rfl := ApprovalStatus.asStr_injective (heq.symm.trans hs)
    exact hstatus.elim ha hr
  cases call with
  | request intent => cases hset
  | read requestId requester => cases hset
  | decide requestId decision caller actor evidenceRef reason =>
      cases hset
      obtain rfl := ApprovalStatus.asStr_injective hs
      exact ⟨caller, actor, evidenceRef, reason, rfl⟩
  | cancel requestId caller actor reason =>
      cases hset
      exact absurd rfl (hother .cancelled (by decide) (by decide))
  | expire requestId caller =>
      cases hset
      exact absurd rfl (hother .expired (by decide) (by decide))

section Worlds

variable (deps : Deps Ctx)

/-- An approval of the table is the record of a row. -/
theorem Serializes.row_of_find (h : Serializes timestamptz w order) {id : String}
    {a : StoredApproval} (ha : (backend deps).find w.shared.committed id = some a) :
    ∃ row, lookup (serial (serially timestamptz) [] order) id = some row ∧ row.checks = true
      ∧ a = row.record := by
  have hs := serial_sound timestamptz order
  rw [← h.table, find_of_sound deps hs] at ha
  obtain ⟨row, hrow, rfl⟩ := Option.map_eq_some_iff.mp ha
  exact ⟨row, hrow, hs.checks_of_lookup hrow, rfl⟩

/-- **The approvals have been decided in time just if every decision came in time.** -/
theorem Serializes.decidedInTime_iff (h : Serializes timestamptz w order) :
    (backend deps).DecidedInTime w.shared.committed ↔ DecidesInTime timestamptz order := by
  have hs := serial_sound timestamptz order
  constructor
  · intro hdecided e earlier hsuffix requestId decision caller actor evidenceRef reason hcall
      hdecision old hold hp
    -- the decision settles the row for good, at the timestamp it has
    have hsettled := serially_decide timestamptz (serial_sound timestamptz earlier) hcall hdecision
      hold hp e.stamp
    generalize hset : (⟨decision.asStr, caller, some actor, some evidenceRef, reason⟩ :
      PgRow.Settlement) = set at hsettled
    have hstatus : (old.settle set e.stamp).status = decision.asStr := hset ▸ rfl
    have hne : (old.settle set e.stamp).status ≠ "pending" := by
      rw [hstatus]
      rcases hdecision with rfl | rfl <;> decide
    have hfinal := serial_keeps hsuffix hsettled hne
    have hrecord := record_status hstatus
    obtain ⟨instant, hinstant, hlt⟩ := hdecided requestId (old.settle set e.stamp).record
      (by rw [← h.table, find_of_sound deps hs, hfinal]; rfl) (hrecord ▸ hdecision)
    have hat : (old.settle set e.stamp).record.terminalAt = some (ofTimestamptz e.stamp) := rfl
    cases hat.symm.trans hinstant
    change ofTimestamptz e.stamp < ofTimestamptz old.expiresAt at hlt
    simp only [ofTimestamptz] at hlt
    omega
  · intro hdecides id a ha hstatus
    obtain ⟨row, hrow, hc, rfl⟩ := h.row_of_find deps ha
    have hrowStatus := (PgRow.checks_iff.mp hc).status
    have hne : row.status ≠ "pending" := by
      rw [hrowStatus]
      rcases hstatus with hs | hs <;> rw [hs] <;> decide
    obtain ⟨e, earlier, set, old, hsuffix, hset, hold, hp, -, rfl⟩ := serial_settled hrow hne
    obtain ⟨caller, actor, evidenceRef, reason, hcall⟩ :=
      decide_of_settles hset (show set.status = _ from hrowStatus) hstatus
    have hlt := hdecides e earlier hsuffix _ _ _ _ _ _ hcall hstatus old hold hp
    refine ⟨ofTimestamptz e.stamp, rfl, ?_⟩
    change ofTimestamptz e.stamp < ofTimestamptz old.expiresAt
    simp only [ofTimestamptz]
    omega

/-- **What has expired was past its deadline**, whatever the clocks show. -/
theorem Serializes.expiredWhenDue (h : Serializes timestamptz w order) :
    (backend deps).ExpiredWhenDue w.shared.committed := by
  intro id a ha hstatus
  obtain ⟨row, hrow, hc, rfl⟩ := h.row_of_find deps ha
  have hrowStatus := (PgRow.checks_iff.mp hc).status
  rw [hstatus] at hrowStatus
  have hne : row.status ≠ "pending" := by
    rw [hrowStatus]
    decide
  obtain ⟨e, earlier, set, old, hsuffix, hset, hold, hp, hdue, rfl⟩ := serial_settled hrow hne
  have hle := hdue hrowStatus
  refine ⟨ofTimestamptz e.stamp, rfl, ?_⟩
  change ofTimestamptz old.expiresAt ≤ ofTimestamptz e.stamp
  simp only [ofTimestamptz]
  omega

end Worlds

end Postgres

/-! ## D1 -/

/-! ### Transitions that are not refused -/

section Refusals

variable {deps : Deps Ctx} {config : ApprovalPolicy}

theorem permitted_of_authorized {context : Ctx} {predicate : ApprovalPolicy → String → Bool}
    {caller : String} (h : authorizedCaller deps config context predicate = some caller) :
    permitted deps config context predicate = true := by
  by_contra hn
  rw [unauthorized_of_not_permitted (Bool.eq_false_of_not_eq_true hn)] at h
  cases h

/-- A decision that is not refused has met a pending approval. -/
theorem pending_of_decideRefusal {context : Ctx} {body : DecideRequest} {a : StoredApproval}
    (h : decideRefusal deps config context body (some a) = none) : a.status = .pending := by
  have hpending := firstOf_eq_none.mp h
    ((some a).any (fun a => a.status ≠ .pending), .alreadyTerminal) (by simp)
  simpa using hpending

theorem pending_of_expireRefusal {context : Ctx} {body : ExpireRequest} {clock : Int}
    {a : StoredApproval} (h : expireRefusal deps config context body clock (some a) = none) :
    a.status = .pending := by
  have hpending := firstOf_eq_none.mp h
    ((some a).any (fun a => a.status ≠ .pending), .alreadyTerminal) (by simp)
  simpa using hpending

/-- What approves or rejects is a decision that is not refused. -/
theorem decision_of_settles {call : ServiceCall Ctx} {o : StoreOp} {id : String}
    {a : StoredApproval} {set : Settlement} (hsends : Sends deps config call o)
    (hset : Settles o id a set) (hp : a.status = .pending)
    (hstatus : set.status = .approved ∨ set.status = .rejected) :
    ∃ context body, call = .decide context body ∧ id = body.requestId
      ∧ decideRefusal deps config context body (some a) = none := by
  cases hset with
  | decide =>
      cases hsends with
      | @decide context body caller hcaller hhuman hbody =>
          refine ⟨context, body, rfl, rfl, ?_⟩
          have hvalid : (validRequestId body.requestId && validReference body.decidedBy
              && validReference body.evidenceRef && validReason body.reason) = true := by
            simpa [decisionRefused, and_assoc] using hbody
          simp [decideRefusal, firstOf_cons, permitted_of_authorized hcaller, hhuman, hvalid, hp]
  | cancel => rcases hstatus with h | h <;> cases h
  | expire => rcases hstatus with h | h <;> cases h

/-- What expires is an expiration that is not refused. -/
theorem expiration_of_settles {call : ServiceCall Ctx} {o : StoreOp} {id : String}
    {a : StoredApproval} {set : Settlement} (hsends : Sends deps config call o)
    (hset : Settles o id a set) (hp : a.status = .pending) (hstatus : set.status = .expired)
    {clock : Int} (hdue : a.expiresAt ≤ clock) :
    ∃ context body, call = .expire context body ∧ id = body.requestId
      ∧ expireRefusal deps config context body clock (some a) = none := by
  cases hset with
  | decide =>
      cases hsends with
      | @decide context body caller hcaller hhuman hbody =>
          change decidedStatus body.decision = .expired at hstatus
          cases hd : body.decision <;> rw [hd] at hstatus <;> cases hstatus
  | cancel => cases hstatus
  | expire =>
      cases hsends with
      | @expire context body caller hcaller hbody =>
          refine ⟨context, body, rfl, rfl, ?_⟩
          have hnot : ¬ clock < a.expiresAt := by omega
          simp [expireRefusal, firstOf_cons, permitted_of_authorized hcaller, hbody, hp, hnot]

end Refusals

namespace D1

variable {deps : Deps Ctx} {config : ApprovalPolicy} {w : World Ctx}

/-- Every decision that is not refused has read `new Date()` before the deadline. -/
def DecidesInTime (deps : Deps Ctx) (config : ApprovalPolicy) (w : World Ctx) : Prop :=
  ∀ e ∈ w.shared.log, ∀ context body, (w.clients e.client).call = some (.decide context body) →
    ∀ a date, (backend deps).find e.before body.requestId = some a →
      decideRefusal deps config context body (some a) = none →
      w.shared.dates e.client = some date → date * 1000000 < a.expiresAt

/-- Every expiration that is not refused has read `new Date()` when it was past the deadline. -/
def ExpiresInTime (deps : Deps Ctx) (config : ApprovalPolicy) (w : World Ctx) : Prop :=
  ∀ e ∈ w.shared.log, ∀ context body, (w.clients e.client).call = some (.expire context body) →
    ∀ a date now, (backend deps).find e.before body.requestId = some a →
      w.shared.dates e.client = some date → w.shared.nows e.client = some now →
      expireRefusal deps config context body (now * 1000000) (some a) = none →
      a.expiresAt ≤ date * 1000000

/-- What a batch has made of a pending approval is there to stay. -/
theorem Inv.kept (hlaw : deps.Lawful) (h : Inv deps config w) {e : Executed}
    (he : e ∈ w.shared.log) {id : String} {a b : StoredApproval}
    (ha : (backend deps).find e.before id = some a) (hp : a.status = .pending)
    (hb : (backend deps).find e.after id = some b) (hs : b.status ≠ .pending) :
    (backend deps).find w.shared.table id = some b := by
  obtain ⟨row, hrow, -⟩ := Option.bind_eq_some_iff.mp ha
  have hchanges : e.Changes id := by
    refine ⟨row, hrow, fun hsame => hs ?_⟩
    have hfind := congrArg (fun row => Option.bind row (backend deps).approval)
      (hsame.trans hrow.symm)
    cases hb.symm.trans (hfind.trans ha)
    exact hp
  obtain ⟨-, -, -, -, -, hrows⟩ := h.chain.settled hlaw h.alone he hchanges
  exact (congrArg (fun row => Option.bind row (backend deps).approval) hrows).trans hb

/-- **The approvals have been decided in time just if every decision came in time.** -/
theorem Inv.decidedInTime_iff (hlaw : deps.Lawful) (h : Inv deps config w) :
    (backend deps).DecidedInTime w.shared.table ↔ DecidesInTime deps config w := by
  constructor
  · intro hdecided e he context body hcall a date ha hrefusal hdate
    obtain ⟨clock, hc⟩ := h.carried_by hcall he rfl
    have hreachable := (h.chain.reachable h.alone).2 e he
    have hexact := (transitions_exact deps hlaw config).2.decide e.before hreachable clock
      hc.consistent.inYears context body
    rw [ha] at hexact
    -- a decision that is not refused settles the row for good
    obtain ⟨caller, a', -, -, ha', hafter, -⟩ := hexact.made hrefusal
    cases ha.symm.trans ha'
    rw [← hc.after] at hafter
    have hstatus : decidedStatus body.decision = .approved
        ∨ decidedStatus body.decision = .rejected := by
      cases body.decision <;> simp [decidedStatus]
    have hfinal := h.kept hlaw he ha (pending_of_decideRefusal hrefusal) hafter (by
      change decidedStatus body.decision ≠ .pending
      rcases hstatus with hs | hs <;> rw [hs] <;> decide)
    obtain ⟨instant, hinstant, hlt⟩ := hdecided _ _ hfinal hstatus
    cases hinstant
    rw [← hc.consistent.date date hdate]
    exact hlt
  · intro hdecides id b hb hstatus
    have hne : b.status ≠ .pending := by rcases hstatus with hs | hs <;> rw [hs] <;> decide
    -- what is settled has been settled by one call, which was not refused
    obtain ⟨e, he, hchanges⟩ := (h.safe hlaw).settled id b hb hne
    obtain ⟨call, clock, o, a, set, hcall, hc, hsends, hset, ha, hp, -, hnew⟩ :=
      h.settlement hlaw he hchanges
    cases hb.symm.trans hnew
    obtain ⟨context, body, rfl, rfl, hrefusal⟩ := decision_of_settles hsends hset hp hstatus
    have hread := hc.readBy hsends hset
    exact ⟨_, rfl, hdecides e he context body hcall a clock.newDate ha hrefusal hread.date⟩

/-- **What has expired was past its deadline just if no deadline fell between two clock reads.** -/
theorem Inv.expiredWhenDue_iff (hlaw : deps.Lawful) (h : Inv deps config w) :
    (backend deps).ExpiredWhenDue w.shared.table ↔ ExpiresInTime deps config w := by
  constructor
  · intro hexpired e he context body hcall a date now ha hdate hnow hrefusal
    obtain ⟨clock, hc⟩ := h.carried_by hcall he rfl
    have hreachable := (h.chain.reachable h.alone).2 e he
    have hexact := (transitions_exact deps hlaw config).2.expire e.before hreachable clock
      hc.consistent.inYears context body
    rw [ha] at hexact
    rw [← hc.consistent.now now hnow] at hrefusal
    -- an expiration that is not refused settles the row for good
    obtain ⟨caller, a', -, -, ha', hafter, -⟩ := hexact.made hrefusal
    cases ha.symm.trans ha'
    rw [← hc.after] at hafter
    have hfinal := h.kept hlaw he ha (pending_of_expireRefusal hrefusal) hafter
      (show ApprovalStatus.expired ≠ .pending by decide)
    obtain ⟨instant, hinstant, hle⟩ := hexpired _ _ hfinal rfl
    cases hinstant
    rw [← hc.consistent.date date hdate]
    exact hle
  · intro hexpires id b hb hstatus
    have hne : b.status ≠ .pending := by
      rw [hstatus]
      decide
    -- what is settled has been settled by one call, which was not refused
    obtain ⟨e, he, hchanges⟩ := (h.safe hlaw).settled id b hb hne
    obtain ⟨call, clock, o, a, set, hcall, hc, hsends, hset, ha, hp, hdue, hnew⟩ :=
      h.settlement hlaw he hchanges
    cases hb.symm.trans hnew
    obtain ⟨context, body, rfl, rfl, hrefusal⟩ :=
      expiration_of_settles hsends hset hp hstatus (hdue hstatus)
    have hread := hc.readBy hsends hset
    exact ⟨_, rfl, hexpires e he context body hcall a clock.newDate clock.dateNow ha hread.date
      hread.now hrefusal⟩

end D1

end BusinessApproval
