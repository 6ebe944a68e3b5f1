import BusinessApproval.Proof.Equivalence

/-!
# Requests beyond the calendar

The responses that are failures of the runtime. Everything stored can be presented, so
none of the response builders ever fails, and what a client sends is checked before it is
stored. One input is answered by neither a success nor a refusal: a deadline that the
RFC 3339 text can name and an `OffsetDateTime` cannot hold in UTC. Here it is shown to be
the only one, and every other deadline that cannot be met is refused as invalid.
-/

namespace BusinessApproval

open ApprovalService

variable {Ctx Clock State Row : Type}

/-- The text denotes no deadline that a request made now could be given. -/
def Unmeetable (time : TimeCrate) (now : Int) (text : String) : Prop :=
  ∀ expiresAt, time.parse text = some expiresAt → floorMicros expiresAt ≤ floorMicros now

/-! ## On the ledger -/

section Ledger

variable {deps : Deps Ctx} {config : ApprovalPolicy} {m : Moments} {L : Ledger}

theorem admission_beyond {time : TimeCrate} (hlaw : time.Lawful) {caller : String}
    {body : RequestRequest} {now : Int} (hnow : InYears now) {expiresAt : Int}
    (hp : time.parse body.expiresAt = some expiresAt) (hhold : ¬ Holdable expiresAt) :
    admission time caller body now = .error (.runtime
      (.internal "Business Approval: timestamp is outside PostgreSQL range")) := by
  have hrange : ¬ (-377705116800000000000 ≤ expiresAt - expiresAt % 1000
      ∧ expiresAt - expiresAt % 1000 < 253402300800000000000) := by
    unfold Holdable at hhold
    omega
  have hn : (normalizeTimestamp time expiresAt : Except (PluginError RequestError) Int)
      = .error (invalidRequestRuntime "timestamp is outside PostgreSQL range") := by
    simp only [normalizeTimestamp, hlaw.fromNanos, if_neg hrange]
  unfold admission
  rw [normalizeTimestamp_of_inYears hlaw hnow, hp]
  simp only [bind, Except.bind, hn]
  rfl

/-- A deadline that cannot be met is refused, unless it cannot be held either. -/
theorem admission_unmeetable {time : TimeCrate} (hlaw : time.Lawful) {caller : String}
    {body : RequestRequest} {now : Int} (hnow : InYears now)
    (hhold : ∀ expiresAt, time.parse body.expiresAt = some expiresAt → Holdable expiresAt)
    (hun : Unmeetable time now body.expiresAt) :
    admission time caller body now = .error (.domain .invalidRequest) := by
  cases ha : admission time caller body now with
  | ok intent =>
      have hadmits := admission_ok hlaw hnow ha
      obtain ⟨expiresAt, hp, rfl⟩ := hadmits.deadline
      exact absurd hadmits.order (Int.not_lt.mpr (hun expiresAt hp))
  | error e =>
      cases e with
      | runtime failure =>
          obtain ⟨expiresAt, hp, hnot, -⟩ := admission_runtime hlaw hnow ha
          exact absurd (hhold expiresAt hp) hnot
      | domain e => rw [admission_refusal ha]

/-- **A service call fails in the runtime exactly when it goes beyond the calendar.** -/
theorem serve_runtimeFailure_iff (hlaw : deps.time.Lawful) (hm : m.InYears) (hL : L.Sound)
    {call : ServiceCall Ctx} {failure : RuntimeFailure} :
    (L.serve deps config m call).1.runtimeFailure = some failure
      ↔ BeyondCalendar deps config call
        ∧ failure = .internal "Business Approval: timestamp is outside PostgreSQL range" := by
  constructor
  · exact serve_runtimeFailure hlaw hm hL
  · rintro ⟨⟨context, body, caller, expiresAt, rfl, hc, hp, hhold⟩, rfl⟩
    rw [serve_request, hc]
    simp only [admission_beyond hlaw hm.now hp hhold]
    rfl

end Ledger

/-! ## On the backends -/

section Backends

variable (B : Backend Clock State Row) (now : Clock → Int) (deps : Deps Ctx)
  (config : ApprovalPolicy)

/-- Every call of every reachable state gets a success or a refusal. -/
structure NeverFails : Prop where
  answered : ∀ s, B.Reachable deps config s → ∀ clock, B.inYears clock → ∀ call,
    (B.serve deps config clock call s).1.runtimeFailure = none
  unmeetable : ∀ s, B.Reachable deps config s → ∀ clock, B.inYears clock →
    ∀ context body caller,
    authorizedCaller deps config context ApprovalPolicy.canRequest = some caller →
    (∀ expiresAt, deps.time.parse body.expiresAt = some expiresAt →
      ¬ (Holdable expiresAt ∧ floorMicros (now clock) < floorMicros expiresAt)) →
    (B.serve deps config clock (.request context body) s).1
      = .request (.error (.domain .invalidRequest))

/-- Every call of every reachable state does, except the requests beyond the calendar. -/
structure FailsBeyondCalendar : Prop where
  answered : ∀ s, B.Reachable deps config s → ∀ clock, B.inYears clock → ∀ call failure,
    (B.serve deps config clock call s).1.runtimeFailure = some failure
      ↔ BeyondCalendar deps config call
        ∧ failure = .internal "Business Approval: timestamp is outside PostgreSQL range"
  unmeetable : ∀ s, B.Reachable deps config s → ∀ clock, B.inYears clock →
    ∀ context body caller,
    authorizedCaller deps config context ApprovalPolicy.canRequest = some caller →
    (∀ expiresAt, deps.time.parse body.expiresAt = some expiresAt →
      Holdable expiresAt ∧ floorMicros expiresAt ≤ floorMicros (now clock)) →
    (B.serve deps config clock (.request context body) s).1
      = .request (.error (.domain .invalidRequest))

variable {B} {deps} {config} {represents : State → Ledger → Prop} {moments : Clock → Moments}

theorem Implements.failsBeyondCalendar (hB : Implements B represents moments)
    (hlaw : deps.time.Lawful) :
    FailsBeyondCalendar B (fun clock => (moments clock).now) deps config where
  answered s hs clock hclock call failure := by
    obtain ⟨L, hL⟩ := hB.reachable hlaw hs
    rw [(hB.stands_serve config hlaw hclock call hL).1]
    exact serve_runtimeFailure_iff hlaw (hB.inYears hclock) hL.sound
  unmeetable s hs clock hclock context body caller hc hdeadline := by
    obtain ⟨L, hL⟩ := hB.reachable hlaw hs
    rw [(hB.stands_serve config hlaw hclock (.request context body) hL).1, serve_request, hc]
    simp only [admission_unmeetable hlaw (hB.inYears hclock).now
      (fun e he => (hdeadline e he).1) (fun e he => (hdeadline e he).2)]

end Backends

/--
**On either backend, only a request beyond the calendar fails in the runtime.**

That is a request by an allowed caller whose deadline denotes an instant outside the years
-9999 to 9999 in UTC. All other deadlines that cannot be admitted are refused as invalid.
-/
theorem fails_beyond_calendar (deps : Deps Ctx) (h : deps.Lawful) (config : ApprovalPolicy) :
    FailsBeyondCalendar (Postgres.backend deps) (fun clock => clock.nowUtc) deps config
      ∧ FailsBeyondCalendar (D1.backend deps) (fun clock => clock.dateNow * 1000000) deps config :=
  ⟨(Postgres.implements h).failsBeyondCalendar h.time, (D1.implements h).failsBeyondCalendar h.time⟩

theorem fails_beyond_calendar_standard :
    FailsBeyondCalendar (Postgres.backend Standard.deps) (fun clock => clock.nowUtc)
        Standard.deps Standard.policy
      ∧ FailsBeyondCalendar (D1.backend Standard.deps) (fun clock => clock.dateNow * 1000000)
        Standard.deps Standard.policy :=
  fails_beyond_calendar Standard.deps Standard.deps_lawful Standard.policy

/-- **The last hour of 9999, west of Greenwich, is answered with a runtime failure.** -/
theorem not_neverFails :
    ¬ NeverFails (Postgres.backend Standard.deps) (fun clock => clock.nowUtc)
        Standard.deps Standard.policy
      ∧ ¬ NeverFails (D1.backend Standard.deps) (fun clock => clock.dateNow * 1000000)
        Standard.deps Standard.policy := by
  have hyears : InYears 0 := ⟨by decide, by decide⟩
  constructor
  · intro h
    have hnone := h.answered [] ⟨[], List.forall_mem_nil _, rfl⟩ ⟨0, 0⟩ ⟨hyears, hyears⟩
      (.request Standard.client (Standard.expense "9999-12-31T23:59:59-23:59"))
    have hsome : ((Postgres.backend Standard.deps).serve Standard.deps Standard.policy ⟨0, 0⟩
        (.request Standard.client (Standard.expense "9999-12-31T23:59:59-23:59"))
        []).1.runtimeFailure = some (.internal
          "Business Approval: timestamp is outside PostgreSQL range") := by decide
    rw [hsome] at hnone
    cases hnone
  · intro h
    have hnone := h.answered [] ⟨[], List.forall_mem_nil _, rfl⟩ ⟨0, 0⟩ ⟨hyears, hyears⟩
      (.request Standard.client (Standard.expense "9999-12-31T23:59:59-23:59"))
    have hsome : ((D1.backend Standard.deps).serve Standard.deps Standard.policy ⟨0, 0⟩
        (.request Standard.client (Standard.expense "9999-12-31T23:59:59-23:59"))
        []).1.runtimeFailure = some (.internal
          "Business Approval: timestamp is outside PostgreSQL range") := by decide
    rw [hsome] at hnone
    cases hnone

end BusinessApproval
