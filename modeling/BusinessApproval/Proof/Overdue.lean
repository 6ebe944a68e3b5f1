import BusinessApproval.Model.Timed
import BusinessApproval.Proof.Punctual

/-!
# Overdue approvals

When the evidence of an approval keeps to its deadline, on either store: that is the case
just if the callers' clock reads do. And runs under one clock that never goes back in which
it does not: an approval is decided a second too late, and one expires a millisecond early.
-/

namespace BusinessApproval

open ApprovalService Concurrent

variable {Ctx Clock State Row : Type}

/-! ## Runs with one clock -/

/-- A request that may be decided until one second past the beginning. -/
def dueRequest : ServiceCall Standard.Context :=
  .request Standard.client (Standard.expense "1970-01-01T00:00:01Z")

def lateDecision : ServiceCall Standard.Context :=
  .decide Standard.console ⟨"apr_expense", .approved, "usr_manager", "email-1", none⟩

def expiration : ServiceCall Standard.Context := .expire Standard.expirer ⟨"apr_expense"⟩

/-- An approval with this status and these instants. -/
def SettledAt (found : Option StoredApproval) (status : ApprovalStatus) (terminalAt expiresAt : Int) :
    Prop :=
  ∃ a, found = some a ∧ a.status = status ∧ a.terminalAt = some terminalAt
    ∧ a.expiresAt = expiresAt

namespace Postgres

/-- Nobody else has locked a row when there is one client besides, without a transaction. -/
theorem free_of_two {d : Database} {requestId : String} (h : d.transactions 0 = none)
    (hothers : ∀ u, d.transactions (u + 2) = none) : d.Free 1 requestId := by
  rintro (_ | _ | u) tx hu htx
  · rw [h] at htx
    cases htx
  · exact absurd rfl hu
  · rw [hothers] at htx
    cases htx

/-- An approval is decided a second after its deadline. -/
theorem decided_late : ∃ w, TimedRunning Standard.deps Standard.policy w
    ∧ SettledAt ((backend Standard.deps).find w.shared.state.committed "apr_expense") .approved
      2000000000 1000000000 := by
  have h : Reachable (machine.timed shows) (body Standard.deps Standard.policy)
      ⟨.empty, 0, []⟩ _ := .initial
  replace h := h.step (.invoke 0 dueRequest rfl)
  replace h := h.step (.answer (t := 0) rfl ⟨_, .inl (.nowUtc 0), ⟨rfl, by decide, by decide⟩, rfl⟩)
  replace h := h.step (.answer (t := 0) rfl ⟨_, .inl (.begin 0 rfl), fun _ => rfl, rfl⟩)
  replace h := h.step (.answer (t := 0) rfl ⟨_, .inl (.inserted rfl (by decide +kernel) rfl (by
    rintro (_ | u) tx hu htx
    · exact absurd rfl hu
    · cases htx)), trivial, rfl⟩)
  replace h := h.step (.answer (t := 0) rfl ⟨_, .inl (.decode _), trivial, rfl⟩)
  replace h := h.step (.answer (t := 0) rfl ⟨_, .inl (.commit rfl), trivial, rfl⟩)
  replace h := h.step (.respond (t := 0) rfl)
  -- two seconds pass before the decision
  replace h := h.step (.move (.tick (show (0 : Int) ≤ 2000000000 by decide)))
  replace h := h.step (.invoke 1 lateDecision rfl)
  replace h := h.step (.answer (t := 1) rfl ⟨_, .inl (.begin 2000000 rfl), fun _ => rfl, rfl⟩)
  replace h := h.step (.work (t := 1) rfl
    ⟨_, .snapshot rfl rfl (List.Perm.refl ["apr_expense"]) (List.cons_ne_nil _ _), rfl⟩)
  replace h := h.step (.work (t := 1) rfl ⟨_, .lock rfl rfl
    (free_of_two rfl fun _ => rfl) (show _ = some _ from rfl) rfl, rfl⟩)
  replace h := h.step (.answer (t := 1) rfl ⟨_, .inl (.selected rfl rfl), trivial, rfl⟩)
  replace h := h.step (.answer (t := 1) rfl ⟨_, .inl (.decode _), trivial, rfl⟩)
  replace h := h.step (.answer (t := 1) rfl ⟨_, .inl (.updated rfl (show _ = some _ from rfl)
    (free_of_two rfl fun _ => rfl) (by decide +kernel)), trivial, rfl⟩)
  replace h := h.step (.answer (t := 1) rfl ⟨_, .inl (.decode _), trivial, rfl⟩)
  replace h := h.step (.answer (t := 1) rfl ⟨_, .inl (.commit rfl), trivial, rfl⟩)
  exact ⟨_, ⟨_, h⟩, _, rfl, rfl, rfl, rfl⟩

end Postgres

namespace D1

theorem decided_late : ∃ w, TimedRunning Standard.deps Standard.policy w
    ∧ SettledAt ((backend Standard.deps).find w.shared.state.table "apr_expense") .approved
      2000000000 1000000000 := by
  have h : Reachable (machine.timed shows) (body Standard.deps Standard.policy)
      ⟨.empty, 0, []⟩ _ := .initial
  replace h := h.step (.invoke 0 dueRequest rfl)
  replace h := h.step (.answer (t := 0) rfl ⟨_, .dateNow 0 ⟨by decide, by decide⟩, rfl, rfl⟩)
  replace h := h.step (.answer (t := 0) rfl ⟨_, .batch rfl, trivial, rfl⟩)
  replace h := h.step (.respond (t := 0) rfl)
  -- two seconds pass before the decision
  replace h := h.step (.move (.tick (show (0 : Int) ≤ 2000000000 by decide)))
  replace h := h.step (.invoke 1 lateDecision rfl)
  replace h := h.step (.answer (t := 1) rfl ⟨_, .newDate 2000 ⟨by decide, by decide⟩, rfl, rfl⟩)
  replace h := h.step (.answer (t := 1) rfl ⟨_, .dateNow 2000 ⟨by decide, by decide⟩, rfl, rfl⟩)
  replace h := h.step (.answer (t := 1) rfl ⟨_, .batch rfl, trivial, rfl⟩)
  exact ⟨_, ⟨_, h⟩, _, rfl, rfl, rfl, rfl⟩

/-- The deadline falls between the two clock reads of an expiration. -/
theorem expired_early : ∃ w, TimedRunning Standard.deps Standard.policy w
    ∧ SettledAt ((backend Standard.deps).find w.shared.state.table "apr_expense") .expired
      999000000 1000000000 := by
  have h : Reachable (machine.timed shows) (body Standard.deps Standard.policy)
      ⟨.empty, 0, []⟩ _ := .initial
  replace h := h.step (.invoke 0 dueRequest rfl)
  replace h := h.step (.answer (t := 0) rfl ⟨_, .dateNow 0 ⟨by decide, by decide⟩, rfl, rfl⟩)
  replace h := h.step (.answer (t := 0) rfl ⟨_, .batch rfl, trivial, rfl⟩)
  replace h := h.step (.respond (t := 0) rfl)
  replace h := h.step (.move (.tick (show (0 : Int) ≤ 999000000 by decide)))
  replace h := h.step (.invoke 1 expiration rfl)
  replace h := h.step (.answer (t := 1) rfl ⟨_, .newDate 999 ⟨by decide, by decide⟩, rfl, rfl⟩)
  -- a millisecond passes before the other read
  replace h := h.step (.move (.tick (show (999000000 : Int) ≤ 1000000000 by decide)))
  replace h := h.step (.answer (t := 1) rfl ⟨_, .dateNow 1000 ⟨by decide, by decide⟩, rfl, rfl⟩)
  replace h := h.step (.answer (t := 1) rfl ⟨_, .batch rfl, trivial, rfl⟩)
  exact ⟨_, ⟨_, h⟩, _, rfl, rfl, rfl, rfl⟩

end D1

/-! ## Decisions -/

/-- When approvals are decided in time. -/
structure DecisionRule (deps : Deps Ctx) (config : ApprovalPolicy) : Prop where
  /-- The calls have their effects in some order. -/
  ordered : ∀ w, Postgres.Running deps.timestamptz w →
    ∃ order, Postgres.Serializes deps.timestamptz w order
  postgres : ∀ w order, Postgres.Running deps.timestamptz w →
    Postgres.Serializes deps.timestamptz w order →
    ((Postgres.backend deps).DecidedInTime w.shared.committed
      ↔ Postgres.DecidesInTime deps.timestamptz order)
  d1 : ∀ w, D1.Running deps config w →
    ((D1.backend deps).DecidedInTime w.shared.table ↔ D1.DecidesInTime deps config w)

/--
**Approvals are decided in time just if the decisions come in time**, on either store, for
any order of operations. The clocks may go backwards; those of D1 are read in the years 0 to
9999.
-/
theorem decided_in_time_iff (deps : Deps Ctx) (h : deps.Lawful) (config : ApprovalPolicy) :
    DecisionRule deps config where
  ordered _ hw := hw.serializes
  postgres _ _ _ horder := horder.decidedInTime_iff deps
  d1 _ hw := (hw.inv h.time).decidedInTime_iff h

theorem Backend.DecidedInTime.not_late {B : Backend Clock State Row} {s : State} {id : String}
    {terminalAt expiresAt : Int} (h : B.DecidedInTime s)
    (hsettled : SettledAt (B.find s id) .approved terminalAt expiresAt) : terminalAt < expiresAt := by
  obtain ⟨a, ha, hstatus, hinstant, rfl⟩ := hsettled
  obtain ⟨instant, hinstant', hlt⟩ := h id a ha (Or.inl hstatus)
  cases hinstant.symm.trans hinstant'
  exact hlt

theorem decided_in_time_iff_late :
    (∃ w order, Postgres.Running Standard.deps.timestamptz w
        ∧ Postgres.Serializes Standard.deps.timestamptz w order
        ∧ ((Postgres.backend Standard.deps).DecidedInTime w.shared.committed
          ↔ Postgres.DecidesInTime Standard.deps.timestamptz order))
      ∧ ∃ w, D1.Running Standard.deps Standard.policy w
        ∧ ¬ D1.DecidesInTime Standard.deps Standard.policy w := by
  have hrule := decided_in_time_iff Standard.deps Standard.deps_lawful Standard.policy
  constructor
  · obtain ⟨w, hw, -⟩ := Postgres.race
    obtain ⟨order, horder⟩ := hrule.ordered w hw
    exact ⟨w, order, hw, horder, hrule.postgres w order hw horder⟩
  · obtain ⟨w, ⟨clock, hw⟩, hlate⟩ := D1.decided_late
    refine ⟨w.forget, hw.forget, fun h => ?_⟩
    exact absurd (((hrule.d1 _ hw.forget).mpr h).not_late hlate) (by decide)

/-- **On neither store is a decision refused for coming too late.** -/
theorem decisions_overdue :
    (¬ ∀ w, Postgres.TimedRunning Standard.deps Standard.policy w →
        (Postgres.backend Standard.deps).DecidedInTime w.shared.state.committed)
      ∧ ¬ ∀ w, D1.TimedRunning Standard.deps Standard.policy w →
        (D1.backend Standard.deps).DecidedInTime w.shared.state.table := by
  constructor
  · intro h
    obtain ⟨w, hw, hlate⟩ := Postgres.decided_late
    exact absurd ((h w hw).not_late hlate) (by decide)
  · intro h
    obtain ⟨w, hw, hlate⟩ := D1.decided_late
    exact absurd ((h w hw).not_late hlate) (by decide)

/-! ## Expirations -/

/-- When approvals expire past their deadlines. -/
structure ExpirationRule (deps : Deps Ctx) (config : ApprovalPolicy) : Prop where
  postgres : ∀ w, Postgres.Running deps.timestamptz w →
    (Postgres.backend deps).ExpiredWhenDue w.shared.committed
  d1 : ∀ w, D1.Running deps config w →
    ((D1.backend deps).ExpiredWhenDue w.shared.table ↔ D1.ExpiresInTime deps config w)

/--
**What has expired was past its deadline**: always on PostgreSQL, and on D1 just if no
expiration has read its two clocks on either side of the deadline. The clocks of D1 are read in
the years 0 to 9999.
-/
theorem expired_when_due_iff (deps : Deps Ctx) (h : deps.Lawful) (config : ApprovalPolicy) :
    ExpirationRule deps config where
  postgres w hw := by
    obtain ⟨order, horder⟩ := hw.serializes
    exact horder.expiredWhenDue deps
  d1 _ hw := (hw.inv h.time).expiredWhenDue_iff h

theorem Backend.ExpiredWhenDue.not_early {B : Backend Clock State Row} {s : State} {id : String}
    {terminalAt expiresAt : Int} (h : B.ExpiredWhenDue s)
    (hsettled : SettledAt (B.find s id) .expired terminalAt expiresAt) : expiresAt ≤ terminalAt := by
  obtain ⟨a, ha, hstatus, hinstant, rfl⟩ := hsettled
  obtain ⟨instant, hinstant', hle⟩ := h id a ha hstatus
  cases hinstant.symm.trans hinstant'
  exact hle

theorem expired_when_due_iff_early :
    (∃ w, Postgres.Running Standard.deps.timestamptz w
        ∧ (Postgres.backend Standard.deps).ExpiredWhenDue w.shared.committed)
      ∧ ∃ w, D1.Running Standard.deps Standard.policy w
        ∧ ¬ D1.ExpiresInTime Standard.deps Standard.policy w := by
  have hrule := expired_when_due_iff Standard.deps Standard.deps_lawful Standard.policy
  constructor
  · obtain ⟨w, hw, -⟩ := Postgres.race
    exact ⟨w, hw, hrule.postgres w hw⟩
  · obtain ⟨w, ⟨clock, hw⟩, hearly⟩ := D1.expired_early
    refine ⟨w.forget, hw.forget, fun h => ?_⟩
    exact absurd (((hrule.d1 _ hw.forget).mpr h).not_early hearly) (by decide)

/-- **On D1 an expiration can be dated before the deadline.** -/
theorem expirations_early : ¬ ∀ w, D1.TimedRunning Standard.deps Standard.policy w →
    (D1.backend Standard.deps).ExpiredWhenDue w.shared.state.table := by
  intro h
  obtain ⟨w, hw, hearly⟩ := D1.expired_early
  exact absurd ((h w hw).not_early hearly) (by decide)

end BusinessApproval
