import BusinessApproval.Proof.D1Linear
import BusinessApproval.Proof.PostgresLinear

/-!
# One ledger behind every interleaving

Calls of many clients over either store, with everything that can fail there, come to calls
of one ledger, made one after another: the order in which they linearize over the store is
an order in which they linearize over the ledger, and the approvals in the store are those
the ledger has in the end.
-/

namespace BusinessApproval

open ApprovalService Concurrent

variable {Ctx Clock State Row : Type}

/-- One service call over the ledger, as a step of an order. -/
noncomputable def ledgerly (deps : Deps Ctx) (config : ApprovalPolicy) (m : Moments)
    (call : ServiceCall Ctx) (L : Ledger) : Response × Ledger := L.serve deps config m call

/--
A ledger whose calls, made one after another at moments their clients have seen, explain a
history of calls and the approvals that are found after it.
-/
def Explained (deps : Deps Ctx) (config : ApprovalPolicy) (reads : Nat → Moments → Prop)
    (history : List (Event (ServiceCall Ctx) Response)) (found : Ledger) : Prop :=
  ∃ order : List (Entry (ServiceCall Ctx) Moments),
    Linearizes (fun r => r.runtimeFailure = none) (ledgerly deps config) Ledger.empty history order
      ∧ serial (ledgerly deps config) Ledger.empty order = found
      ∧ ∀ e ∈ order, reads e.client e.stamp

/-- Both stores are one ledger to the clients that call them side by side. -/
structure OneLedger (deps : Deps Ctx) (config : ApprovalPolicy) : Prop where
  postgres : ∀ w, Postgres.TimedRunning deps config w → Explained deps config
    (fun t m => ∃ clock : Postgres.Clock, clock.moments = m
      ∧ Postgres.Consistent w.shared.state w.shared.observations t clock)
    w.history ((Postgres.backend deps).find w.shared.state.committed)
  d1 : ∀ w, D1.Running deps config w → Explained deps config
    (fun t m => ∃ clock : D1.Clock, clock.moments = m ∧ D1.Consistent w.shared t clock)
    w.history ((D1.backend deps).find w.shared.table)

/-- An order of calls over a store is one over the ledger. -/
theorem Explained.of_linear {deps : Deps Ctx} {config : ApprovalPolicy}
    {B : Backend Clock State Row} {represents : State → Ledger → Prop} {moments : Clock → Moments}
    (hempty : represents B.empty Ledger.empty)
    (hfind : ∀ {s L}, represents s L → ∀ id, B.find s id = L id) {reads : Nat → Clock → Prop}
    (hserve : ∀ t clock, reads t clock → ∀ call s L, represents s L →
      (B.serve deps config clock call s).1 = (L.serve deps config (moments clock) call).1
        ∧ represents (B.serve deps config clock call s).2
          (L.serve deps config (moments clock) call).2)
    {history : List (Event (ServiceCall Ctx) Response)}
    {order : List (Entry (ServiceCall Ctx) Clock)}
    (hlinear : Linearizes (fun r => r.runtimeFailure = none) (B.serve deps config) B.empty history
      order) (hreads : ∀ e ∈ order, reads e.client e.stamp) :
    Explained deps config (fun t m => ∃ clock, moments clock = m ∧ reads t clock) history
      (B.find (serial (B.serve deps config) B.empty order)) := by
  have hrefines : Refines moments represents (B.serve deps config) (ledgerly deps config) order :=
    fun e he s L hL => hserve e.client e.stamp (hreads e he) e.call s L hL
  refine ⟨order.map (Entry.restamp moments), hlinear.refines hrefines hempty, ?_, ?_⟩
  · funext id
    exact (hfind (hrefines.serial hempty) id).symm
  · intro e he
    obtain ⟨e', he', rfl⟩ := List.mem_map.mp he
    exact ⟨e'.stamp, rfl, hreads e' he'⟩

/-- A service call over PostgreSQL is one over the ledger when it is told a sensible time. -/
theorem Postgres.represents_serve {deps : Deps Ctx} (hlaw : deps.Lawful) (config : ApprovalPolicy)
    {clock : Postgres.Clock} (hclock : InYears clock.nowUtc) (call : ServiceCall Ctx)
    {table : Postgres.Table} {L : Ledger} (h : Postgres.Represents table L) :
    ((Postgres.backend deps).serve deps config clock call table).1
        = (L.serve deps config clock.moments call).1
      ∧ Postgres.Represents ((Postgres.backend deps).serve deps config clock call table).2
        (L.serve deps config clock.moments call).2 := by
  refine Prog.run_sim (fun o s L ha hr => ?_) (serve_emits deps config hlaw.time call) h
  obtain ⟨heq, hrep⟩ := Postgres.alone_refines hlaw.timestamptz o ha.admissible hr
  refine ⟨heq, ?_, hrep⟩
  cases o with
  | now => exact hclock
  | _ => trivial

/-- **Every interleaving of calls over either store is one of calls over one ledger**, in the
years 0 to 9999. -/
theorem one_ledger (deps : Deps Ctx) (hlaw : deps.Lawful) (config : ApprovalPolicy) :
    OneLedger deps config where
  postgres w hw := by
    obtain ⟨order, horder⟩ := hw.inOrder
    rw [← horder.table]
    exact .of_linear Postgres.represents_nil (Postgres.implements hlaw).find
      (fun t clock hclock call s L hL => Postgres.represents_serve hlaw config hclock.years call hL)
      horder.linear horder.stamps
  d1 w hw := by
    obtain ⟨order, horder⟩ := hw.inOrder hlaw
    rw [← horder.table]
    exact .of_linear (D1.represents_nil deps.time) (D1.implements hlaw).find
      (fun t clock hclock call s L hL =>
        (D1.implements hlaw).serve config hlaw.time hclock.inYears call hL)
      horder.linear horder.stamps

theorem one_ledger_standard : OneLedger Standard.deps Standard.policy :=
  one_ledger Standard.deps Standard.deps_lawful Standard.policy

end BusinessApproval
