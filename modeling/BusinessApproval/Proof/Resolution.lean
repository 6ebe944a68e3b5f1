import BusinessApproval.Proof.Serving
import BusinessApproval.Proof.Standard

/-!
# How a request is resolved

A request meets the approvals that have one of its keys: none, one, or two. The
backends count them before they compare intents, and so never compare two. Nothing
is lost by that. An approval with the intent of the request has both of its keys, and
is then the only one with either.
-/

namespace BusinessApproval

variable {Ctx Clock State Row : Type}

/-- An approval and an intent agree on everything but the time of the request. -/
structure Agrees (a : StoredApproval) (intent : RequestIntent) : Prop where
  requestId : a.requestId = intent.requestId
  requesterInstance : a.requesterInstance = intent.requesterInstance
  idempotencyKey : a.idempotencyKey = intent.idempotencyKey
  requestedBy : a.requestedBy = intent.requestedBy
  approvalKind : a.approvalKind = intent.approvalKind
  subjectKind : a.subjectKind = intent.subjectKind
  subjectId : a.subjectId = intent.subjectId
  intentDigest : a.intentDigest = intent.intentDigest
  expiresAt : a.expiresAt = intent.expiresAt

theorem agrees_iff {a : StoredApproval} {intent : RequestIntent} :
    Agrees a intent ↔ sameIntent a intent = true := by
  rw [sameIntent_iff]
  constructor
  · rintro ⟨h1, h2, h3, h4, h5, h6, h7, h8, h9⟩
    exact ⟨h1, h2, h3, h4, h5, h6, h7, h8, h9⟩
  · rintro ⟨h1, h2, h3, h4, h5, h6, h7, h8, h9⟩
    exact ⟨h1, h2, h3, h4, h5, h6, h7, h8, h9⟩

/-! ## On the ledger -/

namespace Ledger

/-- The ways a request is resolved. -/
inductive Resolves (L : Ledger) (intent : RequestIntent) :
    Except DomainFailure RequestOutcome × Ledger → Prop
  | created (hfree : ∀ id a, L id = some a → ¬ SharesKey intent a) :
      Resolves L intent (.ok ⟨true, .ofIntent intent⟩,
        Function.update L intent.requestId (some (.ofIntent intent)))
  | repeated {a : StoredApproval} (ha : L intent.requestId = some a) (hsame : Agrees a intent) :
      Resolves L intent (.ok ⟨false, a⟩, L)
  | conflict (hclaimed : ∃ id a, L id = some a ∧ SharesKey intent a)
      (hother : ∀ id a, L id = some a → ¬ Agrees a intent) :
      Resolves L intent (.error .idempotencyConflict, L)

theorem request_resolves {L : Ledger} (h : L.WellKeyed) (intent : RequestIntent) :
    L.Resolves intent (L.request intent) := by
  unfold request
  cases hL : L intent.requestId with
  | some a =>
      simp only
      by_cases hsame : sameIntent a intent = true
      · rw [if_pos hsame]
        exact .repeated hL (agrees_iff.mpr hsame)
      · rw [if_neg hsame]
        refine .conflict ⟨_, a, hL, Or.inr (h.ids hL)⟩ fun id b hb hagrees => hsame ?_
        -- an approval that agrees has the id of the request
        rw [← h.ids hb, hagrees.requestId, hL] at hb
        exact agrees_iff.mp (Option.some.inj hb ▸ hagrees)
  | none =>
      simp only
      have hid : ∀ id a, L id = some a → a.requestId ≠ intent.requestId := by
        intro id a ha heq
        rw [← h.ids ha, heq, hL] at ha
        cases ha
      by_cases hpair : L.PairTaken (intent.requesterInstance, intent.idempotencyKey)
      · rw [if_pos hpair]
        obtain ⟨id, a, ha, hp⟩ := hpair
        exact .conflict ⟨id, a, ha, Or.inl hp⟩ fun id b hb hagrees => hid id b hb hagrees.requestId
      · rw [if_neg hpair]
        refine .created fun id a ha hshare => ?_
        rcases hshare with hp | hi
        · exact hpair ⟨id, a, ha, hp⟩
        · exact hid id a ha hi

end Ledger

/-! ## On the backends -/

section Backends

variable (B : Backend Clock State Row)

/-- No approval has one of the keys of the intent. -/
def Unclaimed (s : State) (intent : RequestIntent) : Prop :=
  ∀ id a, B.find s id = some a → a.requestId ≠ intent.requestId
    ∧ ¬ (a.requesterInstance = intent.requesterInstance
      ∧ a.idempotencyKey = intent.idempotencyKey)

/-- What a request answers on a state, and the state it leaves. -/
structure Resolution (s : State) (intent : RequestIntent)
    (result : StoreRes (.request intent) × State) : Prop where
  created : (∃ a, result.1 = .ok (.ok ⟨true, a⟩)) ↔ Unclaimed B s intent
  /-- A creation adds the pending approval of the intent, at revision 1. -/
  adds : Unclaimed B s intent → result.1 = .ok (.ok ⟨true, .ofIntent intent⟩)
    ∧ B.find result.2 intent.requestId = some (.ofIntent intent)
    ∧ ∀ id, id ≠ intent.requestId → B.row result.2 id = B.row s id
  repeated : ∀ a, result.1 = .ok (.ok ⟨false, a⟩)
    ↔ (∃ id, B.find s id = some a) ∧ Agrees a intent
  conflict : result.1 = .ok (.error .idempotencyConflict)
    ↔ ¬ Unclaimed B s intent ∧ ∀ id a, B.find s id = some a → ¬ Agrees a intent
  unchanged : ¬ Unclaimed B s intent → ∀ id, B.row result.2 id = B.row s id

/-- Every admitted intent is resolved so, in every state the service can reach. -/
def ResolvesExactly (deps : Deps Ctx) (config : ApprovalPolicy) : Prop :=
  ∀ s, B.Reachable deps config s → ∀ clock, B.inYears clock → ∀ context body intent,
    ApprovalService.Sends deps config (.request context body) (.request intent) →
    Resolution B s intent (B.perform clock (.request intent) s)

variable {B} {represents : State → Ledger → Prop} {moments : Clock → Moments} {deps : Deps Ctx}
  {config : ApprovalPolicy}

/-- The keys of an intent are unclaimed when no approval of the ledger has one of them. -/
theorem Implements.unclaimed_iff (hB : Implements B represents moments) {s : State} {L : Ledger}
    (h : represents s L) {intent : RequestIntent} :
    Unclaimed B s intent ↔ ∀ id a, L id = some a → ¬ Ledger.SharesKey intent a := by
  have hnot : ∀ a : StoredApproval, ¬ Ledger.SharesKey intent a ↔
      a.requestId ≠ intent.requestId ∧ ¬ (a.requesterInstance = intent.requesterInstance
        ∧ a.idempotencyKey = intent.idempotencyKey) := by
    intro a
    simp only [Ledger.SharesKey, StoredApproval.pair, Prod.mk.injEq, not_or]
    exact and_comm
  constructor
  · intro hun id a ha
    exact (hnot a).mpr (hun id a (by rw [hB.find h, ha]))
  · intro hfree id a ha
    rw [hB.find h] at ha
    exact (hnot a).mp (hfree id a ha)

theorem Implements.resolution (hB : Implements B represents moments) {clock : Clock}
    (hclock : B.inYears clock) {intent : RequestIntent}
    (ha : ApprovalService.Admissible (.request intent)) {s : State} {L : Ledger}
    (h : Stands represents s L) : Resolution B s intent (B.perform clock (.request intent) s) := by
  obtain ⟨hanswer, hrep⟩ := hB.refines (o := .request intent) hclock ha h.represents
  have hfind := hB.find h.represents
  have hunclaimed_iff : Unclaimed B s intent ↔ _ := hB.unclaimed_iff h.represents
  have hresolves := Ledger.request_resolves h.sound.wellKeyed intent
  change _ = (Except.ok (L.request intent).1 : StoreRes (.request intent)) at hanswer
  change represents _ (L.request intent).2 at hrep
  generalize L.request intent = outcome at hresolves hanswer hrep
  generalize B.perform clock (.request intent) s = result at hanswer hrep ⊢
  obtain ⟨r, s'⟩ := result
  simp only at hanswer
  subst hanswer
  cases hresolves with
  | created hfree =>
      -- the keys were free, so there is neither a repetition nor a conflict
      have hunclaimed : Unclaimed B s intent := hunclaimed_iff.mpr hfree
      refine ⟨⟨fun _ => hunclaimed, fun _ => ⟨_, rfl⟩⟩, fun _ => ⟨rfl, ?_, fun id hid => ?_⟩,
        fun a => ⟨fun h => (by cases h), fun h => ?_⟩, ⟨fun h => (by cases h), fun h => ?_⟩,
        fun h => absurd hunclaimed h⟩
      · exact (hB.find hrep _).trans (Function.update_self ..)
      · exact hB.row_eq hrep h.represents id (Function.update_of_ne hid ..)
      · obtain ⟨⟨id, hid⟩, hagrees⟩ := h
        exact absurd hagrees.requestId (hunclaimed id a hid).1
      · exact absurd hunclaimed h.1
  | @repeated a ha hagrees =>
      -- the same intent is there already, under its own id
      have hfound : B.find s intent.requestId = some a := by rw [hfind, ha]
      have hclaimed : ¬ Unclaimed B s intent := fun h => (h _ a hfound).1 hagrees.requestId
      refine ⟨⟨fun h => (by obtain ⟨_, h⟩ := h; cases h), fun h => absurd h hclaimed⟩,
        fun h => absurd h hclaimed, fun b => ⟨fun h => ?_, fun h => ?_⟩,
        ⟨fun h => (by cases h), fun h => absurd hagrees (h.2 _ a hfound)⟩,
        fun _ id => hB.row_eq hrep h.represents id rfl⟩
      · cases h
        exact ⟨⟨_, hfound⟩, hagrees⟩
      · obtain ⟨⟨id, hid⟩, hb⟩ := h
        rw [hfind] at hid
        rw [← h.sound.wellKeyed.ids hid, hb.requestId, ha] at hid
        rw [Option.some.inj hid]
  | conflict hclaimed hother =>
      obtain ⟨id, a, ha, hshares⟩ := hclaimed
      -- a key is held, and by no approval of this intent
      have hnot : ¬ Unclaimed B s intent := fun hun => hunclaimed_iff.mp hun id a ha hshares
      have hother' : ∀ id a, B.find s id = some a → ¬ Agrees a intent := fun id a hid =>
        hother id a (by rw [← hfind]; exact hid)
      refine ⟨⟨fun h => (by obtain ⟨_, h⟩ := h; cases h), fun h => absurd h hnot⟩,
        fun h => absurd h hnot, fun b => ⟨fun h => (by cases h), fun h => ?_⟩,
        ⟨fun _ => ⟨hnot, hother'⟩, fun _ => rfl⟩,
        fun _ id => hB.row_eq hrep h.represents id rfl⟩
      obtain ⟨⟨id, hid⟩, hb⟩ := h
      exact absurd hb (hother' id b hid)

theorem Implements.resolvesExactly (hB : Implements B represents moments)
    (hlaw : deps.time.Lawful) : ResolvesExactly B deps config := by
  intro s hs clock hclock context body intent hsends
  obtain ⟨L, hstands⟩ := hB.reachable hlaw hs
  exact hB.resolution hclock hsends.admissible hstands

end Backends

/-- **A request is resolved exactly**, on either backend, in the years 0 to 9999. -/
theorem requests_resolve_exactly (deps : Deps Ctx) (h : deps.Lawful) (config : ApprovalPolicy) :
    ResolvesExactly (Postgres.backend deps) deps config
      ∧ ResolvesExactly (D1.backend deps) deps config :=
  ⟨(Postgres.implements h).resolvesExactly h.time, (D1.implements h).resolvesExactly h.time⟩

theorem requests_resolve_exactly_standard :
    ResolvesExactly (Postgres.backend Standard.deps) Standard.deps Standard.policy
      ∧ ResolvesExactly (D1.backend Standard.deps) Standard.deps Standard.policy :=
  requests_resolve_exactly Standard.deps Standard.deps_lawful Standard.policy

/-- Whatever intent is admitted is resolved exactly; `now` is what `request` reads of the clock. -/
def ResolvesAdmitted (B : Backend Clock State Row) (now : Clock → Int) (deps : Deps Ctx)
    (config : ApprovalPolicy) : Prop :=
  ∀ s, B.Reachable deps config s → ∀ clock, B.inYears clock → ∀ context body caller intent,
    ApprovalService.authorizedCaller deps config context ApprovalPolicy.canRequest = some caller →
    ApprovalService.admission deps.time caller body (now clock) = .ok intent →
    Resolution B s intent (B.perform clock (.request intent) s)

/-- The last millisecond before the year 0. -/
def beforeYears : D1.Clock := ⟨-62167219200001, -62167219200001⟩

/-- What is admitted of the request then. -/
def earlyIntent : RequestIntent :=
  ApprovalService.intentOf "approval-client" (Standard.expense "1970-01-01T00:00:10Z")
    (-62167219200001000000) 10000000000

/-- And in 1970. -/
def timelyIntent : RequestIntent := { earlyIntent with requestedAt := 0 }

/--
**Outside the years 0 to 9999 D1 resolves nothing.** It fails to create what is admitted
before them, and to repeat what has been decided after them.
-/
theorem requests_fail_out_of_years :
    ¬ ResolvesAdmitted (D1.backend Standard.deps).anytime (fun clock => clock.dateNow * 1000000)
        Standard.deps Standard.policy
      ∧ ApprovalService.admission Standard.deps.time "approval-client"
          (Standard.expense "1970-01-01T00:00:10Z") 0 = .ok timelyIntent
      ∧ ((D1.backend Standard.deps).anytime.perform ⟨0, 0⟩ (.request timelyIntent)
          (Standard.decidedTooLate Standard.policy)).1 = .error .unavailable := by
  refine ⟨fun h => ?_, by decide +kernel, rfl⟩
  have hadmitted : ApprovalService.admission Standard.deps.time "approval-client"
      (Standard.expense "1970-01-01T00:00:10Z") (beforeYears.dateNow * 1000000)
        = .ok earlyIntent := by
    decide +kernel
  have hresolution := h [] ⟨[], List.forall_mem_nil _, rfl⟩ beforeYears trivial Standard.client _ _
    earlyIntent rfl hadmitted
  have hfailed : ((D1.backend Standard.deps).anytime.perform beforeYears (.request earlyIntent)
      []).1 = .error .unavailable := rfl
  -- the table is empty, so both keys are free
  obtain ⟨hcreated, -⟩ := hresolution.adds fun id a ha => by cases ha
  cases hfailed.symm.trans hcreated

end BusinessApproval
