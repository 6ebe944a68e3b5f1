import BusinessApproval.Proof.Equivalence
import BusinessApproval.Proof.Origin

/-!
# Calls on different approvals

A call reads and writes the approval with its own request id. A request also asks
whether its requester's key is in use, and that is the one thing another call can
change under it: by being a request of the same caller with the same key. Calls that
are apart in both respects can be made in either order.
-/

namespace BusinessApproval

open ApprovalService

variable {Ctx Clock State Row : Type}

namespace ServiceCall

/-- The request id in the body of a call. -/
def requestId : ServiceCall Ctx → String
  | .request _ body => body.requestId
  | .decide _ body => body.requestId
  | .cancel _ body => body.requestId
  | .read _ body => body.requestId
  | .expire _ body => body.requestId

/-- The caller and idempotency key of a request. -/
def pair (deps : Deps Ctx) : ServiceCall Ctx → Option (String × String)
  | .request context body =>
      (deps.callerInstance context).map fun caller => (caller, body.idempotencyKey)
  | _ => none

/-- The calls name different ids, and are not requests of one caller with one key. -/
structure Apart (deps : Deps Ctx) (call call' : ServiceCall Ctx) : Prop where
  ids : call.requestId ≠ call'.requestId
  pairs : ∀ p, call.pair deps = some p → call'.pair deps ≠ some p

theorem Apart.symm {deps : Deps Ctx} {call call' : ServiceCall Ctx} (h : Apart deps call call') :
    Apart deps call' call := ⟨h.ids.symm, fun p hp hp' => h.pairs p hp' hp⟩

end ServiceCall

/-! ## What a call can change -/

section Frame

variable {deps : Deps Ctx} {config : ApprovalPolicy} {m : Moments} {L L' : Ledger}
  {call : ServiceCall Ctx}

/-- The intent of a request has the id of its body, and the key it was called with. -/
theorem sends_request {intent : RequestIntent} (h : Sends deps config call (.request intent)) :
    intent.requestId = call.requestId
      ∧ call.pair deps = some (intent.requesterInstance, intent.idempotencyKey) := by
  cases h with
  | @request context body caller now _ hcaller hadmitted =>
      obtain ⟨expiresAt, -, rfl⟩ := hadmitted.deadline
      have hc := (of_authorizedCaller hcaller).1
      exact ⟨rfl, by simp only [ServiceCall.pair, hc, Option.map_some, intentOf]⟩

theorem sends_settles {o : StoreOp} {id : String} {a : StoredApproval} {set : Settlement}
    (h : Sends deps config call o) (hset : Settles o id a set) : id = call.requestId := by
  cases hset <;> cases h <;> rfl

/-- A call leaves every other id as it is. -/
theorem ServeChange.frame (h : ServeChange deps config m call L L') {id : String}
    (hid : id ≠ call.requestId) : L' id = L id := by
  cases h with
  | same => rfl
  | by_ hsends hchange =>
      cases hchange with
      | same => rfl
      | created ho =>
          subst ho
          rw [Function.update_of_ne ((sends_request hsends).1 ▸ hid)]
      | settled hset => rw [Function.update_of_ne ((sends_settles hsends hset) ▸ hid)]

/-- A key comes into use by the request that has it. -/
theorem ServeChange.pairTaken (h : ServeChange deps config m call L L') (hL : L.Sound)
    {pair : String × String} (hpair : call.pair deps ≠ some pair) :
    L'.PairTaken pair ↔ L.PairTaken pair := by
  constructor
  · rintro ⟨id, a, ha, hp⟩
    cases h with
    | same => exact ⟨id, a, ha, hp⟩
    | by_ hsends hchange =>
        cases hchange with
        | same => exact ⟨id, a, ha, hp⟩
        | @created intent ho =>
            subst ho
            by_cases hid : id = intent.requestId
            · rw [hid, Function.update_self] at ha
              -- the new approval has the call's own key
              cases ha
              exact absurd ((sends_request hsends).2.trans (congrArg some hp)) hpair
            · rw [Function.update_of_ne hid] at ha
              exact ⟨id, a, ha, hp⟩
        | @settled id' b set hset hb =>
            by_cases hid : id = id'
            · rw [hid, Function.update_self] at ha
              cases ha
              -- a settlement keeps the key of its approval
              exact ⟨id', b, hb, hp⟩
            · rw [Function.update_of_ne hid] at ha
              exact ⟨id, a, ha, hp⟩
  · rintro ⟨id, a, ha, hp⟩
    obtain ⟨b, hb, hev⟩ := h.evolves hL id a ha
    exact ⟨id, b, hb, hev.pair.trans hp⟩

end Frame

/-! ## What a call depends on -/

namespace Ledger

variable {L L' : Ledger}

theorem request_congr (intent : RequestIntent) (hid : L intent.requestId = L' intent.requestId)
    (hpair : L.PairTaken (intent.requesterInstance, intent.idempotencyKey)
      ↔ L'.PairTaken (intent.requesterInstance, intent.idempotencyKey)) :
    (L.request intent).1 = (L'.request intent).1
      ∧ (L.request intent).2 intent.requestId = (L'.request intent).2 intent.requestId := by
  unfold request
  rw [hid]
  cases hL : L' intent.requestId with
  | some a =>
      simp only
      split <;> exact ⟨rfl, hid⟩
  | none =>
      by_cases ht : L'.PairTaken (intent.requesterInstance, intent.idempotencyKey)
      · simp only [hpair.mpr ht, ht, if_true]
        exact ⟨trivial, hid⟩
      · simp only [mt hpair.mp ht, ht, if_false]
        exact ⟨trivial, by rw [Function.update_self, Function.update_self]⟩

theorem settle_congr {id : String} (hid : L id = L' id)
    (refuse : StoredApproval → Option DomainFailure) (set : Settlement) (instant : Int) :
    (L.settle id refuse set instant).1 = (L'.settle id refuse set instant).1
      ∧ (L.settle id refuse set instant).2 id = (L'.settle id refuse set instant).2 id := by
  unfold settle
  rw [hid]
  cases hL : L' id with
  | none => exact ⟨rfl, hid⟩
  | some a =>
      simp only
      cases refuse a with
      | some failure => exact ⟨rfl, hid⟩
      | none =>
          simp only [Function.update_self]
          exact ⟨trivial, trivial⟩

end Ledger

section Serve

variable {deps : Deps Ctx} {config : ApprovalPolicy} {m m' : Moments} {L L' : Ledger}

theorem Asks.id_eq {o : StoreOp} {call : ServiceCall Ctx} {id : String}
    {refuse : StoredApproval → Option DomainFailure} {set : Settlement}
    {respond : Except DomainFailure StoredApproval → Response}
    (h : Asks deps m call o id refuse set respond) : id = call.requestId := by
  cases h <;> rfl

/-- **A call depends on its own approval, and on whether its key is in use.** -/
theorem serve_congr (hlaw : deps.time.Lawful) (hm : m.InYears) {call : ServiceCall Ctx}
    (hid : L call.requestId = L' call.requestId)
    (hpair : ∀ p, call.pair deps = some p → (L.PairTaken p ↔ L'.PairTaken p)) :
    (L.serve deps config m call).1 = (L'.serve deps config m call).1
      ∧ (L.serve deps config m call).2 call.requestId
        = (L'.serve deps config m call).2 call.requestId := by
  obtain ⟨f, hf, hgoes⟩ := exists_goes deps config m call
  rw [hf, hf]
  cases hgoes with
  | turnedAway h => exact ⟨rfl, hid⟩
  | @request context body caller intent hcaller hadmitted =>
      obtain ⟨expiresAt, -, rfl⟩ := (admission_ok hlaw hm.now hadmitted).deadline
      have hc := (of_authorizedCaller hcaller).1
      have hkey := hpair (caller, body.idempotencyKey)
        (by simp only [ServiceCall.pair, hc, Option.map_some])
      obtain ⟨hanswer, hafter⟩ := Ledger.request_congr
        (intentOf caller body (floorMicros m.now) (floorMicros expiresAt)) hid hkey
      exact ⟨by simp only [hanswer], hafter⟩
  | @settle _ o id refuse set respond hsends hasks =>
      rw [← hasks.id_eq] at hid ⊢
      obtain ⟨hanswer, hafter⟩ := Ledger.settle_congr hid refuse set m.settled
      exact ⟨by simp only [hanswer], hafter⟩
  | read context body requester =>
      change L body.requestId = L' body.requestId at hid
      exact ⟨by simp only [Ledger.read, hid], hid⟩

/-- A call does not see a call that is apart from it. -/
theorem serve_after (hlaw : deps.time.Lawful) (hm : m.InYears) (hm' : m'.InYears) (hL : L.Sound)
    {call call' : ServiceCall Ctx} (happart : call.Apart deps call') :
    ((L.serve deps config m call).2.serve deps config m' call').1
        = (L.serve deps config m' call').1
      ∧ ((L.serve deps config m call).2.serve deps config m' call').2 call'.requestId
        = (L.serve deps config m' call').2 call'.requestId := by
  have hchange := serve_change config hlaw hm L call
  exact serve_congr hlaw hm' (hchange.frame happart.ids.symm) fun p hp =>
    hchange.pairTaken hL fun hp' => happart.pairs p hp' hp

/-- **Calls that are apart can be made in either order.** -/
theorem serve_commute (hlaw : deps.time.Lawful) (hm : m.InYears) (hm' : m'.InYears)
    (hL : L.Sound) {call call' : ServiceCall Ctx} (happart : call.Apart deps call') :
    ((L.serve deps config m call).2.serve deps config m' call').2
      = ((L.serve deps config m' call').2.serve deps config m call).2 := by
  have hframe : ∀ (L : Ledger) {m : Moments} (call : ServiceCall Ctx), m.InYears →
      ∀ {id}, id ≠ call.requestId → (L.serve deps config m call).2 id = L id :=
    fun L _ call hm _ hid => (serve_change config hlaw hm L call).frame hid
  funext id
  by_cases hid : id = call.requestId
  · subst hid
    rw [hframe _ call' hm' happart.ids, (serve_after hlaw hm' hm hL happart.symm).2]
  · by_cases hid' : id = call'.requestId
    · subst hid'
      rw [hframe _ call hm hid, (serve_after hlaw hm hm' hL happart).2]
    · rw [hframe _ call' hm' hid', hframe _ call hm hid, hframe _ call hm hid,
        hframe _ call' hm' hid']

end Serve

/-! ## On the backends -/

section Backends

variable (B : Backend Clock State Row) (deps : Deps Ctx) (config : ApprovalPolicy)

/-- Calls on different approvals do not interfere. -/
structure Independent : Prop where
  /-- Two calls that are apart get the same responses and leave the same rows in either order. -/
  commute : ∀ s, B.Reachable deps config s → ∀ clock clock', B.inYears clock → B.inYears clock' →
    ∀ call call' : ServiceCall Ctx, call.Apart deps call' →
      (B.serve deps config clock' call' (B.serve deps config clock call s).2).1
          = (B.serve deps config clock' call' s).1
        ∧ (B.serve deps config clock call (B.serve deps config clock' call' s).2).1
          = (B.serve deps config clock call s).1
        ∧ ∀ id, B.row (B.serve deps config clock' call' (B.serve deps config clock call s).2).2 id
          = B.row (B.serve deps config clock call (B.serve deps config clock' call' s).2).2 id
  /-- A call changes no row but the one with its own id. -/
  frame : ∀ s, B.Reachable deps config s → ∀ clock, B.inYears clock → ∀ call id,
    id ≠ call.requestId → B.row (B.serve deps config clock call s).2 id = B.row s id

variable {B} {deps} {config} {represents : State → Ledger → Prop} {moments : Clock → Moments}

theorem Implements.independent (hB : Implements B represents moments) (hlaw : deps.time.Lawful) :
    Independent B deps config where
  commute s hs clock clock' hclock hclock' call call' happart := by
    obtain ⟨L, hL⟩ := hB.reachable hlaw hs
    have hm := hB.inYears hclock
    have hm' := hB.inYears hclock'
    obtain ⟨hfirst, hL₁⟩ := hB.stands_serve config hlaw hclock call hL
    obtain ⟨hfirst', hL₂⟩ := hB.stands_serve config hlaw hclock' call' hL
    obtain ⟨hsecond, hL₁₂⟩ := hB.stands_serve config hlaw hclock' call' hL₁
    obtain ⟨hsecond', hL₂₁⟩ := hB.stands_serve config hlaw hclock call hL₂
    rw [hsecond, hsecond', hfirst, hfirst']
    refine ⟨(serve_after hlaw hm hm' hL.sound happart).1,
      (serve_after hlaw hm' hm hL.sound happart.symm).1, fun id => ?_⟩
    exact hB.row_eq hL₁₂.represents hL₂₁.represents id
      (congrFun (serve_commute hlaw hm hm' hL.sound happart) id)
  frame s hs clock hclock call id hid := by
    obtain ⟨L, hL⟩ := hB.reachable hlaw hs
    obtain ⟨-, hL'⟩ := hB.stands_serve config hlaw hclock call hL
    exact hB.row_eq hL'.represents hL.represents id
      ((serve_change config hlaw (hB.inYears hclock) L call).frame hid)

end Backends

/-- **Calls on different approvals do not interfere**, on either backend, in the years 0 to
9999. -/
theorem calls_independent (deps : Deps Ctx) (h : deps.Lawful) (config : ApprovalPolicy) :
    Independent (Postgres.backend deps) deps config
      ∧ Independent (D1.backend deps) deps config :=
  ⟨(Postgres.implements h).independent h.time, (D1.implements h).independent h.time⟩

theorem calls_independent_standard :
    Independent (Postgres.backend Standard.deps) Standard.deps Standard.policy
      ∧ Independent (D1.backend Standard.deps) Standard.deps Standard.policy :=
  calls_independent Standard.deps Standard.deps_lawful Standard.policy

/-- Another request with the same idempotency key. -/
def sameKeyRequest : ServiceCall Standard.Context :=
  .request Standard.client
    { Standard.expense "1970-01-01T00:00:10Z" with requestId := "apr_other" }

/-- **A decision in the year 10000 on D1 changes what a request with its key is told.** -/
theorem calls_interfere_too_late :
    ¬ Independent (D1.backend Standard.deps).anytime Standard.deps Standard.policy := by
  intro h
  have happart : (ServiceCall.decide Standard.console Standard.approve).Apart Standard.deps
      sameKeyRequest := ⟨by decide, fun p hp => by cases hp⟩
  obtain ⟨hsame, -⟩ := h.commute _ (Standard.requested_reachable _) Standard.year10000 ⟨0, 0⟩
    trivial trivial _ _ happart
  -- before the decision it is a conflict, and after it the row cannot be decoded
  have hbefore : ((D1.backend Standard.deps).anytime.serve Standard.deps Standard.policy ⟨0, 0⟩
      sameKeyRequest (Standard.requested Standard.policy)).1.runtimeFailure = none := by
    decide +kernel
  have hafter : ((D1.backend Standard.deps).anytime.serve Standard.deps Standard.policy ⟨0, 0⟩
      sameKeyRequest ((D1.backend Standard.deps).anytime.serve Standard.deps Standard.policy
        Standard.year10000 (.decide Standard.console Standard.approve)
        (Standard.requested Standard.policy)).2).1.runtimeFailure.isSome = true := by
    decide +kernel
  rw [hsame, hbefore] at hafter
  cases hafter

end BusinessApproval
