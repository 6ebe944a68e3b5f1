import BusinessApproval.Proof.Equivalence
import BusinessApproval.Proof.Origin

/-!
# Requesters are isolated

A caller that may only request sees its own approvals and which other ids are in
use. Ledgers that are `Alike` for such a caller answer all of its calls alike, and
stay alike: what else is in the other approvals never shows. A caller outside the
list of an operation gets `Forbidden` before the store is asked for anything.
-/

namespace BusinessApproval

open ApprovalService

/-! ## Ledgers that look alike -/

namespace Ledger

/-- The same approvals of one requester, and the same ids in use by the others. -/
structure Alike (caller : String) (L L' : Ledger) : Prop where
  ids : ∀ id, (L id).isSome = (L' id).isSome
  own : ∀ id a, a.requesterInstance = caller → (L id = some a ↔ L' id = some a)

namespace Alike

variable {caller : String} {L L' : Ledger}

theorem symm (h : L.Alike caller L') : L'.Alike caller L :=
  ⟨fun id => (h.ids id).symm, fun id a ha => (h.own id a ha).symm⟩

/-- An id is free in both, has the caller's approval in both, or others' approvals. -/
theorem cases_on (h : L.Alike caller L') (id : String) :
    (L id = none ∧ L' id = none)
      ∨ (∃ a, L id = some a ∧ L' id = some a ∧ a.requesterInstance = caller)
      ∨ ∃ a b, L id = some a ∧ L' id = some b ∧ a.requesterInstance ≠ caller
        ∧ b.requesterInstance ≠ caller := by
  have hids := h.ids id
  cases ha : L id with
  | none =>
      rw [ha] at hids
      exact Or.inl ⟨rfl, Option.isSome_eq_false_iff.mp hids.symm |> Option.isNone_iff_eq_none.mp⟩
  | some a =>
      rw [ha] at hids
      obtain ⟨b, hb⟩ := Option.isSome_iff_exists.mp hids.symm
      -- what is another requester's is so on both sides
      by_cases hown : a.requesterInstance = caller
      · exact Or.inr (Or.inl ⟨a, rfl, (h.own id a hown).mp ha, hown⟩)
      · refine Or.inr (Or.inr ⟨a, b, rfl, hb, hown, fun hb' => hown ?_⟩)
        have hsame := (h.own id b hb').mpr hb
        rw [ha] at hsame
        rw [Option.some.inj hsame, hb']

/-- Writing one approval in both keeps them alike. -/
theorem update (h : L.Alike caller L') (id : String) (a : StoredApproval) :
    Alike caller (Function.update L id (some a)) (Function.update L' id (some a)) where
  ids id' := by
    by_cases hid : id' = id
    · subst hid
      rw [Function.update_self, Function.update_self]
    · rw [Function.update_of_ne hid, Function.update_of_ne hid]
      exact h.ids id'
  own id' b hb := by
    by_cases hid : id' = id
    · subst hid
      rw [Function.update_self, Function.update_self]
    · rw [Function.update_of_ne hid, Function.update_of_ne hid]
      exact h.own id' b hb

/-- A key of the caller is in use in both or in neither. -/
theorem pairTaken (h : L.Alike caller L') (key : String) :
    L.PairTaken (caller, key) ↔ L'.PairTaken (caller, key) := by
  have key : ∀ {L L' : Ledger}, L.Alike caller L' → L.PairTaken (caller, key) →
      L'.PairTaken (caller, key) := by
    rintro L L' h ⟨id, a, ha, hpair⟩
    exact ⟨id, a, (h.own id a (congrArg Prod.fst hpair)).mp ha, hpair⟩
  exact ⟨key h, key h.symm⟩

/-- A requester's intent meets another's approval with a conflict. -/
theorem conflict {intent : RequestIntent} {a : StoredApproval} (ha : L intent.requestId = some a)
    (hother : a.requesterInstance ≠ intent.requesterInstance) :
    L.request intent = (.error .idempotencyConflict, L) := by
  have hsame : ¬ sameIntent a intent = true := fun hs => hother (sameIntent_iff.mp hs).2.1
  unfold Ledger.request
  rw [ha]
  simp only [hsame, Bool.false_eq_true, if_false]

theorem request (h : L.Alike caller L') {intent : RequestIntent}
    (hcaller : intent.requesterInstance = caller) :
    (L.request intent).1 = (L'.request intent).1
      ∧ Alike caller (L.request intent).2 (L'.request intent).2 := by
  subst hcaller
  rcases h.cases_on intent.requestId with ⟨ha, hb⟩ | ⟨a, ha, hb, -⟩ | ⟨a, b, ha, hb, hna, hnb⟩
  -- the id is free on both sides
  · unfold Ledger.request
    rw [ha, hb]
    by_cases ht : L.PairTaken (intent.requesterInstance, intent.idempotencyKey)
    · have ht' := (h.pairTaken _).mp ht
      simp only [ht, ht', if_true]
      exact ⟨trivial, h⟩
    · have ht' := mt (h.pairTaken _).mpr ht
      simp only [ht, ht', if_false]
      exact ⟨trivial, h.update _ _⟩
  -- the same approval is there on both sides
  · unfold Ledger.request
    rw [ha, hb]
    simp only
    split <;> exact ⟨rfl, h⟩
  -- on both sides it is another requester's
  · rw [conflict ha hna, conflict hb hnb]
    exact ⟨rfl, h⟩

/-- Another's approval is not the caller's to cancel, whatever its status. -/
theorem notRequester {id : String} {a : StoredApproval} (ha : L id = some a)
    (hother : a.requesterInstance ≠ caller) (set : Settlement) (instant : Int) :
    L.settle id (refuseOthers caller) set instant = (.error .notRequester, L) := by
  unfold settle refuseOthers
  rw [ha]
  simp only [hother, ne_eq, not_false_eq_true, if_true]

theorem cancel (h : L.Alike caller L') (id : String) (set : Settlement) (instant : Int) :
    (L.settle id (refuseOthers caller) set instant).1
        = (L'.settle id (refuseOthers caller) set instant).1
      ∧ Alike caller (L.settle id (refuseOthers caller) set instant).2
        (L'.settle id (refuseOthers caller) set instant).2 := by
  rcases h.cases_on id with ⟨ha, hb⟩ | ⟨a, ha, hb, -⟩ | ⟨a, b, ha, hb, hna, hnb⟩
  · unfold settle
    rw [ha, hb]
    exact ⟨rfl, h⟩
  · unfold settle
    rw [ha, hb]
    simp only
    cases refuseOthers caller a with
    | some failure => exact ⟨rfl, h⟩
    | none => exact ⟨rfl, h.update _ _⟩
  -- on both sides it is another requester's
  · rw [notRequester ha hna, notRequester hb hnb]
    exact ⟨rfl, h⟩

/-- Another's approval reads as if it were not there. -/
theorem unreadable {id : String} {a : StoredApproval} (ha : L id = some a)
    (hother : a.requesterInstance ≠ caller) : L.read id (some caller) = none := by
  have hne : (some caller == some a.requesterInstance) = false := by
    rw [beq_eq_false_iff_ne]
    exact fun heq => hother (Option.some.inj heq).symm
  rw [Ledger.read, ha, Option.filter_some, hne]
  rfl

theorem read (h : L.Alike caller L') (id : String) :
    L.read id (some caller) = L'.read id (some caller) := by
  rcases h.cases_on id with ⟨ha, hb⟩ | ⟨a, ha, hb, -⟩ | ⟨a, b, ha, hb, hna, hnb⟩
  · rw [Ledger.read, Ledger.read, ha, hb]
  · rw [Ledger.read, Ledger.read, ha, hb]
  · rw [unreadable ha hna, unreadable hb hnb]

end Alike

end Ledger

/-! ## The calls of a requester -/

namespace ServiceCall

variable {Ctx : Type}

def context : ServiceCall Ctx → Ctx
  | request context _ => context
  | decide context _ => context
  | cancel context _ => context
  | read context _ => context
  | expire context _ => context

/-- The same operation and body, in another context. -/
def inContext (context : Ctx) : ServiceCall Ctx → ServiceCall Ctx
  | request _ body => request context body
  | decide _ body => decide context body
  | cancel _ body => cancel context body
  | read _ body => read context body
  | expire _ body => expire context body

/-- Who may call an operation. -/
def allowed (config : ApprovalPolicy) : ServiceCall Ctx → String → Bool
  | request _ _ => config.canRequest
  | decide _ _ => config.canDecide
  | cancel _ _ => config.canRequest
  | read _ _ => config.canRead
  | expire _ _ => config.canExpire

/-- The refusal of an operation to a caller that is not allowed. -/
def forbidden : ServiceCall Ctx → Response
  | request _ _ => .request (.error (.domain .forbidden))
  | decide _ _ => .decide (.error (.domain .forbidden))
  | cancel _ _ => .cancel (.error (.domain .forbidden))
  | read _ _ => .read (.error (.domain .forbidden))
  | expire _ _ => .expire (.error (.domain .forbidden))

end ServiceCall

section Calls

variable {Ctx : Type} {deps : Deps Ctx} {config : ApprovalPolicy}

theorem authorizedCaller_none {context : Ctx} {predicate : ApprovalPolicy → String → Bool}
    (h : ∀ caller, deps.callerInstance context = some caller → predicate config caller = false) :
    authorizedCaller deps config context predicate = none := by
  rw [authorizedCaller, Option.filter_eq_none_iff]
  intro caller hc
  rw [h caller hc]
  decide

/-- **A caller outside the list of an operation is refused without asking the store.** -/
theorem serve_forbidden {call : ServiceCall Ctx}
    (h : ∀ caller, deps.callerInstance call.context = some caller →
      call.allowed config caller = false) : serve deps config call = .ret call.forbidden := by
  cases call with
  | request context body =>
      have hnone : authorizedCaller deps config context ApprovalPolicy.canRequest = none :=
        authorizedCaller_none h
      change (ApprovalService.request deps config context body).run >>= _ = _
      rw [request_eq, hnone]
      rfl
  | decide context body =>
      have hnone : authorizedCaller deps config context ApprovalPolicy.canDecide = none :=
        authorizedCaller_none h
      change (ApprovalService.decide deps config context body).run >>= _ = _
      rw [decide_eq, hnone]
      rfl
  | cancel context body =>
      have hnone : authorizedCaller deps config context ApprovalPolicy.canRequest = none :=
        authorizedCaller_none h
      change (ApprovalService.cancel deps config context body).run >>= _ = _
      rw [cancel_eq, hnone]
      rfl
  | read context body =>
      have hnone : authorizedCaller deps config context ApprovalPolicy.canRead = none :=
        authorizedCaller_none h
      change (ApprovalService.read deps config context body).run >>= _ = _
      rw [read_eq, hnone]
      rfl
  | expire context body =>
      have hnone : authorizedCaller deps config context ApprovalPolicy.canExpire = none :=
        authorizedCaller_none h
      change (ApprovalService.expire deps config context body).run >>= _ = _
      rw [expire_eq, hnone]
      rfl

/-- A caller that may request, and nothing else. -/
structure OnlyRequests (config : ApprovalPolicy) (caller : String) : Prop where
  requester : caller ∈ config.requesterInstances
  notDecider : caller ∉ config.deciderInstances
  notExpirer : caller ∉ config.expirationExecutorInstances

namespace OnlyRequests

variable {caller : String} {context : Ctx}

theorem containsExact_iff {callers : List String} :
    containsExact callers caller = true ↔ caller ∈ callers :=
  ⟨mem_of_containsExact, fun h => List.any_eq_true.mpr ⟨caller, h, beq_self_eq_true caller⟩⟩

theorem canRequest (h : OnlyRequests config caller) : config.canRequest caller = true :=
  containsExact_iff.mpr h.requester

theorem canDecide (h : OnlyRequests config caller) : config.canDecide caller = false :=
  Bool.eq_false_iff.mpr (mt containsExact_iff.mp h.notDecider)

theorem canExpire (h : OnlyRequests config caller) : config.canExpire caller = false :=
  Bool.eq_false_iff.mpr (mt containsExact_iff.mp h.notExpirer)

theorem canReadAnyRequest (h : OnlyRequests config caller) :
    config.canReadAnyRequest caller = false := by
  rw [ApprovalPolicy.canReadAnyRequest, h.canDecide, h.canExpire]
  rfl

/-- Who calls in a context of the caller, as far as an operation asks. -/
theorem authorizedCaller (hc : deps.callerInstance context = some caller)
    (predicate : ApprovalPolicy → String → Bool) :
    authorizedCaller deps config context predicate
      = if predicate config caller then some caller else none := by
  rw [ApprovalService.authorizedCaller, hc, Option.filter_some]

end OnlyRequests

section Serve

variable {caller : String} {m : Moments} {L L' : Ledger}

/-- **Alike ledgers answer a requester's call alike, and stay alike.** -/
theorem serve_alike (m : Moments) (hcaller : OnlyRequests config caller) (h : L.Alike caller L')
    (call : ServiceCall Ctx) (hc : deps.callerInstance call.context = some caller) {context : Ctx}
    (hc' : deps.callerInstance context = some caller) :
    (L.serve deps config m call).1 = (L'.serve deps config m (call.inContext context)).1
      ∧ Ledger.Alike caller (L.serve deps config m call).2
        (L'.serve deps config m (call.inContext context)).2 := by
  cases call with
  | request context₀ body =>
      change deps.callerInstance context₀ = some caller at hc
      simp only [ServiceCall.inContext, serve_request, OnlyRequests.authorizedCaller hc,
        OnlyRequests.authorizedCaller hc', hcaller.canRequest, if_true]
      cases hadmitted : admission deps.time caller body m.now with
      | error e => exact ⟨rfl, h⟩
      | ok intent =>
          -- the id may be taken by an approval the caller does not see
          obtain ⟨heq, halike⟩ := h.request (requester_of_admission hadmitted)
          simp only [heq]
          exact ⟨trivial, halike⟩
  | decide context₀ body =>
      change deps.callerInstance context₀ = some caller at hc
      simp only [ServiceCall.inContext, serve_decide, OnlyRequests.authorizedCaller hc,
        OnlyRequests.authorizedCaller hc', hcaller.canDecide, Bool.false_eq_true, if_false]
      exact ⟨trivial, h⟩
  | cancel context₀ body =>
      change deps.callerInstance context₀ = some caller at hc
      simp only [ServiceCall.inContext, serve_cancel, OnlyRequests.authorizedCaller hc,
        OnlyRequests.authorizedCaller hc', hcaller.canRequest, if_true]
      cases cancellationRefused body with
      | true => exact ⟨rfl, h⟩
      | false =>
          obtain ⟨heq, halike⟩ := h.cancel body.requestId
            ⟨.cancelled, caller, some body.cancelledBy, none, body.reason⟩ m.settled
          simp only [Bool.false_eq_true, if_false, heq]
          exact ⟨trivial, halike⟩
  | read context₀ body =>
      change deps.callerInstance context₀ = some caller at hc
      simp only [ServiceCall.inContext, serve_read, OnlyRequests.authorizedCaller hc,
        OnlyRequests.authorizedCaller hc']
      cases config.canRead caller with
      | false => exact ⟨rfl, h⟩
      | true =>
          cases validRequestId body.requestId with
          | false => exact ⟨rfl, h⟩
          | true =>
              -- without leave to read any request, the read is for the requester only
              simp only [hcaller.canReadAnyRequest, if_true, Bool.not_true, Bool.not_false,
                Bool.false_eq_true, if_false, h.read]
              exact ⟨trivial, h⟩
  | expire context₀ body =>
      change deps.callerInstance context₀ = some caller at hc
      simp only [ServiceCall.inContext, serve_expire, OnlyRequests.authorizedCaller hc,
        OnlyRequests.authorizedCaller hc', hcaller.canExpire, Bool.false_eq_true, if_false]
      exact ⟨trivial, h⟩

/-- Another's approval meets a valid request of the caller with a conflict. -/
theorem serve_request_other (hlaw : deps.time.Lawful) (hm : m.InYears)
    (hcaller : OnlyRequests config caller) {context : Ctx}
    (hc : deps.callerInstance context = some caller) {body : RequestRequest}
    (hbody : Passes deps.time body m.now) {a : StoredApproval} (ha : L body.requestId = some a)
    (hother : a.requesterInstance ≠ caller) :
    (L.serve deps config m (.request context body)).1
      = .request (.error (.domain .idempotencyConflict)) := by
  obtain ⟨intent, hadmitted⟩ := admission_of_passes hlaw hm.now _ hbody
  obtain ⟨expiresAt, -, hintent⟩ := (admission_ok hlaw hm.now hadmitted).deadline
  have hid : intent.requestId = body.requestId := by rw [hintent]; rfl
  -- the intent is in the caller's name, so the approval in the way has another intent
  have hne : a.requesterInstance ≠ intent.requesterInstance := by
    rw [requester_of_admission hadmitted]
    exact hother
  rw [serve_request, OnlyRequests.authorizedCaller hc, if_pos hcaller.canRequest]
  simp only [hadmitted, Ledger.Alike.conflict (hid ▸ ha) hne]
  rfl

/-- Another's approval meets a valid cancellation with a refusal, whatever its status. -/
theorem serve_cancel_other (hcaller : OnlyRequests config caller) {context : Ctx}
    (hc : deps.callerInstance context = some caller) {body : CancelRequest}
    (hbody : cancellationRefused body = false) {a : StoredApproval}
    (ha : L body.requestId = some a) (hother : a.requesterInstance ≠ caller) :
    (L.serve deps config m (.cancel context body)).1
      = .cancel (.error (.domain .notRequester)) := by
  rw [serve_cancel, OnlyRequests.authorizedCaller hc, if_pos hcaller.canRequest]
  simp only [hbody, Bool.false_eq_true, if_false, Ledger.Alike.notRequester ha hother]
  rfl

/-- Another's approval reads as if it were not there. -/
theorem serve_read_other (hcaller : OnlyRequests config caller) {context : Ctx}
    (hc : deps.callerInstance context = some caller) {body : ReadRequest}
    (hbody : validRequestId body.requestId = true)
    (hother : ∀ a, L body.requestId = some a → a.requesterInstance ≠ caller) :
    (L.serve deps config m (.read context body)).1
      = .read (.error (.domain .requestNotFound)) := by
  -- missing and unreadable come to the same
  have hread : L.read body.requestId (some caller) = none := by
    cases ha : L body.requestId with
    | none => rw [Ledger.read, ha]; rfl
    | some a => exact Ledger.Alike.unreadable ha (hother a ha)
  have hcan : config.canRead caller = true := by
    rw [ApprovalPolicy.canRead, hcaller.canRequest]
    rfl
  rw [serve_read, OnlyRequests.authorizedCaller hc, if_pos hcan]
  simp only [hbody, hcaller.canReadAnyRequest, Bool.not_true, Bool.not_false, Bool.false_eq_true,
    if_false, if_true, hread]
  rfl

end Serve

end Calls

/-! ## Runs over a backend -/

section Runs

variable {Ctx Clock State Row : Type}

/-- The same rows of one requester, and the same ids in use by the others. -/
structure AlikeRows (B : Backend Clock State Row) (caller : String) (s t : State) : Prop where
  ids : ∀ id, (B.row s id).isSome = (B.row t id).isSome
  own : ∀ id row a, B.approval row = some a → a.requesterInstance = caller →
    (B.row s id = some row ↔ B.row t id = some row)

/-- Two runs of the same calls, each call in a context of its own. -/
def SameCalls {Ctx Clock : Type} (calls calls' : List (Clock × ServiceCall Ctx)) : Prop :=
  List.Forall₂ (fun c c' => c'.1 = c.1 ∧ ∃ context, c'.2 = c.2.inContext context) calls calls'

/-- All calls are made by one caller. -/
def CalledBy (deps : Deps Ctx) (caller : String) (calls : List (Clock × ServiceCall Ctx)) : Prop :=
  ∀ c ∈ calls, deps.callerInstance c.2.context = some caller

/--
Requesters are isolated, over a backend whose `request` reads its clock with `now`.

`noninterference` compares two runs; the next three say what another's approval
looks like; `forbidden` holds over any store, whatever it contains or fails with.
-/
structure Isolated (B : Backend Clock State Row) (now : Clock → Int) (deps : Deps Ctx)
    (config : ApprovalPolicy) : Prop where
  noninterference : ∀ caller, OnlyRequests config caller →
    ∀ s t, B.Reachable deps config s → B.Reachable deps config t → AlikeRows B caller s t →
    ∀ calls calls', B.Timely calls → CalledBy deps caller calls → CalledBy deps caller calls' →
      SameCalls calls calls' →
      (B.run deps config calls s).1 = (B.run deps config calls' t).1
        ∧ AlikeRows B caller (B.run deps config calls s).2 (B.run deps config calls' t).2
  request : ∀ caller, OnlyRequests config caller → ∀ s, B.Reachable deps config s →
    ∀ clock context body row a, B.inYears clock → deps.callerInstance context = some caller →
      Passes deps.time body (now clock) → B.row s body.requestId = some row →
      B.approval row = some a → a.requesterInstance ≠ caller →
      (B.serve deps config clock (.request context body) s).1
        = .request (.error (.domain .idempotencyConflict))
  cancel : ∀ caller, OnlyRequests config caller → ∀ s, B.Reachable deps config s →
    ∀ clock context body row a, B.inYears clock → deps.callerInstance context = some caller →
      cancellationRefused body = false → B.row s body.requestId = some row →
      B.approval row = some a → a.requesterInstance ≠ caller →
      (B.serve deps config clock (.cancel context body) s).1
        = .cancel (.error (.domain .notRequester))
  read : ∀ caller, OnlyRequests config caller → ∀ s, B.Reachable deps config s →
    ∀ clock context body, B.inYears clock → deps.callerInstance context = some caller →
      validRequestId body.requestId = true →
      (∀ row a, B.row s body.requestId = some row → B.approval row = some a →
        a.requesterInstance ≠ caller) →
      (B.serve deps config clock (.read context body) s).1
        = .read (.error (.domain .requestNotFound))
  forbidden : ∀ call, (∀ caller, deps.callerInstance call.context = some caller →
      call.allowed config caller = false) →
    ∀ {σ : Type} (store : Prog.Handler StoreRes σ) (s : σ),
      Prog.run store (serve deps config call) s = (call.forbidden, s)

namespace Implements

variable {B : Backend Clock State Row} {represents : State → Ledger → Prop}
  {moments : Clock → Moments} {deps : Deps Ctx} {config : ApprovalPolicy}

theorem isSome_row (hB : Implements B represents moments) {s : State} {L : Ledger}
    (h : represents s L) (id : String) : (B.row s id).isSome = (L id).isSome := by
  rw [← hB.find h, Backend.find]
  cases hrow : B.row s id with
  | none => rfl
  | some row =>
      obtain ⟨a, ha⟩ := hB.decodes h id row hrow
      rw [Option.bind_some, ha]
      rfl

/-- The ledger's approval of a row. -/
theorem of_row (hB : Implements B represents moments) {s : State} {L : Ledger}
    (h : represents s L) {id : String} {row : Row} {a : StoredApproval}
    (hrow : B.row s id = some row) (ha : B.approval row = some a) : L id = some a := by
  rw [← hB.find h, Backend.find, hrow]
  exact ha

/-- Tables look alike when the ledgers they stand for do. -/
theorem alike_iff (hB : Implements B represents moments) {s t : State} {L L' : Ledger}
    (h : represents s L) (h' : represents t L') (caller : String) :
    AlikeRows B caller s t ↔ L.Alike caller L' := by
  constructor
  · intro halike
    -- what one side has of the caller, the other one has
    have key : ∀ {s t : State} {L L' : Ledger}, represents s L → represents t L' →
        (∀ id row a, B.approval row = some a → a.requesterInstance = caller →
          B.row s id = some row → B.row t id = some row) →
        ∀ id a, a.requesterInstance = caller → L id = some a → L' id = some a := by
      intro s t L L' h h' hown id a hcaller ha
      rw [← hB.find h] at ha
      obtain ⟨row, hrow, hdecodes⟩ := Option.bind_eq_some_iff.mp ha
      exact hB.of_row h' (hown id row a hdecodes hcaller hrow) hdecodes
    refine ⟨fun id => ?_, fun id a hcaller => ⟨?_, ?_⟩⟩
    · rw [← hB.isSome_row h, ← hB.isSome_row h', halike.ids]
    · exact key h h' (fun id row a ha hc => (halike.own id row a ha hc).mp) id a hcaller
    · exact key h' h (fun id row a ha hc => (halike.own id row a ha hc).mpr) id a hcaller
  · intro halike
    have key : ∀ {s t : State} {L L' : Ledger}, represents s L → represents t L' →
        (∀ id a, a.requesterInstance = caller → L id = some a → L' id = some a) →
        ∀ id row a, B.approval row = some a → a.requesterInstance = caller →
          B.row s id = some row → B.row t id = some row := by
      intro s t L L' h h' hown id row a hdecodes hcaller hrow
      have ha := hB.of_row h hrow hdecodes
      rw [← hB.row_eq h h' id (by rw [ha, hown id a hcaller ha]), hrow]
    refine ⟨fun id => ?_, fun id row a hdecodes hcaller => ⟨?_, ?_⟩⟩
    · rw [hB.isSome_row h, hB.isSome_row h', halike.ids]
    · exact key h h' (fun id a hc => (halike.own id a hc).mp) id row a hdecodes hcaller
    · exact key h' h (fun id a hc => (halike.own id a hc).mpr) id row a hdecodes hcaller

/-- Runs of a requester from alike states stay alike. -/
theorem run_alike (hB : Implements B represents moments) (hlaw : deps.time.Lawful)
    {caller : String} (hcaller : OnlyRequests config caller)
    {calls calls' : List (Clock × ServiceCall Ctx)} (hsame : SameCalls calls calls')
    (htimely : B.Timely calls) (hby : CalledBy deps caller calls)
    (hby' : CalledBy deps caller calls') {s t : State} {L L' : Ledger}
    (h : Stands represents s L) (h' : Stands represents t L') (halike : L.Alike caller L') :
    (B.run deps config calls s).1 = (B.run deps config calls' t).1
      ∧ AlikeRows B caller (B.run deps config calls s).2 (B.run deps config calls' t).2 := by
  induction hsame generalizing s t L L' with
  | nil => exact ⟨rfl, (hB.alike_iff h.represents h'.represents caller).mpr halike⟩
  | @cons c c' calls calls' hc hrest ih =>
      obtain ⟨clock, call⟩ := c
      obtain ⟨clock', call'⟩ := c'
      obtain ⟨hclock, context, hcall'⟩ := hc
      simp only at hclock hcall'
      subst hclock hcall'
      -- the two calls are by the same caller, in contexts that may differ
      have hcall := hby _ List.mem_cons_self
      have hcontext : deps.callerInstance context = some caller := by
        have := hby' _ List.mem_cons_self
        cases call <;> exact this
      have hclock := htimely _ List.mem_cons_self
      obtain ⟨hr, hnext⟩ := hB.stands_serve config hlaw hclock call h
      obtain ⟨hr', hnext'⟩ := hB.stands_serve config hlaw hclock (call.inContext context) h'
      obtain ⟨heq, hstill⟩ := serve_alike (moments clock') hcaller halike call hcall hcontext
      obtain ⟨hanswers, hend⟩ := ih (fun c hc => htimely c (List.mem_cons_of_mem _ hc))
        (fun c hc => hby c (List.mem_cons_of_mem _ hc))
        (fun c hc => hby' c (List.mem_cons_of_mem _ hc)) hnext hnext' hstill
      refine ⟨?_, hend⟩
      have hhead := hr.trans (heq.trans hr'.symm)
      exact congrArg₂ List.cons hhead hanswers

theorem isolated (hB : Implements B represents moments) (hlaw : deps.time.Lawful) :
    Isolated B (fun clock => (moments clock).now) deps config where
  noninterference caller hcaller s t hs ht halike calls calls' htimely hby hby' hsame := by
    obtain ⟨L, hL⟩ := hB.reachable hlaw hs
    obtain ⟨L', hL'⟩ := hB.reachable hlaw ht
    exact hB.run_alike hlaw hcaller hsame htimely hby hby' hL hL'
      ((hB.alike_iff hL.represents hL'.represents caller).mp halike)
  request caller hcaller s hs clock context body row a hclock hc hbody hrow ha hother := by
    obtain ⟨L, hL⟩ := hB.reachable hlaw hs
    rw [(hB.stands_serve config hlaw hclock _ hL).1]
    exact serve_request_other hlaw (hB.inYears hclock) hcaller hc hbody
      (hB.of_row hL.represents hrow ha) hother
  cancel caller hcaller s hs clock context body row a hclock hc hbody hrow ha hother := by
    obtain ⟨L, hL⟩ := hB.reachable hlaw hs
    rw [(hB.stands_serve config hlaw hclock _ hL).1]
    exact serve_cancel_other hcaller hc hbody (hB.of_row hL.represents hrow ha) hother
  read caller hcaller s hs clock context body hclock hc hbody hother := by
    obtain ⟨L, hL⟩ := hB.reachable hlaw hs
    rw [(hB.stands_serve config hlaw hclock _ hL).1]
    refine serve_read_other hcaller hc hbody (fun a ha => ?_)
    rw [← hB.find hL.represents] at ha
    obtain ⟨row, hrow, hdecodes⟩ := Option.bind_eq_some_iff.mp ha
    exact hother row a hrow hdecodes
  forbidden call hcall σ store s := by
    rw [serve_forbidden hcall]
    rfl

end Implements

/-- **On either backend, requesters are isolated from each other**, in the years 0 to 9999. -/
theorem requesters_isolated (deps : Deps Ctx) (h : deps.Lawful) (config : ApprovalPolicy) :
    Isolated (Postgres.backend deps) (fun clock => clock.nowUtc) deps config
      ∧ Isolated (D1.backend deps) (fun clock => clock.dateNow * 1000000) deps config :=
  ⟨(Postgres.implements h).isolated h.time, (D1.implements h).isolated h.time⟩

theorem requesters_isolated_standard :
    Isolated (Postgres.backend Standard.deps) (fun clock => clock.nowUtc) Standard.deps
        Standard.policy
      ∧ Isolated (D1.backend Standard.deps) (fun clock => clock.dateNow * 1000000) Standard.deps
        Standard.policy :=
  requesters_isolated Standard.deps Standard.deps_lawful Standard.policy

/-- Two requesters. -/
def twoRequesters : ApprovalPolicy :=
  { Standard.policy with requesterInstances := ["approval-client", "billing-client"] }

def billing : Standard.Context := ⟨some "billing-client", false⟩

/-- The other requester tries to cancel the expense. -/
def billingCancels : List (D1.Clock × ServiceCall Standard.Context) :=
  [(⟨0, 0⟩, .cancel billing ⟨"apr_expense", "usr_clerk", none⟩)]

/-- A table of one row, which the requester does not recognise as its own. -/
def OneForeignRow (table : D1.Table) : Prop :=
  ∃ row, table = [row] ∧ row.requestId = "apr_expense"
    ∧ ((D1.backend Standard.deps).approval row).map StoredApproval.requesterInstance
      ≠ some "billing-client"

theorem alike_of_oneForeignRow {s t : D1.Table} (hs : OneForeignRow s) (ht : OneForeignRow t) :
    AlikeRows (D1.backend Standard.deps).anytime "billing-client" s t := by
  obtain ⟨row, rfl, hid, hforeign⟩ := hs
  obtain ⟨row', rfl, hid', hforeign'⟩ := ht
  have hrow : ∀ (r : D1.D1Row) id, D1.lookup [r] id = if r.requestId = id then some r else none :=
    fun r id => Keyed.lookup_cons r [] id
  have hother : ∀ (r : D1.D1Row) id found a,
      ((D1.backend Standard.deps).approval r).map StoredApproval.requesterInstance
        ≠ some "billing-client" →
      (D1.backend Standard.deps).approval found = some a → a.requesterInstance = "billing-client" →
      D1.lookup [r] id ≠ some found := by
    intro r id found a hne ha hbilling hfound
    rw [hrow] at hfound
    split at hfound
    next =>
      cases hfound
      rw [ha, Option.map_some, hbilling] at hne
      exact hne rfl
    next => cases hfound
  refine ⟨fun id => ?_, fun id found a ha hbilling => ?_⟩
  · change (D1.lookup [row] id).isSome = (D1.lookup [row'] id).isSome
    rw [hrow, hrow, hid, hid']
    split <;> rfl
  · exact iff_of_false (hother row id found a hforeign ha hbilling)
      (hother row' id found a hforeign' ha hbilling)

/-- **Another's decision in the year 10000 shows to a requester** on D1. -/
theorem requesters_not_isolated_too_late : ¬ Isolated (D1.backend Standard.deps).anytime
    (fun clock => clock.dateNow * 1000000) Standard.deps twoRequesters := by
  intro h
  have honly : OnlyRequests twoRequesters "billing-client" :=
    ⟨by decide, by decide, by decide⟩
  -- the tables have one row each, and neither is of the requester
  have halike := alike_of_oneForeignRow (s := Standard.requested twoRequesters)
    (t := Standard.decidedTooLate twoRequesters)
    (by refine ⟨_, rfl, rfl, ?_⟩; decide +kernel) (by refine ⟨_, rfl, rfl, ?_⟩; decide +kernel)
  have hby : CalledBy Standard.deps "billing-client" billingCancels := by
    intro c hc
    rw [List.mem_singleton.mp hc]
    rfl
  have hsame : SameCalls billingCancels billingCancels := .cons ⟨rfl, billing, rfl⟩ .nil
  obtain ⟨hresponses, -⟩ := h.noninterference _ honly _ _ (Standard.requested_reachable _)
    (Standard.decidedTooLate_reachable _) halike _ _ (fun _ _ => trivial) hby hby hsame
  have hpending : ((D1.backend Standard.deps).anytime.run Standard.deps twoRequesters billingCancels
      (Standard.requested twoRequesters)).1.map Response.runtimeFailure = [none] := by
    decide +kernel
  have hdecided : ((D1.backend Standard.deps).anytime.run Standard.deps twoRequesters billingCancels
      (Standard.decidedTooLate twoRequesters)).1.map Response.runtimeFailure ≠ [none] := by
    decide +kernel
  rw [hresponses] at hpending
  exact hdecided hpending

end Runs

end BusinessApproval
