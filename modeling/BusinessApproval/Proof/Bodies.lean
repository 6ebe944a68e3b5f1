import BusinessApproval.Model.Batches
import BusinessApproval.Proof.Commute
import BusinessApproval.Proof.Equivalence

/-!
# What a call does to D1

The service operations over the D1 store, as programs over what the host offers. A call
ends at once, or it reads its clocks and calls the database once; what it answers then is
a function of the database's answer. `body_staged` is this, for each of the operations.
-/

namespace BusinessApproval.D1

open ApprovalService

variable {Ctx : Type} {deps : Deps Ctx} {config : ApprovalPolicy}

/-- The kind of a transition, and the response of its operation to what its method gives. -/
inductive Responds (time : TimeCrate) : ServiceCall Ctx → Kind →
    (Except StorageError (Except DomainFailure StoredApproval) → Response) → Prop
  | decide (context : Ctx) (body : DecideRequest) :
      Responds time (.decide context body) .decide fun answer =>
        .decide (respondTransition mapDecideFailure (decideResponse time) answer)
  | cancel (context : Ctx) (body : CancelRequest) :
      Responds time (.cancel context body) .cancel fun answer =>
        .cancel (respondTransition mapCancelFailure (cancelResponse time) answer)
  | expire (context : Ctx) (body : ExpireRequest) :
      Responds time (.expire context body) .expire fun answer =>
        .expire (respondTransition mapExpireFailure (expireResponse time) answer)

section Staged

variable (deps : Deps Ctx) (config : ApprovalPolicy)

/-- What is left of a request that has read its clock. -/
inductive Submits (context : Ctx) (body : RequestRequest) (now : Int) :
    Prog D1Res Response → Prop
  | refused (r : Response) : Submits context body now (.ret r)
  | sent {intent : RequestIntent} {i : IntentInput}
      (hsends : Sends deps config (.request context body) (.request intent))
      (hid : intent.requestId = body.requestId) (hnow : intent.requestedAt = floorMicros now)
      (hi : IntentInput.ofIntent deps.time intent = some i) :
      Submits context body now
        (.call (.batch (.insert (D1Row.ofIntent i (toString (intent.expiresAt.tdiv 1000))))
          (sharesKey i)) fun answer =>
            .ret (.request (respondRequest (concludeRequest deps.time intent answer))))

/-- The stages of a call. -/
inductive Staged : ServiceCall Ctx → Prog D1Res Response → Prop
  | answered (call : ServiceCall Ctx) (r : Response) : Staged call (.ret r)
  | transition {call : ServiceCall Ctx} {kind : Kind} {input : Input}
      {respond : Except StorageError (Except DomainFailure StoredApproval) → Response}
      (hresponds : Responds deps.time call kind respond) (hproper : Proper kind input)
      (hid : input.id = call.requestId) :
      Staged call
        (.call .newDate fun date => .call .dateNow fun now =>
          .call (.batch (updateOf kind input date now) (fun row => row.requestId == input.id))
            fun answer => .ret (respond (concludeTransition deps.time kind input.caller answer)))
  | request {context : Ctx} {body : RequestRequest} {k : Int → Prog D1Res Response}
      (h : ∀ ms, InYears (ms * 1000000) → Submits deps config context body (ms * 1000000) (k ms)) :
      Staged (.request context body) (.call .dateNow k)
  | read (context : Ctx) (body : ReadRequest) (id : String) (requester : Option String) :
      Staged (.read context body)
        (.call (.first (readable id requester)) fun answer =>
          .ret (.read (respondRead deps.time (concludeRead deps.time answer))))

end Staged

theorem staged_decide (context : Ctx) (request : DecideRequest) :
    Staged deps config (.decide context request) (body deps config (.decide context request)) := by
  change Staged _ _ _ (Prog.subst _ ((ApprovalService.decide deps config context request).run
    >>= fun r => .ret (Response.decide r)))
  rw [decide_eq]
  cases authorizedCaller deps config context ApprovalPolicy.canDecide with
  | none => exact .answered _ _
  | some caller =>
      simp only
      split
      next => exact .answered _ _
      next =>
        split
        next => exact .answered _ _
        next =>
          have hproper : Proper .decide ⟨request.requestId,
              some (decidedStatus request.decision).asStr, caller, some request.decidedBy,
              some request.evidenceRef, request.reason⟩ :=
            ⟨fun _ => by cases request.decision <;> simp [decidedStatus, ApprovalStatus.asStr]⟩
          rw [Prog.call_bind, Prog.subst, StoreHandle, transitionMethod_eq deps.time hproper]
          exact .transition (.decide context request) hproper rfl

theorem staged_cancel (context : Ctx) (request : CancelRequest) :
    Staged deps config (.cancel context request) (body deps config (.cancel context request)) := by
  change Staged _ _ _ (Prog.subst _ ((ApprovalService.cancel deps config context request).run
    >>= fun r => .ret (Response.cancel r)))
  rw [cancel_eq]
  cases authorizedCaller deps config context ApprovalPolicy.canRequest with
  | none => exact .answered _ _
  | some caller =>
      simp only
      split
      next => exact .answered _ _
      next =>
        have hproper : Proper .cancel ⟨request.requestId, none, caller, some request.cancelledBy,
            none, request.reason⟩ := ⟨fun h => by cases h⟩
        rw [Prog.call_bind, Prog.subst, StoreHandle, transitionMethod_eq deps.time hproper]
        exact .transition (.cancel context request) hproper rfl

theorem staged_expire (context : Ctx) (request : ExpireRequest) :
    Staged deps config (.expire context request) (body deps config (.expire context request)) := by
  change Staged _ _ _ (Prog.subst _ ((ApprovalService.expire deps config context request).run
    >>= fun r => .ret (Response.expire r)))
  rw [expire_eq]
  cases authorizedCaller deps config context ApprovalPolicy.canExpire with
  | none => exact .answered _ _
  | some caller =>
      simp only
      split
      next => exact .answered _ _
      next =>
        have hproper : Proper .expire ⟨request.requestId, none, caller, none, none, none⟩ :=
          ⟨fun h => by cases h⟩
        rw [Prog.call_bind, Prog.subst, StoreHandle, transitionMethod_eq deps.time hproper]
        exact .transition (.expire context request) hproper rfl

theorem staged_read (context : Ctx) (request : ReadRequest) :
    Staged deps config (.read context request) (body deps config (.read context request)) := by
  change Staged _ _ _ (Prog.subst _ ((ApprovalService.read deps config context request).run
    >>= fun r => .ret (Response.read r)))
  rw [read_eq]
  cases authorizedCaller deps config context ApprovalPolicy.canRead with
  | none => exact .answered _ _
  | some caller =>
      simp only
      split
      next => exact .answered _ _
      next =>
        rw [Prog.call_bind, Prog.subst, StoreHandle, readMethod_eq]
        exact .read context request _ _

theorem staged_request (hlaw : deps.time.Lawful) (context : Ctx) (request : RequestRequest) :
    Staged deps config (.request context request)
      (body deps config (.request context request)) := by
  change Staged _ _ _ (Prog.subst _ ((ApprovalService.request deps config context request).run
    >>= fun r => .ret (Response.request r)))
  rw [request_eq]
  cases hcaller : authorizedCaller deps config context ApprovalPolicy.canRequest with
  | none => exact .answered _ _
  | some caller =>
      refine .request fun now hnow => ?_
      have hread : instantOfMicros deps.time (microsText now) = some (now * 1000000) :=
        instantOfMicros_text hlaw hnow
      change Submits _ _ _ _ _ (Prog.subst _ ((match (instantOfMicros deps.time
          (microsText now)).elim (Except.error StorageError.unavailable) Except.ok with
        | .error e => Prog.ret (.error (storageRuntime e))
        | .ok now => submit (admission deps.time caller request now)) >>= fun r =>
          .ret (Response.request r)))
      rw [hread]
      simp only [Option.elim_some]
      cases ha : admission deps.time caller request (now * 1000000) with
      | error e => exact .refused _
      | ok intent =>
          have hadmits := admission_ok hlaw hnow ha
          obtain ⟨i, hi, -⟩ := standsFor_ofIntent hlaw hadmits.requestedAt hadmits.expiresAt
          change Submits _ _ _ _ _ (StoreHandle deps.time (.request intent) >>= _)
          rw [StoreHandle, requestMethod_eq deps.time hi]
          obtain ⟨expiresAt, -, hintent⟩ := hadmits.deadline
          exact .sent (.request hcaller hadmits) (hintent ▸ rfl) (hintent ▸ rfl) hi

/-- **A call reads its clocks, and then calls the database once at most.** -/
theorem body_staged (hlaw : deps.time.Lawful) (config : ApprovalPolicy)
    (call : ServiceCall Ctx) : Staged deps config call (body deps config call) := by
  cases call with
  | request context request => exact staged_request hlaw context request
  | decide context request => exact staged_decide context request
  | cancel context request => exact staged_cancel context request
  | read context request => exact staged_read context request
  | expire context request => exact staged_expire context request

end BusinessApproval.D1
