import BusinessApproval.Proof.Refinement

/-!
# The service over the ledger

A service call over the ledger is a function: it checks, makes its one store call,
and responds. The `serve_…` theorems give that function for each operation,
`serve_goes` the ways in which a call can go, and `serve_change` what it makes of the
ledger. `Implements.at` carries them to a run over a backend: before and after every
call of a run stands a sound ledger, and the call does between them what it does over
the ledger.
-/

namespace BusinessApproval

open ApprovalService

variable {Ctx Clock State Row : Type} {deps : Deps Ctx} {config : ApprovalPolicy}

/-! ## What each operation does -/

section Serve

variable (deps : Deps Ctx) (config : ApprovalPolicy) (m : Moments) (L : Ledger) (context : Ctx)

/-- One service call over the ledger. -/
noncomputable def Ledger.serve (call : ServiceCall Ctx) : Response × Ledger :=
  Prog.run (Ledger.perform m) (BusinessApproval.serve deps config call) L

theorem serve_request (body : RequestRequest) :
    L.serve deps config m (.request context body)
      = match authorizedCaller deps config context ApprovalPolicy.canRequest with
        | none => (.request (.error (.domain .forbidden)), L)
        | some caller =>
          match admission deps.time caller body m.now with
          | .error e => (.request (.error e), L)
          | .ok intent =>
              (.request (respondRequest (.ok (L.request intent).1)), (L.request intent).2) := by
  change Prog.run _ ((ApprovalService.request deps config context body).run
    >>= fun r => .ret (Response.request r)) L = _
  rw [Prog.run_bind, request_eq]
  cases authorizedCaller deps config context ApprovalPolicy.canRequest with
  | none => rfl
  | some caller =>
      simp only [Prog.run_call, Ledger.perform]
      cases admission deps.time caller body m.now with
      | error e => rfl
      | ok intent => rfl

theorem serve_decide (body : DecideRequest) :
    L.serve deps config m (.decide context body)
      = match authorizedCaller deps config context ApprovalPolicy.canDecide with
        | none => (.decide (.error (.domain .forbidden)), L)
        | some caller =>
          if deps.deniesHumanContext context then (.decide (.error (.domain .forbidden)), L)
          else if decisionRefused body then (.decide (.error (.domain .invalidRequest)), L)
          else
            let (answer, L') := L.settle body.requestId Ledger.refuseSettled
              ⟨decidedStatus body.decision, caller, some body.decidedBy, some body.evidenceRef,
                body.reason⟩ m.settled
            (.decide (respondTransition mapDecideFailure (decideResponse deps.time) (.ok answer)),
              L') := by
  change Prog.run _ ((ApprovalService.decide deps config context body).run
    >>= fun r => .ret (Response.decide r)) L = _
  rw [Prog.run_bind, decide_eq]
  cases authorizedCaller deps config context ApprovalPolicy.canDecide with
  | none => rfl
  | some caller =>
      simp only
      cases deps.deniesHumanContext context with
      | true => rfl
      | false =>
          cases decisionRefused body with
          | true => rfl
          | false => rfl

theorem serve_cancel (body : CancelRequest) :
    L.serve deps config m (.cancel context body)
      = match authorizedCaller deps config context ApprovalPolicy.canRequest with
        | none => (.cancel (.error (.domain .forbidden)), L)
        | some caller =>
          if cancellationRefused body then (.cancel (.error (.domain .invalidRequest)), L)
          else
            let (answer, L') := L.settle body.requestId (Ledger.refuseOthers caller)
              ⟨.cancelled, caller, some body.cancelledBy, none, body.reason⟩ m.settled
            (.cancel (respondTransition mapCancelFailure (cancelResponse deps.time) (.ok answer)),
              L') := by
  change Prog.run _ ((ApprovalService.cancel deps config context body).run
    >>= fun r => .ret (Response.cancel r)) L = _
  rw [Prog.run_bind, cancel_eq]
  cases authorizedCaller deps config context ApprovalPolicy.canRequest with
  | none => rfl
  | some caller =>
      simp only
      cases cancellationRefused body with
      | true => rfl
      | false => rfl

theorem serve_read (body : ReadRequest) :
    L.serve deps config m (.read context body)
      = match authorizedCaller deps config context ApprovalPolicy.canRead with
        | none => (.read (.error (.domain .forbidden)), L)
        | some caller =>
          if !validRequestId body.requestId then (.read (.error (.domain .invalidRequest)), L)
          else (.read (respondRead deps.time (.ok (L.read body.requestId
            (if !config.canReadAnyRequest caller then some caller else none)))), L) := by
  change Prog.run _ ((ApprovalService.read deps config context body).run
    >>= fun r => .ret (Response.read r)) L = _
  rw [Prog.run_bind, read_eq]
  cases authorizedCaller deps config context ApprovalPolicy.canRead with
  | none => rfl
  | some caller =>
      simp only
      cases validRequestId body.requestId with
      | true => rfl
      | false => rfl

theorem serve_expire (body : ExpireRequest) :
    L.serve deps config m (.expire context body)
      = match authorizedCaller deps config context ApprovalPolicy.canExpire with
        | none => (.expire (.error (.domain .forbidden)), L)
        | some caller =>
          if !validRequestId body.requestId then (.expire (.error (.domain .invalidRequest)), L)
          else
            let (answer, L') := L.settle body.requestId (Ledger.refuseEarly m.due)
              ⟨.expired, caller, none, none, none⟩ m.settled
            (.expire (respondTransition mapExpireFailure (expireResponse deps.time) (.ok answer)),
              L') := by
  change Prog.run _ ((ApprovalService.expire deps config context body).run
    >>= fun r => .ret (Response.expire r)) L = _
  rw [Prog.run_bind, expire_eq]
  cases authorizedCaller deps config context ApprovalPolicy.canExpire with
  | none => rfl
  | some caller =>
      simp only
      cases validRequestId body.requestId with
      | true => rfl
      | false => rfl

end Serve

/-! ## How a call goes -/

/-- A call is turned away before the store is asked for anything but the time. -/
inductive TurnedAway (deps : Deps Ctx) (config : ApprovalPolicy) (m : Moments) :
    ServiceCall Ctx → Response → Prop
  | forbidden {context : Ctx} {body : RequestRequest}
      (h : authorizedCaller deps config context ApprovalPolicy.canRequest = none) :
      TurnedAway deps config m (.request context body) (.request (.error (.domain .forbidden)))
  | notAdmitted {context : Ctx} {body : RequestRequest} {caller : String}
      {e : PluginError RequestError}
      (hcaller : authorizedCaller deps config context ApprovalPolicy.canRequest = some caller)
      (h : admission deps.time caller body m.now = .error e) :
      TurnedAway deps config m (.request context body) (.request (.error e))
  | decide (context : Ctx) (body : DecideRequest) (e : DecideError) :
      TurnedAway deps config m (.decide context body) (.decide (.error (.domain e)))
  | cancel (context : Ctx) (body : CancelRequest) (e : CancelError) :
      TurnedAway deps config m (.cancel context body) (.cancel (.error (.domain e)))
  | read (context : Ctx) (body : ReadRequest) (e : ReadError) :
      TurnedAway deps config m (.read context body) (.read (.error (.domain e)))
  | expire (context : Ctx) (body : ExpireRequest) (e : ExpireError) :
      TurnedAway deps config m (.expire context body) (.expire (.error (.domain e)))

/-- What a transition asks of the ledger, and the response it makes of the answer. -/
inductive Asks (deps : Deps Ctx) (m : Moments) :
    ServiceCall Ctx → StoreOp → String → (StoredApproval → Option DomainFailure) → Settlement →
      (Except DomainFailure StoredApproval → Response) → Prop
  | decide (context : Ctx) (body : DecideRequest) (caller : String) :
      Asks deps m (.decide context body)
        (.decide body.requestId (decidedStatus body.decision) caller body.decidedBy
          body.evidenceRef body.reason)
        body.requestId Ledger.refuseSettled
        ⟨decidedStatus body.decision, caller, some body.decidedBy, some body.evidenceRef,
          body.reason⟩
        fun answer => .decide
          (respondTransition mapDecideFailure (decideResponse deps.time) (.ok answer))
  | cancel (context : Ctx) (body : CancelRequest) (caller : String) :
      Asks deps m (.cancel context body)
        (.cancel body.requestId caller body.cancelledBy body.reason)
        body.requestId (Ledger.refuseOthers caller)
        ⟨.cancelled, caller, some body.cancelledBy, none, body.reason⟩
        fun answer => .cancel
          (respondTransition mapCancelFailure (cancelResponse deps.time) (.ok answer))
  | expire (context : Ctx) (body : ExpireRequest) (caller : String) :
      Asks deps m (.expire context body) (.expire body.requestId caller)
        body.requestId (Ledger.refuseEarly m.due) ⟨.expired, caller, none, none, none⟩
        fun answer => .expire
          (respondTransition mapExpireFailure (expireResponse deps.time) (.ok answer))

/-- What a transition asks for settles a pending approval, and expires none that is not due. -/
theorem Asks.settles {m : Moments} {call : ServiceCall Ctx} {o : StoreOp} {id : String}
    {refuse : StoredApproval → Option DomainFailure} {set : Settlement}
    {respond : Except DomainFailure StoredApproval → Response}
    (h : Asks deps m call o id refuse set respond) {a : StoredApproval} (ha : refuse a = none) :
    Settles o id a set ∧ a.status = .pending ∧ (set.status = .expired → a.expiresAt ≤ m.due) := by
  cases h with
  | decide context body caller =>
      refine ⟨.decide _ _ _ _ _ _ a, Ledger.pending_of_refuseSettled ha, fun he => ?_⟩
      -- a decision approves or rejects
      cases hd : body.decision <;> rw [hd] at he <;> cases he
  | cancel context body caller =>
      exact ⟨.cancel _ _ _ _ (Ledger.requester_of_refuseOthers ha),
        Ledger.pending_of_refuseOthers ha, fun he => by cases he⟩
  | expire context body caller =>
      exact ⟨.expire _ _ a, Ledger.pending_of_refuseEarly ha,
        fun _ => Ledger.due_of_refuseEarly ha⟩

/-- How a service call goes, whatever the ledger: it is turned away, or sends one operation. -/
inductive Goes (deps : Deps Ctx) (config : ApprovalPolicy) (m : Moments) :
    ServiceCall Ctx → (Ledger → Response × Ledger) → Prop
  | turnedAway {call : ServiceCall Ctx} {r : Response} (h : TurnedAway deps config m call r) :
      Goes deps config m call fun L => (r, L)
  | request {context : Ctx} {body : RequestRequest} {caller : String} {intent : RequestIntent}
      (hcaller : authorizedCaller deps config context ApprovalPolicy.canRequest = some caller)
      (hadmitted : admission deps.time caller body m.now = .ok intent) :
      Goes deps config m (.request context body) fun L =>
        (.request (respondRequest (.ok (L.request intent).1)), (L.request intent).2)
  | settle {call : ServiceCall Ctx} {o : StoreOp} {id : String}
      {refuse : StoredApproval → Option DomainFailure} {set : Settlement}
      {respond : Except DomainFailure StoredApproval → Response}
      (hsends : Sends deps config call o) (hasks : Asks deps m call o id refuse set respond) :
      Goes deps config m call fun L =>
        (respond (L.settle id refuse set m.settled).1, (L.settle id refuse set m.settled).2)
  | read (context : Ctx) (body : ReadRequest) (requester : Option String) :
      Goes deps config m (.read context body) fun L =>
        (.read (respondRead deps.time (.ok (L.read body.requestId requester))), L)

/-- **Every service call goes so.** -/
theorem serve_goes (deps : Deps Ctx) (config : ApprovalPolicy) (m : Moments)
    (call : ServiceCall Ctx) : Goes deps config m call fun L => L.serve deps config m call := by
  cases call with
  | request context body =>
      simp only [serve_request]
      cases hc : authorizedCaller deps config context ApprovalPolicy.canRequest with
      | none => exact .turnedAway (.forbidden hc)
      | some caller =>
          simp only
          -- all is checked before the store is asked
          cases ha : admission deps.time caller body m.now with
          | error e => exact .turnedAway (.notAdmitted hc ha)
          | ok intent => exact .request hc ha
  | decide context body =>
      simp only [serve_decide]
      cases hc : authorizedCaller deps config context ApprovalPolicy.canDecide with
      | none => exact .turnedAway (.decide context body .forbidden)
      | some caller =>
          -- a denied human context is told the same
          cases hh : deps.deniesHumanContext context with
          | true => exact .turnedAway (.decide context body .forbidden)
          | false =>
              cases hb : decisionRefused body with
              | true => exact .turnedAway (.decide context body .invalidRequest)
              | false => exact .settle (.decide hc hh hb) (.decide context body caller)
  | cancel context body =>
      simp only [serve_cancel]
      cases hc : authorizedCaller deps config context ApprovalPolicy.canRequest with
      | none => exact .turnedAway (.cancel context body .forbidden)
      | some caller =>
          cases hb : cancellationRefused body with
          | true => exact .turnedAway (.cancel context body .invalidRequest)
          | false => exact .settle (.cancel hc hb) (.cancel context body caller)
  | read context body =>
      simp only [serve_read]
      cases authorizedCaller deps config context ApprovalPolicy.canRead with
      | none => exact .turnedAway (.read context body .forbidden)
      | some caller =>
          cases validRequestId body.requestId with
          | false => exact .turnedAway (.read context body .invalidRequest)
          | true => exact .read context body _
  | expire context body =>
      simp only [serve_expire]
      cases hc : authorizedCaller deps config context ApprovalPolicy.canExpire with
      | none => exact .turnedAway (.expire context body .forbidden)
      | some caller =>
          cases hb : validRequestId body.requestId with
          | false => exact .turnedAway (.expire context body .invalidRequest)
          | true => exact .settle (.expire hc hb) (.expire context body caller)

/-- The same, with the call named. -/
theorem exists_goes (deps : Deps Ctx) (config : ApprovalPolicy) (m : Moments)
    (call : ServiceCall Ctx) :
    ∃ f, (∀ L : Ledger, L.serve deps config m call = f L) ∧ Goes deps config m call f :=
  ⟨_, fun _ => rfl, serve_goes deps config m call⟩

/-! ## What a call makes of the ledger -/

/-- A service call changes the ledger by one store call that it may send, if at all. -/
inductive ServeChange (deps : Deps Ctx) (config : ApprovalPolicy) (m : Moments)
    (call : ServiceCall Ctx) (L : Ledger) : Ledger → Prop
  | same : ServeChange deps config m call L L
  | by_ {o : StoreOp} {L' : Ledger} (hsends : Sends deps config call o)
      (hchange : L.Change m o L') : ServeChange deps config m call L L'

/-- **A service call makes of the ledger what one admitted store call makes of it.** -/
theorem serve_change (config : ApprovalPolicy) (hlaw : deps.time.Lawful) {m : Moments}
    (hm : m.InYears) (L : Ledger) (call : ServiceCall Ctx) :
    ServeChange deps config m call L (L.serve deps config m call).2 := by
  obtain ⟨f, hf, hgoes⟩ := exists_goes deps config m call
  rw [hf]
  cases hgoes with
  | turnedAway h => exact .same
  | request hcaller hadmitted =>
      exact .by_ (.request hcaller (admission_ok hlaw hm.now hadmitted)) (Ledger.request_change _)
  | settle hsends hasks =>
      refine .by_ hsends (Ledger.settle_change fun a ha => ?_)
      obtain ⟨hsettles, hp, -⟩ := hasks.settles ha
      exact ⟨hsettles, hp⟩
  | read context body requester => exact .same

theorem ServeChange.sound {m : Moments} (hm : m.InYears) {L L' : Ledger} {call : ServiceCall Ctx}
    (hc : ServeChange deps config m call L L') (h : L.Sound) : L'.Sound := by
  cases hc with
  | same => exact h
  | by_ hsends hchange => exact hchange.sound h hm hsends.admissible

theorem ServeChange.evolves {m : Moments} {L L' : Ledger} {call : ServiceCall Ctx}
    (hc : ServeChange deps config m call L L') (h : L.Sound) : L.Evolves L' := by
  cases hc with
  | same => exact .refl L
  | by_ hsends hchange => exact hchange.evolves h hsends.admissible

/-! ## Runs over a backend -/

/-- A state, and the sound ledger it stands for. -/
structure Stands (represents : State → Ledger → Prop) (s : State) (L : Ledger) : Prop where
  represents : represents s L
  sound : L.Sound

namespace Implements

variable {B : Backend Clock State Row} {represents : State → Ledger → Prop}
  {moments : Clock → Moments}

theorem stands_empty (hB : Implements B represents moments) :
    Stands represents B.empty Ledger.empty := ⟨hB.empty, Ledger.sound_empty⟩

variable (config)

/-- A service call over a backend is a service call over the ledger. -/
theorem stands_serve (hB : Implements B represents moments) (hlaw : deps.time.Lawful)
    {clock : Clock} (hclock : B.inYears clock) (call : ServiceCall Ctx) {s : State} {L : Ledger}
    (h : Stands represents s L) :
    (B.serve deps config clock call s).1 = (L.serve deps config (moments clock) call).1
      ∧ Stands represents (B.serve deps config clock call s).2
        (L.serve deps config (moments clock) call).2 := by
  obtain ⟨heq, hrep⟩ := hB.serve config hlaw hclock call h.represents
  exact ⟨heq, hrep,
    (serve_change config hlaw (hB.inYears hclock) L call).sound (hB.inYears hclock) h.sound⟩

/-- A run leads from a sound ledger to a sound ledger, further on. -/
theorem stands_run (hB : Implements B represents moments) (hlaw : deps.time.Lawful)
    {calls : List (Clock × ServiceCall Ctx)} (hcalls : B.Timely calls) {s : State} {L : Ledger}
    (h : Stands represents s L) :
    ∃ L', Stands represents (B.run deps config calls s).2 L' ∧ L.Evolves L' :=
  Prog.runAll_inv (I := fun s' => ∃ L', Stands represents s' L' ∧ L.Evolves L')
    (fun c hc s' hs' => by
      obtain ⟨L', hstands, hev⟩ := hs'
      obtain ⟨-, hnext⟩ := hB.stands_serve config hlaw (hcalls c hc) c.2 hstands
      exact ⟨_, hnext, hev.trans
        ((serve_change config hlaw (hB.inYears (hcalls c hc)) L' c.2).evolves hstands.sound)⟩)
    ⟨L, h, .refl L⟩

variable {config}

/-- **Every reachable state stands for a sound ledger.** -/
theorem reachable (hB : Implements B represents moments) (hlaw : deps.time.Lawful) {s : State}
    (h : B.Reachable deps config s) : ∃ L, Stands represents s L := by
  obtain ⟨calls, hcalls, rfl⟩ := h
  obtain ⟨L, hstands, -⟩ := hB.stands_run config hlaw hcalls hB.stands_empty
  exact ⟨L, hstands⟩

end Implements

namespace Backend

variable (B : Backend Clock State Row) (deps : Deps Ctx) (config : ApprovalPolicy)

/-- The state the `n`th call of a run meets. -/
def before (calls : List (Clock × ServiceCall Ctx)) (s : State) (n : Nat) : State :=
  Prog.before B.perform (BusinessApproval.serve deps config) calls s n

variable {B} {deps} {config}

theorem before_succ {calls : List (Clock × ServiceCall Ctx)} {s : State} {n : Nat} {clock : Clock}
    {call : ServiceCall Ctx} (hn : calls[n]? = some (clock, call)) :
    B.before deps config calls s (n + 1)
      = (B.serve deps config clock call (B.before deps config calls s n)).2 :=
  Prog.before_succ hn

theorem before_length (calls : List (Clock × ServiceCall Ctx)) (s : State) :
    B.before deps config calls s calls.length = (B.run deps config calls s).2 :=
  Prog.before_length calls s

theorem run_getElem? {calls : List (Clock × ServiceCall Ctx)} {s : State} {n : Nat} :
    (B.run deps config calls s).1[n]?
      = calls[n]?.map fun c => (B.serve deps config c.1 c.2 (B.before deps config calls s n)).1 :=
  Prog.runAll_getElem?

end Backend

namespace Implements

variable {B : Backend Clock State Row} {represents : State → Ledger → Prop}
  {moments : Clock → Moments}

variable (config)

/-- Between two calls of a run the ledger moves on. -/
theorem stands_between (hB : Implements B represents moments) (hlaw : deps.time.Lawful)
    {calls : List (Clock × ServiceCall Ctx)} (hcalls : B.Timely calls) {s : State} {i j : Nat}
    (hij : i ≤ j) {L : Ledger} (h : Stands represents (B.before deps config calls s i) L) :
    ∃ L', Stands represents (B.before deps config calls s j) L' ∧ L.Evolves L' := by
  have hsplit : B.before deps config calls s j
      = (B.run deps config ((calls.take j).drop i) (B.before deps config calls s i)).2 := by
    have htake : calls.take j = calls.take i ++ (calls.take j).drop i := by
      have hi : (calls.take j).take i = calls.take i := by rw [List.take_take, Nat.min_eq_left hij]
      rw [← hi, List.take_append_drop]
    conv_lhs => rw [Backend.before, Prog.before, htake, Prog.runAll_append]
    rfl
  rw [hsplit]
  refine hB.stands_run config hlaw (fun c hc => hcalls c ?_) h
  exact List.mem_of_mem_take (List.mem_of_mem_drop hc)

/-- Every state of a run stands for a sound ledger. -/
theorem stands_before (hB : Implements B represents moments) (hlaw : deps.time.Lawful)
    {calls : List (Clock × ServiceCall Ctx)} (hcalls : B.Timely calls) (n : Nat) :
    ∃ L, Stands represents (B.before deps config calls B.empty n) L := by
  obtain ⟨L, hstands, -⟩ := hB.stands_between config hlaw hcalls (Nat.zero_le n)
    hB.stands_empty
  exact ⟨L, hstands⟩

end Implements

end BusinessApproval
