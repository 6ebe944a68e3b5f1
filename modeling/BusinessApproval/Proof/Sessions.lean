import BusinessApproval.Model.Timed
import BusinessApproval.Proof.Interleaved
import BusinessApproval.Proof.Refinement

/-!
# Service calls over PostgreSQL

A service call makes one call of a storage function at most: at once, or, if it is a
request, when it has read the clock. So service calls side by side are calls of the storage
functions side by side, and to each world of the ones there is a world of the others over
the same table: `TimedRunning.follows`.
-/

namespace BusinessApproval.Postgres

open ApprovalService Concurrent

variable {Ctx : Type} {deps : Deps Ctx} {config : ApprovalPolicy}

/-! ## The shape of a call -/

/-- The storage function a method of the store calls. -/
def callOf : StoreOp → Option Call
  | .now => none
  | .request intent => some (.request intent)
  | .read id requester => some (.read id requester)
  | .decide id status caller actor evidence reason =>
      some (.decide id status caller actor evidence reason)
  | .cancel id caller actor reason => some (.cancel id caller actor reason)
  | .expire id caller => some (.expire id caller)

/-- A service call leads to a call of a storage function; a request knows the time. -/
structure Makes (deps : Deps Ctx) (config : ApprovalPolicy) (told : Int → Prop)
    (call : ServiceCall Ctx) (storage : Call) : Prop where
  sends : ∃ o, Sends deps config call o ∧ callOf o = some storage
  requestedAt : ∀ intent, storage = .request intent →
    ∃ now, told now ∧ intent.requestedAt = floorMicros now

section Staged

variable (deps : Deps Ctx) (config : ApprovalPolicy)

/-- What is left of a call that does not read the clock any more. -/
inductive Begins (told : Int → Prop) (call : ServiceCall Ctx) : Prog SqlRes Response → Prop
  | answered (r : Response) : Begins told call (.ret r)
  | storage {β : Type} {storage : Call} {p : Prog SqlRes β} {f : β → Response} {g : β → Answer}
      (hmakes : Makes deps config told call storage)
      (hprog : storage.prog deps.timestamptz = p >>= fun b => .ret (g b)) :
      Begins told call (p >>= fun b => .ret (f b))

inductive Staged (call : ServiceCall Ctx) : Prog SqlRes Response → Prop
  | begins {rest : Prog SqlRes Response} (h : Begins deps config (fun _ => False) call rest) :
      Staged call rest
  | request {k : Int → Prog SqlRes Response}
      (h : ∀ now, InYears now → Begins deps config (fun n => n = now) call (k now)) :
      Staged call (.call .nowUtc k)

end Staged

/-- A method of the store runs a storage function, and puts its answer in another form. -/
theorem store_eq (timestamptz : Int → Int) {o : StoreOp} {storage : Call}
    (h : callOf o = some storage) :
    ∃ (β : Type) (p : Prog SqlRes β) (f : β → StoreRes o) (g : β → Answer),
      PostgresStore timestamptz true o = (p >>= fun b => .ret (f b))
        ∧ storage.prog timestamptz = p >>= fun b => .ret (g b) := by
  cases o with
  | now => cases h
  | request | read | decide | cancel | expire =>
      cases h
      exact ⟨_, _, _, _, rfl, rfl⟩

/-- A call that comes to one of the store. -/
theorem Begins.of_sends {told : Int → Prop} {call : ServiceCall Ctx} {o : StoreOp} {storage : Call}
    (hsends : Sends deps config call o) (hcall : callOf o = some storage)
    (hnow : ∀ intent, storage = .request intent →
      ∃ now, told now ∧ intent.requestedAt = floorMicros now) (f : StoreRes o → Response) :
    Begins deps config told call (PostgresStore deps.timestamptz true o >>= fun r => .ret (f r)) := by
  obtain ⟨β, p, f', g, hstore, hprog⟩ := store_eq deps.timestamptz hcall
  rw [hstore, Prog.bind_assoc]
  exact .storage ⟨⟨o, hsends, hcall⟩, hnow⟩ hprog

theorem staged_decide (context : Ctx) (request : DecideRequest) :
    Staged deps config (.decide context request) (body deps config (.decide context request)) := by
  refine .begins ?_
  change Begins _ _ _ _ (Prog.subst _ ((ApprovalService.decide deps config context request).run
    >>= fun r => .ret (Response.decide r)))
  rw [ApprovalService.decide_eq]
  cases hc : authorizedCaller deps config context ApprovalPolicy.canDecide with
  | none => exact .answered _
  | some caller =>
      cases hh : deps.deniesHumanContext context with
      | true => exact .answered _
      | false =>
          cases hb : decisionRefused request with
          | true => exact .answered _
          | false => exact .of_sends (.decide hc hh hb) rfl (fun _ h => by cases h) _

theorem staged_cancel (context : Ctx) (request : CancelRequest) :
    Staged deps config (.cancel context request) (body deps config (.cancel context request)) := by
  refine .begins ?_
  change Begins _ _ _ _ (Prog.subst _ ((ApprovalService.cancel deps config context request).run
    >>= fun r => .ret (Response.cancel r)))
  rw [ApprovalService.cancel_eq]
  cases hc : authorizedCaller deps config context ApprovalPolicy.canRequest with
  | none => exact .answered _
  | some caller =>
      cases hb : cancellationRefused request with
      | true => exact .answered _
      | false => exact .of_sends (.cancel hc hb) rfl (fun _ h => by cases h) _

theorem staged_expire (context : Ctx) (request : ExpireRequest) :
    Staged deps config (.expire context request) (body deps config (.expire context request)) := by
  refine .begins ?_
  change Begins _ _ _ _ (Prog.subst _ ((ApprovalService.expire deps config context request).run
    >>= fun r => .ret (Response.expire r)))
  rw [ApprovalService.expire_eq]
  cases hc : authorizedCaller deps config context ApprovalPolicy.canExpire with
  | none => exact .answered _
  | some caller =>
      cases hb : validRequestId request.requestId with
      | false => exact .answered _
      | true => exact .of_sends (.expire hc hb) rfl (fun _ h => by cases h) _

theorem staged_read (context : Ctx) (request : ReadRequest) :
    Staged deps config (.read context request) (body deps config (.read context request)) := by
  refine .begins ?_
  change Begins _ _ _ _ (Prog.subst _ ((ApprovalService.read deps config context request).run
    >>= fun r => .ret (Response.read r)))
  rw [ApprovalService.read_eq]
  cases hc : authorizedCaller deps config context ApprovalPolicy.canRead with
  | none => exact .answered _
  | some caller =>
      cases hb : validRequestId request.requestId with
      | false => exact .answered _
      | true => exact .of_sends (.read hc hb) rfl (fun _ h => by cases h) _

theorem staged_request (hlaw : deps.time.Lawful) (context : Ctx) (request : RequestRequest) :
    Staged deps config (.request context request)
      (body deps config (.request context request)) := by
  change Staged _ _ _ (Prog.subst _ ((ApprovalService.request deps config context request).run
    >>= fun r => .ret (Response.request r)))
  rw [ApprovalService.request_eq]
  cases hc : authorizedCaller deps config context ApprovalPolicy.canRequest with
  | none => exact .begins (.answered _)
  | some caller =>
      -- the clock is read first
      refine .request fun now hnow => ?_
      change Begins _ _ _ _ (Prog.subst _ (submit (admission deps.time caller request now)
        >>= fun r => .ret (Response.request r)))
      cases ha : admission deps.time caller request now with
      | error e => exact .answered _
      | ok intent =>
          -- what is admitted is requested at that reading
          have hadmits := admission_ok hlaw hnow ha
          refine .of_sends (.request hc hadmits) rfl (fun intent' h => ?_) _
          cases h
          obtain ⟨expiresAt, -, rfl⟩ := hadmits.deadline
          exact ⟨now, rfl, rfl⟩

/-- **A service call comes to one call of a storage function at most.** -/
theorem body_staged (hlaw : deps.time.Lawful) (config : ApprovalPolicy) (call : ServiceCall Ctx) :
    Staged deps config call (body deps config call) := by
  cases call with
  | request context request => exact staged_request hlaw context request
  | decide context request => exact staged_decide context request
  | cancel context request => exact staged_cancel context request
  | read context request => exact staged_read context request
  | expire context request => exact staged_expire context request

/-! ## Clients of the service and clients of the storage functions -/

/-- The clock showed this to a client that asked for the time. -/
def Told (c : Timed SqlOp Database) (t : Nat) (now : Int) : Prop := ⟨t, .nowUtc, now⟩ ∈ c.observations

/-- A client of the service, and what it is as a client of the storage functions. -/
inductive Follows (deps : Deps Ctx) (config : ApprovalPolicy) (c : Timed SqlOp Database) (t : Nat) :
    Status SqlRes (ServiceCall Ctx) Response → Status SqlRes Call Answer → Prop
  | idle : Follows deps config c t .idle .idle
  /-- It has not called a storage function yet. -/
  | asking {call : ServiceCall Ctx} {k : Int → Prog SqlRes Response}
      (h : ∀ now, InYears now → Begins deps config (fun n => n = now) call (k now)) :
      Follows deps config c t (.running call (.call .nowUtc k)) .idle
  | working {call : ServiceCall Ctx} {storage : Call} {β : Type} {p : Prog SqlRes β}
      {f : β → Response} {g : β → Answer} (h : Makes deps config (Told c t) call storage) :
      Follows deps config c t (.running call (p >>= fun b => .ret (f b)))
        (.running storage (p >>= fun b => .ret (g b)))
  | worked {call : ServiceCall Ctx} {r : Response} {storage : Call} {a : Answer}
      (h : Makes deps config (Told c t) call storage) :
      Follows deps config c t (.finished call r) (.running storage (.ret a))
  /-- It does not call any. -/
  | answered {call : ServiceCall Ctx} {r : Response} :
      Follows deps config c t (.running call (.ret r)) .idle
  | finished {call : ServiceCall Ctx} {r : Response} :
      Follows deps config c t (.finished call r) .idle

theorem Makes.mono {told told' : Int → Prop} {call : ServiceCall Ctx} {storage : Call}
    (h : Makes deps config told call storage) (hmono : ∀ now, told now → told' now) :
    Makes deps config told' call storage where
  sends := h.sends
  requestedAt intent hintent := by
    obtain ⟨now, htold, hnow⟩ := h.requestedAt intent hintent
    exact ⟨now, hmono now htold, hnow⟩

namespace Follows

variable {c c' : Timed SqlOp Database} {t : Nat}
  {status : Status SqlRes (ServiceCall Ctx) Response} {status' : Status SqlRes Call Answer}

theorem mono (h : Follows deps config c t status status') (hsub : c.observations ⊆ c'.observations) :
    Follows deps config c' t status status' := by
  have htold : ∀ now, Told c t now → Told c' t now := fun now hnow => hsub hnow
  cases h with
  | idle => exact .idle
  | asking h => exact .asking h
  | working h => exact .working (h.mono htold)
  | worked h => exact .worked (h.mono htold)
  | answered => exact .answered
  | finished => exact .finished

/-- A client that calls a storage function makes that call for its service call. -/
theorem makes (h : Follows deps config c t status status') {storage : Call}
    (hstorage : status'.call = some storage) :
    ∃ call, status.call = some call ∧ Makes deps config (Told c t) call storage := by
  cases h with
  | idle | asking | answered | finished => cases hstorage
  | working h =>
      cases hstorage
      exact ⟨_, rfl, h⟩
  | worked h =>
      cases hstorage
      exact ⟨_, rfl, h⟩

end Follows

/-! ## Steps -/

/-- Steps of the storage functions' world that only one client takes part in. -/
structure Advances (timestamptz : Int → Int) (t : Nat) (v v' : World) : Prop where
  later : Later machine (Call.prog timestamptz) v v'
  others : ∀ u, u ≠ t → v'.clients u = v.clients u

theorem Advances.refl (timestamptz : Int → Int) (t : Nat) (v : World) :
    Advances timestamptz t v v := ⟨.refl, fun _ _ => rfl⟩

section Steps

variable {c : Timed SqlOp Database} {t : Nat} {call : ServiceCall Ctx} {v : World}

/-- Reading the clock changes nothing. -/
theorem nowUtc_silent {d d' : Database} {now : Int} (h : machine.answers t .nowUtc d now d') :
    d' = d := by
  rcases h with h | ⟨fault, clock, -, rfl⟩
  · cases h with
    | nowUtc => rfl
  · rfl

/-- A client that does not read the clock any more calls its storage function, if any. -/
theorem Begins.follows {told : Int → Prop} {rest : Prog SqlRes Response}
    (h : Begins deps config told call rest) (htold : ∀ now, told now → Told c t now)
    (hidle : v.clients t = .idle) :
    ∃ v', Advances deps.timestamptz t v v' ∧ v'.shared = v.shared
      ∧ Follows deps config c t (.running call rest) (v'.clients t) := by
  cases h with
  | answered r => exact ⟨v, .refl _ t v, rfl, hidle ▸ .answered⟩
  | @storage β storage p f g hmakes hprog =>
      refine ⟨_, ⟨.single (.invoke t storage hidle), fun u hu => Function.update_of_ne hu ..⟩, rfl, ?_⟩
      simp only [Function.update_self, hprog]
      exact .working (hmakes.mono htold)

theorem Follows.answer {o : SqlOp} {k : SqlRes o → Prog SqlRes Response} {r : SqlRes o}
    {d : Database} (h : Follows deps config c t (.running call (.call o k)) (v.clients t))
    (hshared : v.shared = c.state) (hs : machine.answers t o c.state r d)
    (hshows : shows t c.clock o r d) :
    ∃ v', Advances deps.timestamptz t v v' ∧ v'.shared = d
      ∧ Follows deps config (c.answered t o d) t (.running call (k r)) (v'.clients t) := by
  generalize hrest : Prog.call o k = rest at h
  generalize hstatus : v.clients t = status at h
  cases h with
  | asking hbegins =>
      cases hrest
      -- the clock is read by the service, and only now a storage function is called
      obtain rfl := nowUtc_silent hs
      obtain ⟨rfl, hyears⟩ := hshows
      obtain ⟨v', hadvances, hv', hfollows⟩ := (hbegins c.clock hyears).follows
        (c := c.answered t .nowUtc c.state) (fun now hnow => hnow ▸ List.mem_cons_self) hstatus
      exact ⟨v', hadvances, hv'.trans hshared, hfollows⟩
  | answered => cases hrest
  | @working _ storage β p f g hmakes =>
      cases p with
      | ret b => cases hrest
      | call o' k' =>
          cases hrest
          -- the storage function goes on over the same tables
          rw [← hshared] at hs
          refine ⟨_, ⟨.single (.answer hstatus hs), fun u hu => Function.update_of_ne hu ..⟩, rfl, ?_⟩
          simp only [Function.update_self]
          exact .working (p := k' r) (f := f) (g := g)
            (hmakes.mono fun now hnow => List.mem_cons_of_mem _ hnow)

theorem Follows.work {o : SqlOp} {k : SqlRes o → Prog SqlRes Response} {d : Database}
    (h : Follows deps config c t (.running call (.call o k)) (v.clients t))
    (hshared : v.shared = c.state) (hs : Works t c.state o d) :
    Step machine (Call.prog deps.timestamptz) v ⟨d, v.clients, v.history⟩ := by
  generalize hrest : Prog.call o k = rest at h
  generalize hstatus : v.clients t = status at h
  cases h with
  | asking hbegins =>
      cases hrest
      cases hs
  | answered => cases hrest
  | @working _ storage β p f g hmakes =>
      cases p with
      | ret b => cases hrest
      | call o' k' =>
          cases hrest
          rw [← hshared] at hs
          exact .work hstatus hs

theorem Follows.respond {r : Response} {status : Status SqlRes Call Answer}
    (h : Follows deps config c t (.running call (.ret r)) status) :
    Follows deps config c t (.finished call r) status := by
  generalize hrest : Prog.ret r = rest at h
  cases h with
  | asking hbegins => cases hrest
  | answered => exact .finished
  | @working _ storage β p f g hmakes =>
      cases p with
      | ret b => exact .worked hmakes
      | call o k => cases hrest

end Steps

/-- The world of the storage functions that lies behind a world of the service. -/
structure Behind (deps : Deps Ctx) (config : ApprovalPolicy) (w : TimedWorld Ctx) (v : World) :
    Prop where
  shared : v.shared = w.shared.state
  clients : ∀ t, Follows deps config w.shared t (w.clients t) (v.clients t)

/-- **A step of the service is matched by the storage functions.** -/
theorem Behind.step (hlaw : deps.time.Lawful) {w w' : TimedWorld Ctx} {v : World}
    (h : Behind deps config w v) (hstep : Step (machine.timed shows) (body deps config) w w') :
    ∃ v', Later machine (Call.prog deps.timestamptz) v v' ∧ Behind deps config w' v' := by
  -- what a step of one client leaves to show
  have hclient : ∀ {t status c' v'}, Advances deps.timestamptz t v v' → v'.shared = c'.state →
      w.shared.observations ⊆ c'.observations → Follows deps config c' t status (v'.clients t) →
      ∀ history, Behind deps config ⟨c', Function.update w.clients t status, history⟩ v' := by
    intro t status c' v' hadvances hshared hsub hfollows history
    refine ⟨hshared, fun u => ?_⟩
    show Follows deps config c' u (Function.update w.clients t status u) (v'.clients u)
    by_cases hu : u = t
    · subst hu
      rw [Function.update_self]
      exact hfollows
    · rw [Function.update_of_ne hu, hadvances.others u hu]
      exact (h.clients u).mono hsub
  cases hstep with
  | invoke t call hidle =>
      have hfollows := h.clients t
      rw [hidle] at hfollows
      generalize hstatus : v.clients t = status at hfollows
      cases hfollows with
      | idle =>
          have hstaged := body_staged hlaw config call
          generalize body deps config call = rest at hstaged
          cases hstaged with
          | begins hbegins =>
              obtain ⟨v', hadvances, hv', hfollows⟩ :=
                hbegins.follows (c := w.shared) (fun _ => False.elim) hstatus
              exact ⟨v', hadvances.later, hclient hadvances (hv'.trans h.shared)
                (List.Subset.refl _) hfollows _⟩
          | request hbegins =>
              -- a request reads its clock first: no storage function is called yet
              exact ⟨v, .refl, hclient (.refl _ t v) h.shared (List.Subset.refl _)
                (hstatus ▸ .asking hbegins) _⟩
  | @answer t call o k r c' hrunning hs =>
      obtain ⟨d, hs, hshows, rfl⟩ := hs
      obtain ⟨v', hadvances, hv', hfollows⟩ :=
        (hrunning ▸ h.clients t).answer h.shared hs hshows
      exact ⟨v', hadvances.later, hclient hadvances hv' (List.subset_cons_self _ _) hfollows _⟩
  | @work t call o k c' hrunning hs =>
      obtain ⟨d, hs, rfl⟩ := hs
      exact ⟨⟨d, v.clients, v.history⟩, .single ((hrunning ▸ h.clients t).work h.shared hs), rfl,
        fun u => (h.clients u).mono (List.Subset.refl _)⟩
  | move hs =>
      cases hs with
      | move hs =>
          rw [← h.shared] at hs
          exact ⟨⟨_, v.clients, v.history⟩, .single (.move hs), rfl,
            fun u => (h.clients u).mono (List.Subset.refl _)⟩
      | tick hclock =>
          exact ⟨v, .refl, h.shared, fun u => (h.clients u).mono (List.Subset.refl _)⟩
  | @respond t call r hrunning =>
      exact ⟨v, .refl, hclient (.refl _ t v) h.shared (List.Subset.refl _)
        (hrunning ▸ h.clients t).respond _⟩

/-- **Service calls over PostgreSQL are calls of the storage functions**, in every world. -/
theorem TimedRunning.behind (hlaw : deps.time.Lawful) {w : TimedWorld Ctx}
    (h : TimedRunning deps config w) :
    ∃ v, Running deps.timestamptz v ∧ Behind deps config w v := by
  obtain ⟨clock, h⟩ := h
  induction h with
  | initial => exact ⟨.initial .empty, .initial, rfl, fun _ => .idle⟩
  | step h hstep ih =>
      obtain ⟨v, hv, hbehind⟩ := ih
      obtain ⟨v', hlater, hbehind'⟩ := hbehind.step hlaw hstep
      exact ⟨v', Reachable.later hv hlater, hbehind'⟩

end BusinessApproval.Postgres
