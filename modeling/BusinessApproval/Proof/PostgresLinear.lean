import BusinessApproval.Proof.Precedence

/-!
# PostgreSQL calls in one order

A service call over PostgreSQL is answered at once, or makes one call of a storage function,
which takes effect in one moment. So the service calls of all clients, reads and refusals
among them, are calls made one after another in some order, which keeps to real time and
gives every call that did not fail in the runtime the answer it has had. Each of them has
the clock reads it has had. The table is what that order leaves.
-/

namespace BusinessApproval.Postgres

open ApprovalService Concurrent

variable {Ctx : Type} {deps : Deps Ctx} {config : ApprovalPolicy}

/-- One service call alone, as a step of the order. -/
def served (deps : Deps Ctx) (config : ApprovalPolicy) (clock : Clock) (call : ServiceCall Ctx)
    (table : Table) : Response × Table := (backend deps).serve deps config clock call table

/-- The calls that did not fail in the runtime. -/
def Returns (r : Response) : Prop := r.runtimeFailure = none

/-! ## The shape of a call -/

/-- A failure of the store, as the answer of a method. -/
def failed : (o : StoreOp) → BusinessApproval.StorageError → StoreRes o
  | .now, e | .request _, e | .read _ _, e | .decide _ _ _ _ _ _, e | .cancel _ _ _ _, e
  | .expire _ _, e => .error e

/-- What a method of the store answers when its storage function has answered. -/
def unpack : (o : StoreOp) → Answer → StoreRes o
  | o, .error _ => failed o .unavailable
  | .request _, .ok (.error failure) | .decide _ _ _ _ _ _, .ok (.error failure)
  | .cancel _ _ _ _, .ok (.error failure)
  | .expire _ _, .ok (.error failure) => .ok (.error failure)
  | .request _, .ok (.ok (.outcome outcome)) => .ok (.ok outcome)
  | .read _ _, .ok (.ok (.found approval)) => .ok approval
  | .decide _ _ _ _ _ _, .ok (.ok (.settled approval))
  | .cancel _ _ _ _, .ok (.ok (.settled approval))
  | .expire _ _, .ok (.ok (.settled approval)) => .ok (.ok approval)
  | o, _ => failed o .unavailable

/-- A method of the store is its storage function, and what is made of its answer. -/
theorem store_unpack (timestamptz : Int → Int) {o : StoreOp} {storage : Call}
    (h : callOf o = some storage) : PostgresStore timestamptz true o
      = storage.prog timestamptz >>= fun a => .ret (unpack o a) := by
  cases o with
  | now => cases h
  | request | read | decide | cancel | expire =>
      cases h
      refine Eq.trans ?_ (Prog.bind_assoc _ _ _).symm
      refine congrArg (fun f => _ >>= f) (funext fun r => congrArg Prog.ret ?_)
      rcases r with e | r | r <;> rfl

/-- What is left of a service call that does not read the clock any more. -/
inductive Stores : Prog StoreRes Response → Prop
  | answered (r : Response) : Stores (.ret r)
  | stores {o : StoreOp} {storage : Call} (ho : callOf o = some storage)
      {respond : StoreRes o → Response}
      (hfails : ∀ e, ∃ failure, (respond (failed o e)).runtimeFailure = some failure) :
      Stores (.call o fun answer => .ret (respond answer))

/-- **A service call asks for the time and makes one call of the store, or less.** -/
theorem serve_stores (deps : Deps Ctx) (config : ApprovalPolicy) (call : ServiceCall Ctx) :
    Stores (serve deps config call)
      ∨ ∃ k, serve deps config call = .call .now k ∧ ∀ answer, Stores (k answer) := by
  cases call with
  | request context body =>
      change Stores ((ApprovalService.request deps config context body).run
        >>= fun r => .ret (Response.request r)) ∨ ∃ k, (ApprovalService.request deps config context
          body).run >>= (fun r => .ret (Response.request r)) = .call .now k ∧ _
      rw [ApprovalService.request_eq]
      cases authorizedCaller deps config context ApprovalPolicy.canRequest with
      | none => exact Or.inl (.answered _)
      | some caller =>
          -- the clock is read, and then the request is sent or turned away
          refine Or.inr ⟨_, rfl, fun answer => ?_⟩
          cases answer with
          | error e => exact .answered _
          | ok now =>
              change Stores (submit (admission deps.time caller body now)
                >>= fun r => .ret (Response.request r))
              cases admission deps.time caller body now with
              | error e => exact .answered _
              | ok intent => exact .stores rfl fun e => ⟨_, rfl⟩
  | decide context body =>
      refine Or.inl ?_
      change Stores ((ApprovalService.decide deps config context body).run
        >>= fun r => .ret (Response.decide r))
      rw [ApprovalService.decide_eq]
      cases authorizedCaller deps config context ApprovalPolicy.canDecide with
      | none => exact .answered _
      | some caller =>
          cases deps.deniesHumanContext context with
          | true => exact .answered _
          | false =>
              cases decisionRefused body with
              | true => exact .answered _
              | false => exact .stores rfl fun e => ⟨_, rfl⟩
  | cancel context body =>
      refine Or.inl ?_
      change Stores ((ApprovalService.cancel deps config context body).run
        >>= fun r => .ret (Response.cancel r))
      rw [ApprovalService.cancel_eq]
      cases authorizedCaller deps config context ApprovalPolicy.canRequest with
      | none => exact .answered _
      | some caller =>
          cases cancellationRefused body with
          | true => exact .answered _
          | false => exact .stores rfl fun e => ⟨_, rfl⟩
  | read context body =>
      refine Or.inl ?_
      change Stores ((ApprovalService.read deps config context body).run
        >>= fun r => .ret (Response.read r))
      rw [ApprovalService.read_eq]
      cases authorizedCaller deps config context ApprovalPolicy.canRead with
      | none => exact .answered _
      | some caller =>
          cases validRequestId body.requestId with
          | false => exact .answered _
          | true => exact .stores rfl fun e => ⟨_, rfl⟩
  | expire context body =>
      refine Or.inl ?_
      change Stores ((ApprovalService.expire deps config context body).run
        >>= fun r => .ret (Response.expire r))
      rw [ApprovalService.expire_eq]
      cases authorizedCaller deps config context ApprovalPolicy.canExpire with
      | none => exact .answered _
      | some caller =>
          cases validRequestId body.requestId with
          | false => exact .answered _
          | true => exact .stores rfl fun e => ⟨_, rfl⟩

/-- What is made of the answer of a storage function, so that it is the service call's. -/
structure Replies (timestamptz : Int → Int) (storage : Call) (p : Prog StoreRes Response)
    (reply : Answer → Response) : Prop where
  program : Prog.subst (PostgresStore timestamptz true) p
    = storage.prog timestamptz >>= fun a => .ret (reply a)
  alone : ∀ clock table, Prog.run (alone timestamptz clock) p table
    = (reply (storage.alone timestamptz clock table).1, (storage.alone timestamptz clock table).2)
  fails : ∀ e, ∃ failure, (reply (.error e)).runtimeFailure = some failure

theorem Stores.replies (timestamptz : Int → Int) {p : Prog StoreRes Response} (h : Stores p) :
    (∃ r, p = .ret r) ∨ ∃ storage reply, Replies timestamptz storage p reply := by
  cases h with
  | answered r => exact Or.inl ⟨r, rfl⟩
  | @stores o storage ho respond hfails =>
      refine Or.inr ⟨storage, fun a => respond (unpack o a), ?_, fun clock table => ?_, fun e => ?_⟩
      -- the storage function is run, and its answer is unpacked
      · change PostgresStore timestamptz true o >>= (fun answer => .ret (respond answer)) = _
        rw [store_unpack timestamptz ho, Prog.bind_assoc]
        rfl
      · rw [Prog.run_call, Prog.run_ret, Postgres.alone, store_unpack timestamptz ho, Prog.run_bind]
        rfl
      · obtain ⟨failure, h⟩ := hfails .unavailable
        refine ⟨failure, ?_⟩
        rw [show unpack o (.error e) = failed o .unavailable by cases o <;> rfl]
        exact h

/-- A call alone depends on the clock of the transaction only, if on any. -/
theorem Call.alone_congr (timestamptz : Int → Int) {table : Table} (hs : Sound table)
    (clock clock' : Clock) (call : Call)
    (h : call.writes = true → clock.transactionTimestamp = clock'.transactionTimestamp) :
    call.alone timestamptz clock table = call.alone timestamptz clock' table := by
  cases call.kind with
  | request intent =>
      rw [Call.alone_request timestamptz clock hs, Call.alone_request timestamptz clock' hs]
  | read requestId requester =>
      rw [Call.alone_read timestamptz clock hs, Call.alone_read timestamptz clock' hs]
  | transition hT =>
      rw [hT.alone timestamptz clock hs, hT.alone timestamptz clock' hs, h hT.writes]

/-! ## The invariant -/

/-- A call's clock shows what the client was told the time was. -/
def Shown (seen : List (Observation SqlOp)) (t : Nat) (clock : Clock) : Prop :=
  ∀ now, ⟨t, .nowUtc, now⟩ ∈ seen → clock.nowUtc = now

/-- It also shows what the client's transaction began with, if one has. -/
structure Consistent (d : Database) (seen : List (Observation SqlOp)) (t : Nat) (clock : Clock) :
    Prop where
  now : Shown seen t clock
  years : InYears clock.nowUtc
  begun : clock.transactionTimestamp = (d.begun t).getD 0

/-- What the calls come to that have run so far. -/
structure Linearizable (deps : Deps Ctx) (config : ApprovalPolicy) (w : TimedWorld Ctx) : Prop where
  order : ∃ order, Linearizes Returns (served deps config) [] w.history order
    ∧ serial (served deps config) [] order = w.shared.state.committed
    ∧ ∀ e ∈ order, Consistent w.shared.state w.shared.observations e.client e.stamp

section Invariant

variable (deps : Deps Ctx) (config : ApprovalPolicy) (d : Database)
  (seen : List (Observation SqlOp)) (order : List (Entry (ServiceCall Ctx) Clock)) (t : Nat)

/-- A call that is one of a storage function, with what its client has been promised. -/
structure Stage (call : ServiceCall Ctx) (storage : Call) (reply : Answer → Response)
    (promise : Option Answer) : Prop where
  fails : ∀ e, ∃ failure, (reply (.error e)).runtimeFailure = some failure
  alone : ∀ clock, Shown seen t clock → ∀ table, served deps config clock call table
    = (reply (storage.alone deps.timestamptz clock table).1,
      (storage.alone deps.timestamptz clock table).2)
  shown : ∃ clock, Shown seen t clock ∧ InYears clock.nowUtc
  fresh : promise = none → t ∉ order.map Entry.client
  promised : ∀ a, promise = some a → answerIn (served deps config) [] order t = some (reply a)

/-- Where a client is, and where its call is in the order. -/
inductive Placed : Status SqlRes (ServiceCall Ctx) Response → Prop
  | idle (hnew : t ∉ order.map Entry.client) (htx : d.transactions t = none)
      (hnone : ∀ now, ⟨t, .nowUtc, now⟩ ∉ seen) : Placed .idle
  /-- It asks for the time. -/
  | asking {call : ServiceCall Ctx} {k : StoreRes .now → Prog StoreRes Response}
      (hnew : t ∉ order.map Entry.client) (htx : d.transactions t = none)
      (hnone : ∀ now, ⟨t, .nowUtc, now⟩ ∉ seen) (hserve : serve deps config call = .call .now k)
      (hk : ∀ answer, Stores (k answer)) :
      Placed (.running call (.call .nowUtc fun now =>
        Prog.subst (PostgresStore deps.timestamptz true) (k (.ok now))))
  /-- It runs a storage function. -/
  | working {call : ServiceCall Ctx} {storage : Call} {reply : Answer → Response}
      {promise : Option Answer} {p : Prog SqlRes Answer} (hf : FailsFast p)
      (hrun : RunningOk deps.timestamptz d t storage promise p)
      (h : Stage deps config seen order t call storage reply promise) :
      Placed (.running call (p >>= fun a => .ret (reply a)))
  /-- The answer is clear whatever is in the table. -/
  | answered {call : ServiceCall Ctx} {r : Response} (hnew : t ∉ order.map Entry.client)
      (htx : d.transactions t = none)
      (hshown : ∃ clock, Shown seen t clock ∧ InYears clock.nowUtc)
      (hserve : ∀ clock, Shown seen t clock → ∀ table,
        served deps config clock call table = (r, table)) : Placed (.running call (.ret r))
  /-- Its transaction may be open still. -/
  | finished {call : ServiceCall Ctx} {storage : Call} {reply : Answer → Response}
      {promise : Option Answer} {r : Response}
      (hr : Returns r → promise.map reply = some r)
      (hold : Holding d t (Backed deps.timestamptz d t storage promise))
      (h : Stage deps config seen order t call storage reply promise) : Placed (.finished call r)
  | told {call : ServiceCall Ctx} {r : Response}
      (hr : answerIn (served deps config) [] order t = some r) (htx : d.transactions t = none) :
      Placed (.finished call r)

end Invariant

structure Ordered (deps : Deps Ctx) (config : ApprovalPolicy) (w : TimedWorld Ctx)
    (order : List (Entry (ServiceCall Ctx) Clock)) : Prop where
  db : DbInv w.shared.state
  linear : Linearizes Returns (served deps config) [] w.history order
  table : serial (served deps config) [] order = w.shared.state.committed
  stamps : ∀ e ∈ order, Consistent w.shared.state w.shared.observations e.client e.stamp
  clients : ∀ t, Placed deps config w.shared.state w.shared.observations order t (w.clients t)

/-! ## What a step leaves as it is -/

theorem Keeps.refl (t : Nat) (d : Database) : Keeps t d d :=
  ⟨rfl, rfl, fun _ _ _ => rfl, fun _ _ _ hfree => hfree, .refl _⟩

/-- A client has been told no other time. -/
def Heard (u : Nat) (seen seen' : List (Observation SqlOp)) : Prop :=
  ∀ now, ⟨u, .nowUtc, now⟩ ∈ seen' ↔ ⟨u, .nowUtc, now⟩ ∈ seen

section Steps

variable {seen seen' : List (Observation SqlOp)} {d d' : Database}
  {order : List (Entry (ServiceCall Ctx) Clock)} {t u : Nat}

theorem heard_cons_ne {r : Observation SqlOp} (h : u ≠ r.client) : Heard u seen (r :: seen) := by
  intro now
  refine ⟨fun hmem => ?_, List.mem_cons_of_mem _⟩
  rcases List.mem_cons.mp hmem with rfl | hmem
  · exact absurd rfl h
  · exact hmem

theorem heard_cons_op {r : Observation SqlOp} (h : r.op ≠ .nowUtc) : Heard u seen (r :: seen) := by
  intro now
  refine ⟨fun hmem => ?_, List.mem_cons_of_mem _⟩
  rcases List.mem_cons.mp hmem with rfl | hmem
  · exact absurd rfl h
  · exact hmem

theorem Heard.shown (h : Heard t seen seen') {clock : Clock} :
    Shown seen' t clock ↔ Shown seen t clock :=
  forall_congr' fun now => imp_congr_left (h now)

theorem Consistent.keeps {clock : Clock} (h : Consistent d seen t clock)
    (hheard : Heard t seen seen') (hbegun : d'.begun t = d.begun t) : Consistent d' seen' t clock :=
  ⟨hheard.shown.mpr h.now, h.years, by rw [hbegun]; exact h.begun⟩

namespace Stage

variable {call : ServiceCall Ctx} {storage : Call} {reply : Answer → Response}
  {promise : Option Answer}

theorem heard (h : Stage deps config seen order t call storage reply promise)
    (hheard : Heard t seen seen') : Stage deps config seen' order t call storage reply promise where
  fails := h.fails
  alone clock hclock := h.alone clock (hheard.shown.mp hclock)
  shown := h.shown.imp fun _ => And.imp_left hheard.shown.mpr
  fresh := h.fresh
  promised := h.promised

/-- A client that has been promised nothing ends with a failure in the runtime. -/
theorem returns (h : Stage deps config seen order t call storage reply promise) {a : Answer}
    (hends : EndsWith promise a) (hreturns : Returns (reply a)) : promise = some a := by
  rcases hends with ⟨name, source, rfl⟩ | hpromise
  · obtain ⟨failure, hfailure⟩ := h.fails (.database name source)
    cases hfailure.symm.trans hreturns
  · exact hpromise

end Stage

/-- Whether a client is in the order does not change when another one comes into it. -/
theorem not_mem_point {e : Entry (ServiceCall Ctx) Clock} (hu : u ≠ e.client)
    (hnew : u ∉ order.map Entry.client) : u ∉ (e :: order).map Entry.client := by
  intro hmem
  rcases List.mem_cons.mp hmem with heq | hmem
  · exact hu heq
  · exact hnew hmem

theorem answerIn_point {e : Entry (ServiceCall Ctx) Clock} (hu : u ≠ e.client) :
    answerIn (served deps config) [] (e :: order) u = answerIn (served deps config) [] order u :=
  if_neg (Ne.symm hu)

theorem Stage.point {call : ServiceCall Ctx} {storage : Call} {reply : Answer → Response}
    {promise : Option Answer} {e : Entry (ServiceCall Ctx) Clock} (hu : u ≠ e.client)
    (h : Stage deps config seen order u call storage reply promise) :
    Stage deps config seen (e :: order) u call storage reply promise where
  fails := h.fails
  alone := h.alone
  shown := h.shown
  fresh hp := not_mem_point hu (h.fresh hp)
  promised a ha := (answerIn_point hu).trans (h.promised a ha)

/-- A client stays where it is when another one takes a step. -/
theorem Placed.keeps (hk : Keeps u d d') (hd : DbInv d) (hheard : Heard u seen seen')
    {s : Status SqlRes (ServiceCall Ctx) Response} (h : Placed deps config d seen order u s) :
    Placed deps config d' seen' order u s := by
  cases h with
  | idle hnew htx hnone =>
      exact .idle hnew (hk.transaction.trans htx) fun now hmem => hnone now ((hheard now).mp hmem)
  | asking hnew htx hnone hserve hstores =>
      exact .asking hnew (hk.transaction.trans htx)
        (fun now hmem => hnone now ((hheard now).mp hmem)) hserve hstores
  | working hf hrun h => exact .working hf (hrun.keeps hk hd) (h.heard hheard)
  | answered hnew htx hshown hserve =>
      exact .answered hnew (hk.transaction.trans htx)
        (hshown.imp fun _ => And.imp_left hheard.shown.mpr)
        fun clock hclock => hserve clock (hheard.shown.mp hclock)
  | finished hr hold h =>
      exact .finished hr (hold.keeps hk fun _ htx h => h.keeps hk htx) (h.heard hheard)
  | told hr htx => exact .told hr (hk.transaction.trans htx)

/-- It stays there too when another one's call takes effect. -/
theorem Placed.point {e : Entry (ServiceCall Ctx) Clock} (hu : u ≠ e.client)
    {s : Status SqlRes (ServiceCall Ctx) Response} (h : Placed deps config d seen order u s) :
    Placed deps config d seen (e :: order) u s := by
  cases h with
  | idle hnew htx hnone => exact .idle (not_mem_point hu hnew) htx hnone
  | asking hnew htx hnone hserve hstores =>
      exact .asking (not_mem_point hu hnew) htx hnone hserve hstores
  | working hf hrun h => exact .working hf hrun (h.point hu)
  | answered hnew htx hshown hserve =>
      exact .answered (not_mem_point hu hnew) htx hshown hserve
  | finished hr hold h => exact .finished hr hold (h.point hu)
  | told hr htx => exact .told ((answerIn_point hu).trans hr) htx

end Steps

/-! ## The steps -/

namespace Ordered

variable {w : TimedWorld Ctx} {order : List (Entry (ServiceCall Ctx) Clock)} {t : Nat}
  {call : ServiceCall Ctx} {c : Timed SqlOp Database}
  {status : Status SqlRes (ServiceCall Ctx) Response}

/-- A step after which no call has taken effect. -/
theorem quiet (h : Ordered deps config w order) (hd : DbInv c.state)
    (hheard : ∀ u, u ≠ t → Heard u w.shared.observations c.observations)
    (hk : ∀ u, u ≠ t → Keeps u w.shared.state c.state)
    (hc : c.state.committed = w.shared.state.committed)
    (hself : ∀ e ∈ order, e.client = t → Consistent c.state c.observations t e.stamp)
    (hstatus : Placed deps config c.state c.observations order t status) :
    Ordered deps config ⟨c, Function.update w.clients t status, w.history⟩ order where
  db := hd
  linear := h.linear
  table := h.table.trans hc.symm
  stamps e he := by
    -- another client has seen what it had seen before
    by_cases hclient : e.client = t
    · rw [hclient]
      exact hself e he hclient
    · exact (h.stamps e he).keeps (hheard _ hclient) (hk _ hclient).begun
  clients := (Function.forall_update_iff w.clients _).mpr
    ⟨hstatus, fun u hu => (h.clients u).keeps (hk u hu) h.db (hheard u hu)⟩

/-- **A call takes effect**: it is the next one of the order. -/
theorem point (h : Ordered deps config w order) (hrec : w.Recorded) (hd : DbInv c.state)
    (hheard : ∀ u, u ≠ t → Heard u w.shared.observations c.observations)
    (hk : ∀ u, u ≠ t → Keeps u w.shared.state c.state) (hcall : (w.clients t).call = some call)
    (hnew : t ∉ order.map Entry.client) {stamp : Clock}
    (hstamp : Consistent c.state c.observations t stamp)
    (hc : (served deps config stamp call w.shared.state.committed).2 = c.state.committed)
    (hstatus : Placed deps config c.state c.observations (⟨t, stamp, call⟩ :: order) t status) :
    Ordered deps config ⟨c, Function.update w.clients t status, w.history⟩
      (⟨t, stamp, call⟩ :: order) where
  db := hd
  linear := h.linear.point stamp hnew ((hrec.invoked t call).mpr hcall)
  table := by
    rw [serial_cons, h.table]
    exact hc
  stamps e he := by
    -- the call that has come to its point, and those before it
    rcases List.mem_cons.mp he with rfl | he
    · exact hstamp
    · have hclient : e.client ≠ t := fun heq => hnew (heq ▸ List.mem_map_of_mem he)
      exact (h.stamps e he).keeps (hheard _ hclient) (hk _ hclient).begun
  clients := (Function.forall_update_iff w.clients _).mpr
    ⟨hstatus, fun u hu => ((h.clients u).keeps (hk u hu) h.db (hheard u hu)).point hu⟩

/-- The answer of the newest call of the order. -/
theorem answerIn_self (h : Ordered deps config w order) {stamp : Clock} :
    answerIn (served deps config) [] (⟨t, stamp, call⟩ :: order) t
      = some (served deps config stamp call w.shared.state.committed).1 := by
  rw [answerIn_cons, if_pos rfl, h.table]

/-- A step of a storage function, or on its behalf. -/
theorem advance (h : Ordered deps config w order) (hrec : w.Recorded) {storage : Call}
    {reply : Answer → Response} {promise promise' : Option Answer}
    (hcall : (w.clients t).call = some call)
    (hstage : Stage deps config w.shared.observations order t call storage reply promise)
    (hheard : ∀ u, Heard u w.shared.observations c.observations)
    (hp : Progress deps.timestamptz storage w.shared.state c.state t promise promise')
    (hstatus : ∀ order', Stage deps config c.observations order' t call storage reply promise' →
      Placed deps config c.state c.observations order' t status) :
    ∃ order', Ordered deps config ⟨c, Function.update w.clients t status, w.history⟩ order' := by
  have hd := hp.change.dbInv h.db
  have hk : ∀ u, u ≠ t → Keeps u w.shared.state c.state := fun u hu => hp.change.keeps h.db hu
  have hstage' := hstage.heard (hheard t)
  have heffect := hp.effect
  cases heffect with
  | quiet hc =>
      refine ⟨order, h.quiet hd (fun u _ => hheard u) hk hc (fun e he hclient => ?_)
        (hstatus order hstage')⟩
      -- a client that is in the order keeps the clock it began with
      have hbegun := hp.begun.resolve_left fun hnone =>
        hstage.fresh hnone (hclient ▸ List.mem_map_of_mem he)
      subst hclient
      exact (h.stamps e he).keeps (hheard _) hbegun
  | @point a now hb ha =>
      obtain ⟨clock, hclock, hyears⟩ := hstage'.shown
      have hstamp : Consistent c.state c.observations t
          ⟨clock.nowUtc, (c.state.begun t).getD 0⟩ := ⟨hclock, hyears, rfl⟩
      have hserve : served deps config ⟨clock.nowUtc, (c.state.begun t).getD 0⟩ call
          w.shared.state.committed = (reply a, c.state.committed) := by
        rw [hstage'.alone _ hstamp.now, Call.alone_congr deps.timestamptz h.db.sound _ ⟨0, now⟩
          storage fun hw => ?_, ha]
        exact congrArg (Option.getD · 0) (hb hw)
      refine ⟨_, h.point hrec hd (fun u _ => hheard u) hk hcall (hstage.fresh rfl) hstamp
        (congrArg Prod.snd hserve) (hstatus _ ⟨hstage.fails, hstage'.alone, hstage'.shown,
          fun hnone => (by cases hnone), fun b hb => ?_⟩)⟩
      cases hb
      rw [h.answerIn_self, hserve]

/-- A call that is made. -/
theorem invoke (h : Ordered deps config w order) (call : ServiceCall Ctx)
    (hidle : w.clients t = .idle) : Ordered deps config ⟨w.shared,
      Function.update w.clients t (.running call (body deps config call)),
      .invoked t call :: w.history⟩ order := by
  have hplaced := h.clients t
  rw [hidle] at hplaced
  cases hplaced with
  | idle hnew htx hnone =>
      -- no clock has been read yet, so any reading will do
      have hshown : ∃ clock, Shown w.shared.observations t clock ∧ InYears clock.nowUtc :=
        ⟨⟨0, 0⟩, fun now hmem => absurd hmem (hnone now), by decide, by decide⟩
      refine ⟨h.db, h.linear.invoke call hnew, h.table, h.stamps,
        (Function.forall_update_iff w.clients _).mpr ⟨?_, fun u _ => h.clients u⟩⟩
      -- a call of the storage at once, or a request, which asks for the time first
      rcases serve_stores deps config call with hstores | ⟨k, hk, hstores⟩
      · rcases hstores.replies deps.timestamptz with ⟨r, hr⟩ | ⟨storage, reply, hreplies⟩
        · rw [show body deps config call = .ret r by rw [body, hr]; rfl]
          refine .answered hnew htx hshown fun clock _ table => ?_
          rw [served, Backend.serve, hr]
          rfl
        · rw [show body deps config call = _ from hreplies.program]
          exact .working (storage.failsFast deps.timestamptz) (.begin deps.timestamptz storage htx)
            ⟨hreplies.fails, fun clock _ table => hreplies.alone clock table, hshown, fun _ => hnew,
              fun a ha => (by cases ha)⟩
      · rw [show body deps config call = _ from congrArg (Prog.subst _) hk]
        exact .asking hnew htx hnone hk hstores

/-- A client is told the time, and knows what it has to do. -/
theorem tell (h : Ordered deps config w order) {k : StoreRes .now → Prog StoreRes Response}
    (hnew : t ∉ order.map Entry.client) (htx : w.shared.state.transactions t = none)
    (hnone : ∀ now, ⟨t, .nowUtc, now⟩ ∉ w.shared.observations) (hyears : InYears w.shared.clock)
    (hserve : serve deps config call = .call .now k) (hstores : ∀ answer, Stores (k answer)) :
    Ordered deps config ⟨w.shared.answered t .nowUtc w.shared.state, Function.update w.clients t
      (.running call (Prog.subst (PostgresStore deps.timestamptz true) (k (.ok w.shared.clock)))),
      w.history⟩ order := by
  have hshown : ∀ clock, Shown (w.shared.answered t .nowUtc w.shared.state).observations t clock →
      clock.nowUtc = w.shared.clock := fun clock hclock => hclock _ List.mem_cons_self
  have hexists : ∃ clock, Shown (w.shared.answered t .nowUtc w.shared.state).observations t clock
      ∧ InYears clock.nowUtc := by
    refine ⟨⟨w.shared.clock, 0⟩, fun now hmem => ?_, hyears⟩
    rcases List.mem_cons.mp hmem with heq | hmem
    · cases heq
      rfl
    · exact absurd hmem (hnone now)
  -- the service goes on with the time that its clock shows
  have hrun : ∀ clock, Shown (w.shared.answered t .nowUtc w.shared.state).observations t clock →
      ∀ table, served deps config clock call table
        = Prog.run (alone deps.timestamptz clock) (k (.ok w.shared.clock)) table := by
    intro clock hclock table
    rw [← hshown clock hclock, served, Backend.serve, hserve]
    rfl
  refine h.quiet h.db (fun u hu => heard_cons_ne hu) (fun u _ => .refl u _) rfl
    (fun e he hclient => ?_) ?_
  · exact absurd (hclient ▸ List.mem_map_of_mem he) hnew
  · rcases (hstores (.ok w.shared.clock)).replies deps.timestamptz with ⟨r, hr⟩ | ⟨storage, reply,
      hreplies⟩
    · rw [hr]
      refine .answered hnew htx hexists fun clock hclock table => ?_
      rw [hrun clock hclock, hr]
      rfl
    · rw [hreplies.program]
      refine .working (storage.failsFast deps.timestamptz) (.begin deps.timestamptz storage htx)
        ⟨hreplies.fails, fun clock hclock table => ?_, hexists, fun _ => hnew,
          fun a ha => (by cases ha)⟩
      rw [hrun clock hclock]
      exact hreplies.alone clock table

end Ordered

/-- No storage function asks for the time. -/
theorem RunningOk.op_ne {timestamptz : Int → Int} {d : Database} {t : Nat} {storage : Call}
    {promise : Option Answer} {o : SqlOp} {k : SqlRes o → Prog SqlRes Answer}
    (h : RunningOk timestamptz d t storage promise (.call o k)) : o ≠ .nowUtc := by
  rintro rfl
  cases h with
  | transition hT h => cases h
  | creation h => cases h
  | inspection h => cases h

namespace Ordered

variable {w : TimedWorld Ctx} {order : List (Entry (ServiceCall Ctx) Clock)} {t : Nat}
  {call : ServiceCall Ctx}

/-- A client is answered. -/
theorem answer (h : Ordered deps config w order) (hrec : w.Recorded) {o : SqlOp}
    {k : SqlRes o → Prog SqlRes Response} (hrunning : w.clients t = .running call (.call o k))
    {r : SqlRes o} {d : Database} (hs : machine.answers t o w.shared.state r d)
    (hshows : shows t w.shared.clock o r d) : ∃ order', Ordered deps config
      ⟨w.shared.answered t o d, Function.update w.clients t (.running call (k r)), w.history⟩
      order' := by
  have hcall : (w.clients t).call = some call := by rw [hrunning]; rfl
  have hplaced := h.clients t
  rw [hrunning] at hplaced
  generalize hrest : Prog.call o k = rest at hplaced
  cases hplaced with
  | asking hnew htx hnone hserve hstores =>
      cases hrest
      obtain rfl := nowUtc_silent hs
      obtain ⟨rfl, hyears⟩ := hshows
      exact ⟨order, h.tell hnew htx hnone hyears hserve hstores⟩
  | answered => cases hrest
  | @working _ storage reply promise p hf hrun hstage =>
      cases p with
      | ret a => cases hrest
      | call o' k' =>
          cases hrest
          have hheard : ∀ u, Heard u w.shared.observations (w.shared.answered t o d).observations :=
            fun u => heard_cons_op hrun.op_ne
          rcases hs with hs | ⟨fault, clock, rfl, rfl⟩
          · obtain ⟨promise', hp, hrun'⟩ := hrun.serve h.db hs
            exact h.advance hrec hcall hstage hheard hp fun order' hstage' =>
              .working (hf.2 r) hrun' hstage'
          · -- the statement has failed: the call gives up
            obtain ⟨hc, hl, hb⟩ := failed_committed (d := w.shared.state) (t := t) o
            exact h.advance hrec hcall hstage hheard
              (.quiet (failed_change o) hc hl (Or.inr (congrFun hb t))) fun order' hstage' =>
              .working (hf.2 _) (hrun.fail hf fault clock) hstage'

theorem work (h : Ordered deps config w order) (hrec : w.Recorded) {o : SqlOp}
    {k : SqlRes o → Prog SqlRes Response} (hrunning : w.clients t = .running call (.call o k))
    {d : Database} (hs : Works t w.shared.state o d) :
    ∃ order', Ordered deps config ⟨w.shared.withState d, w.clients, w.history⟩ order' := by
  have hcall : (w.clients t).call = some call := by rw [hrunning]; rfl
  have hplaced := h.clients t
  rw [hrunning] at hplaced
  rw [← Function.update_eq_self t w.clients]
  generalize hrest : Prog.call o k = rest at hplaced
  cases hplaced with
  | asking hnew htx hnone hserve hstores =>
      -- a server has no work to do while a clock is read
      cases hrest
      cases hs
  | answered => cases hrest
  | @working _ storage reply promise p hf hrun hstage =>
      cases p with
      | ret a => cases hrest
      | call o' k' =>
          cases hrest
          -- the storage function gets on, and may come to its point
          obtain ⟨promise', hp, hrun'⟩ := hrun.work h.db hs
          refine h.advance hrec hcall hstage (fun _ _ => Iff.rfl) hp fun order' hstage' => ?_
          rw [hrunning]
          exact .working hf hrun' hstage'

/-- The transaction of a client that does not go on with it is rolled back. -/
theorem rollback (h : Ordered deps config w order) (hrec : w.Recorded) {tx : OpenTransaction}
    (htx : w.shared.state.transactions t = some tx) : ∃ order', Ordered deps config
      ⟨w.shared.withState (w.shared.state.setTransaction t none), w.clients, w.history⟩ order' := by
  have hplaced := h.clients t
  generalize hstatus : w.clients t = status at hplaced
  rw [← Function.update_eq_self t w.clients]
  have hp : ∀ storage promise, Progress deps.timestamptz storage w.shared.state
      (w.shared.state.setTransaction t none) t promise promise :=
    fun storage promise => .quiet .ends rfl rfl (Or.inr rfl)
  cases hplaced with
  -- a transaction belongs to a call at work or to one that has returned
  | idle _ hnone | asking _ hnone | answered _ hnone | told _ hnone => cases hnone.symm.trans htx
  | @working call storage reply promise p hf hrun hstage =>
      have hcall : (w.clients t).call = some call := by rw [hstatus]; rfl
      refine h.advance hrec hcall hstage (fun _ _ => Iff.rfl) (hp _ _) fun order' hstage' => ?_
      rw [hstatus]
      exact .working hf hrun.rollback hstage'
  | @finished call storage reply promise r hr hold hstage =>
      have hcall : (w.clients t).call = some call := by rw [hstatus]; rfl
      refine h.advance hrec hcall hstage (fun _ _ => Iff.rfl) (hp _ _) fun order' hstage' => ?_
      rw [hstatus]
      exact .finished hr (holding_none (Database.setTransaction_self ..)) hstage'

/-- A commit lands whose client has been told of a failure. -/
theorem land (h : Ordered deps config w order) (hrec : w.Recorded) {tx : OpenTransaction}
    (htx : w.shared.state.transactions t = some tx) (hs : tx.submitted = true) :
    ∃ order', Ordered deps config
      ⟨w.shared.withState (w.shared.state.publish t tx), w.clients, w.history⟩ order' := by
  have hplaced := h.clients t
  generalize hstatus : w.clients t = status at hplaced
  rw [← Function.update_eq_self t w.clients]
  have hgone : ∀ P, Holding (w.shared.state.publish t tx) t P :=
    fun P => holding_none (Database.publish_self ..)
  cases hplaced with
  | idle _ hnone | asking _ hnone | answered _ hnone | told _ hnone => cases hnone.symm.trans htx
  | @working call storage reply promise p hf hrun hstage =>
      have hcall : (w.clients t).call = some call := by rw [hstatus]; rfl
      -- what has been submitted lands after the storage function has ended
      obtain ⟨a, rfl, hends⟩ := hrun.ended_of_submitted htx hs
      obtain ⟨promise', hp, hmono⟩ := (hrun.of_ret.2 tx htx).publish h.db htx
      refine h.advance hrec hcall hstage (fun _ _ => Iff.rfl) hp fun order' hstage' => ?_
      rw [hstatus]
      exact .working hf (.ended (hends.imp id (hmono a)) (hgone _)) hstage'
  | @finished call storage reply promise r hr hold hstage =>
      have hcall : (w.clients t).call = some call := by rw [hstatus]; rfl
      obtain ⟨promise', hp, hmono⟩ := (hold tx htx).publish h.db htx
      refine h.advance hrec hcall hstage (fun _ _ => Iff.rfl) hp fun order' hstage' => ?_
      rw [hstatus]
      -- the answer it has given is the one it was to give
      refine .finished (fun hreturns => ?_) (hgone _) hstage'
      obtain ⟨a, hpromise, heq⟩ := Option.map_eq_some_iff.mp (hr hreturns)
      rw [hmono a hpromise, ← heq]
      rfl

/-- A client returns; a call whose answer was clear takes effect now. -/
theorem respond (h : Ordered deps config w order) (hrec : w.Recorded) {r : Response}
    (hrunning : w.clients t = .running call (.ret r)) : ∃ order', Ordered deps config ⟨w.shared,
      Function.update w.clients t (.finished call r), .responded t call r :: w.history⟩ order' := by
  have hcall : (w.clients t).call = some call := by rw [hrunning]; rfl
  -- the client is told what the order says, wherever it is in it
  have hrespond : ∀ {order'}, Ordered deps config w order' →
      (Returns r → answerIn (served deps config) [] order' t = some r) →
      Placed deps config w.shared.state w.shared.observations order' t (.finished call r) →
      Ordered deps config ⟨w.shared, Function.update w.clients t (.finished call r),
        .responded t call r :: w.history⟩ order' := fun h' hanswer hfinished =>
    ⟨h'.db, h'.linear.respond call hanswer, h'.table, h'.stamps,
      (Function.forall_update_iff w.clients _).mpr ⟨hfinished, fun u _ => h'.clients u⟩⟩
  have hplaced := h.clients t
  rw [hrunning] at hplaced
  generalize hrest : Prog.ret r = rest at hplaced
  cases hplaced with
  | asking => cases hrest
  | @working _ storage reply promise p hf hrun hstage =>
      cases p with
      | call o k => cases hrest
      | ret a =>
          cases hrest
          obtain ⟨hends, hold⟩ := hrun.of_ret
          refine ⟨order, hrespond h (fun hreturns => ?_)
            (.finished (fun hreturns => ?_) hold hstage)⟩
          · exact hstage.promised a (hstage.returns hends hreturns)
          · rw [hstage.returns hends hreturns]
            rfl
  | @answered _ r' hnew htx hshown hserve =>
      cases hrest
      obtain ⟨clock, hclock, hyears⟩ := hshown
      have hstamp : Consistent w.shared.state w.shared.observations t
          ⟨clock.nowUtc, (w.shared.state.begun t).getD 0⟩ := ⟨hclock, hyears, rfl⟩
      have halone := hserve _ hstamp.now w.shared.state.committed
      have hanswer : answerIn (served deps config) [] (⟨t, _, call⟩ :: order) t = some r :=
        h.answerIn_self.trans (congrArg (fun result => some result.1) halone)
      have hfinished : Placed deps config w.shared.state w.shared.observations
          (⟨t, _, call⟩ :: order) t (.finished call r) := .told hanswer htx
      have hpoint := h.point hrec h.db (fun _ _ _ => Iff.rfl) (fun u _ => .refl u _) hcall hnew
        hstamp (congrArg Prod.snd halone) hfinished
      exact ⟨_, hpoint.db, hpoint.linear.respond call fun _ => hanswer, hpoint.table, hpoint.stamps,
        hpoint.clients⟩

end Ordered

/-- **Every step keeps the calls in order**, with one more at its end or as it was. -/
theorem ordered_step {w w' : TimedWorld Ctx} {order : List (Entry (ServiceCall Ctx) Clock)}
    (hrec : w.Recorded) (h : Ordered deps config w order)
    (hstep : Step (machine.timed shows) (body deps config) w w') :
    ∃ order', Ordered deps config w' order' := by
  cases hstep with
  | invoke t call hidle => exact ⟨order, h.invoke call hidle⟩
  | answer hrunning hs =>
      obtain ⟨d, hs, hshows, rfl⟩ := hs
      exact h.answer hrec hrunning hs hshows
  | work hrunning hs =>
      obtain ⟨d, hs, rfl⟩ := hs
      exact h.work hrec hrunning hs
  | move hs =>
      cases hs with
      -- the clock alone goes on
      | tick hclock => exact ⟨order, h.db, h.linear, h.table, h.stamps, h.clients⟩
      | move hs =>
          cases hs with
          | rollback htx => exact h.rollback hrec htx
          | land htx hs => exact h.land hrec htx hs
  | respond hrunning => exact h.respond hrec hrunning

theorem TimedRunning.inOrder {w : TimedWorld Ctx} (hw : TimedRunning deps config w) :
    ∃ order, Ordered deps config w order := by
  obtain ⟨clock, hw⟩ := hw
  induction hw with
  | initial =>
      exact ⟨[], dbInv_empty, .initial, rfl, fun e he => (by cases he),
        fun t => .idle List.not_mem_nil rfl fun now => List.not_mem_nil⟩
  | step hw hstep ih =>
      obtain ⟨order, h⟩ := ih
      exact ordered_step (Reachable.recorded hw) h hstep

/-- **Service calls over PostgreSQL are linearizable**, reads and refusals included, in the
years 0 to 9999. -/
theorem service_calls_linearizable (deps : Deps Ctx) (config : ApprovalPolicy)
    (w : TimedWorld Ctx) (hw : TimedRunning deps config w) : Linearizable deps config w := by
  obtain ⟨order, h⟩ := hw.inOrder
  exact ⟨order, h.linear, h.table, h.stamps⟩

theorem service_calls_linearizable_late : ∃ w,
    Predated ((backend Standard.deps).find w.shared.state.committed "apr_expense")
      ∧ TimedRunning Standard.deps Standard.policy w
      ∧ Linearizable Standard.deps Standard.policy w := by
  obtain ⟨w, hw, hpredated⟩ := predated
  exact ⟨w, hpredated, hw, service_calls_linearizable Standard.deps Standard.policy w hw⟩

end BusinessApproval.Postgres
