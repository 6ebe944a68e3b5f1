import BusinessApproval.Lib.Linearize
import BusinessApproval.Proof.Serial

/-!
# D1 calls in one order

A call over D1 takes effect in one moment: when its batch is carried out, whether or not
the answer arrives, when its read is answered, or when it returns without having asked the
database. So the calls of all clients, reads and refusals among them, are service calls
made one after another in some order, which keeps to real time and gives every call that
did not fail in the runtime the answer it has had. The table is what that order leaves.
-/

namespace BusinessApproval.D1

open Concurrent

variable {Ctx : Type} {deps : Deps Ctx} {config : ApprovalPolicy}

/-- One service call alone, as a step of the order. -/
def serially (deps : Deps Ctx) (config : ApprovalPolicy) (clock : Clock) (call : ServiceCall Ctx)
    (table : Table) : Response × Table := (backend deps).serve deps config clock call table

/-- The calls that did not fail in the runtime. -/
def Completes (r : Response) : Prop := r.runtimeFailure = none

/-- What the calls come to that have run so far. -/
structure Linearizable (deps : Deps Ctx) (config : ApprovalPolicy) (w : World Ctx) : Prop where
  order : ∃ order, Linearizes Completes (serially deps config) [] w.history order
    ∧ serial (serially deps config) [] order = w.shared.table
    ∧ ∀ e ∈ order, Consistent w.shared e.client e.stamp

/-! ## The invariant -/

section Invariant

variable (deps : Deps Ctx) (config : ApprovalPolicy) (d : Database)
  (order : List (Entry (ServiceCall Ctx) Clock))

/-- Where a client's call is in the order, if it is there yet. -/
inductive Placed (t : Nat) : Status D1Res (ServiceCall Ctx) Response → Prop
  | idle (hnew : t ∉ order.map Entry.client) : Placed t .idle
  /-- The call has still to take effect, and goes on as the whole call does. -/
  | running {call : ServiceCall Ctx} {rest : Prog D1Res Response}
      (hnew : t ∉ order.map Entry.client)
      (hrun : ∀ clock, Consistent d t clock → ∀ table,
        Prog.run (perform clock) rest table = serially deps config clock call table) :
      Placed t (.running call rest)
  | placed {call : ServiceCall Ctx} {r : Response}
      (h : Completes r → answerIn (serially deps config) [] order t = some r) :
      Placed t (.running call (.ret r))
  | finished {call : ServiceCall Ctx} {r : Response}
      (h : Completes r → answerIn (serially deps config) [] order t = some r) :
      Placed t (.finished call r)

structure Ordered (w : World Ctx) : Prop where
  linear : Linearizes Completes (serially deps config) [] w.history order
  table : serial (serially deps config) [] order = w.shared.table
  stamps : ∀ e ∈ order, Consistent w.shared e.client e.stamp
  clients : ∀ t, Placed deps config w.shared order t (w.clients t)

end Invariant

section Steps

variable {d d' : Database} {order : List (Entry (ServiceCall Ctx) Clock)} {t u : Nat}
  {w : World Ctx} {call : ServiceCall Ctx}

theorem ordered_initial (deps : Deps Ctx) (config : ApprovalPolicy) :
    Ordered deps config [] (.initial Database.empty) where
  linear := .initial
  table := rfl
  stamps e he := by cases he
  clients _ := .idle List.not_mem_nil

/-- A client that has an operation to come is not in the order yet. -/
theorem Placed.of_call {o : D1Op} {k : D1Res o → Prog D1Res Response}
    (h : Placed deps config d order t (.running call (.call o k))) :
    t ∉ order.map Entry.client := by
  cases h with
  | running hnew hrun => exact hnew

/-- A client stays where it is when another one takes a step. -/
theorem Placed.beside (h : Beside t d d') (hu : u ≠ t)
    {s : Status D1Res (ServiceCall Ctx) Response} (hp : Placed deps config d order u s) :
    Placed deps config d' order u s := by
  cases hp with
  | idle hnew => exact .idle hnew
  | running hnew hrun =>
      exact .running hnew fun clock hc => hrun clock ((h.consistent hu clock).mp hc)
  | placed h => exact .placed h
  | finished h => exact .finished h

/-- It stays there too when another one's call takes effect. -/
theorem Placed.point {clock : Clock} (hu : u ≠ t) {s : Status D1Res (ServiceCall Ctx) Response}
    (hp : Placed deps config d order u s) :
    Placed deps config d (⟨t, clock, call⟩ :: order) u s := by
  -- the call that has come to its place is another client's
  have hnew : u ∉ order.map Entry.client →
      u ∉ (Entry.mk t clock call :: order).map Entry.client := by
    intro h hmem
    rcases List.mem_cons.mp hmem with heq | hmem
    · exact hu heq
    · exact h hmem
  have hanswer : answerIn (serially deps config) [] (⟨t, clock, call⟩ :: order) u
      = answerIn (serially deps config) [] order u := if_neg (Ne.symm hu)
  cases hp with
  | idle h => exact .idle (hnew h)
  | running h hrun => exact .running (hnew h) hrun
  | placed h => exact .placed fun hc => hanswer.trans (h hc)
  | finished h => exact .finished fun hc => hanswer.trans (h hc)

/-- A client reads a clock. -/
theorem Ordered.quiet (h : Ordered deps config order w) (hbeside : Beside t w.shared d')
    (htable : d'.table = w.shared.table) (hnew : t ∉ order.map Entry.client)
    {status : Status D1Res (ServiceCall Ctx) Response}
    (hstatus : Placed deps config d' order t status) :
    Ordered deps config order ⟨d', Function.update w.clients t status, w.history⟩ where
  linear := h.linear
  table := h.table.trans htable.symm
  stamps e he := by
    have hne : e.client ≠ t := fun heq => hnew (heq ▸ List.mem_map_of_mem he)
    exact (hbeside.consistent hne _).mpr (h.stamps e he)
  clients := (Function.forall_update_iff w.clients _).mpr
    ⟨hstatus, fun u hu => (h.clients u).beside hbeside hu⟩

/-- **A call takes effect**: it is the next one of the order. -/
theorem Ordered.point (h : Ordered deps config order w) (hrec : w.Recorded)
    (hbeside : Beside t w.shared d') (hcall : (w.clients t).call = some call)
    (hnew : t ∉ order.map Entry.client) {clock : Clock} (hclock : Consistent d' t clock)
    (htable : (serially deps config clock call w.shared.table).2 = d'.table)
    {status : Status D1Res (ServiceCall Ctx) Response}
    (hstatus : Placed deps config d' (⟨t, clock, call⟩ :: order) t status) :
    Ordered deps config (⟨t, clock, call⟩ :: order)
      ⟨d', Function.update w.clients t status, w.history⟩ where
  linear := h.linear.point clock hnew ((hrec.invoked t call).mpr hcall)
  table := by
    rw [serial_cons, h.table]
    exact htable
  stamps e he := by
    -- that call, or an older one
    rcases List.mem_cons.mp he with rfl | he
    · exact hclock
    · have hne : e.client ≠ t := fun heq => hnew (heq ▸ List.mem_map_of_mem he)
      exact (hbeside.consistent hne _).mpr (h.stamps e he)
  clients := (Function.forall_update_iff w.clients _).mpr
    ⟨hstatus, fun u hu => ((h.clients u).beside hbeside hu).point hu⟩

/-- The answer of the newest call of an order. -/
theorem answerIn_self {clock : Clock} :
    answerIn (serially deps config) [] (⟨t, clock, call⟩ :: order) t
      = some (serially deps config clock call (serial (serially deps config) [] order)).1 :=
  if_pos rfl

/-- A client is answered. -/
theorem Ordered.answer (h : Ordered deps config order w) (hinv : Inv deps config w)
    (hrec : w.Recorded) {o : D1Op} {k : D1Res o → Prog D1Res Response}
    (hrunning : w.clients t = .running call (.call o k)) {r : D1Res o}
    (hs : Serves t w.shared o r d') : ∃ order', Ordered deps config order'
      ⟨d', Function.update w.clients t (.running call (k r)), w.history⟩ := by
  have hok := hinv.clients t
  have hplaced := h.clients t
  rw [hrunning] at hok hplaced
  have hnew := hplaced.of_call
  obtain ⟨hsimple, -, hrun⟩ := hok.of_call
  obtain ⟨clock, hclock⟩ := exists_consistent (hinv.years t)
  have hbeside := Serves.beside hs
  have hcall : (w.clients t).call = some call := by rw [hrunning]; rfl
  -- an answer that is a failure in the runtime need not be in the order
  have hfailed : ∀ {status r failure}, status = Prog.ret r → r.runtimeFailure = some failure →
      ∀ d order, Placed deps config d order t (.running call status) := by
    rintro status r failure rfl hfailure d order
    refine .placed fun hc => ?_
    cases hfailure.symm.trans hc
  generalize hdate : (w.shared.dates t).isSome = date at hsimple
  generalize hnow : (w.shared.nows t).isSome = now at hsimple
  cases hs with
  | newDate ms hms =>
      cases hsimple with
      | newDate _ =>
          have hno : w.shared.dates t = none := by simpa using hdate
          refine ⟨order, h.quiet hbeside rfl hnew (.running hnew fun clock hc table => ?_)⟩
          obtain ⟨hc', rfl⟩ := hc.of_readDate hno
          exact hrun clock hc' table
  | dateNow ms hms =>
      cases hsimple with
      | dateNow _ =>
          have hno : w.shared.nows t = none := by simpa using hnow
          refine ⟨order, h.quiet hbeside rfl hnew (.running hnew fun clock hc table => ?_)⟩
          obtain ⟨hc', rfl⟩ := hc.of_readNow hno
          exact hrun clock hc' table
  | @batch write condition reply table hbatch =>
      cases hsimple with
      | batch hinformed hret hfails =>
          subst hdate hnow
          obtain ⟨response, hresponse, hserve, hcarried⟩ :=
            batch_carried hclock hinformed hret (hrun clock hclock w.shared.table) hbatch
          refine ⟨_, h.point hrec hbeside hcall hnew hcarried.consistent
            (congrArg Prod.snd hserve) ?_⟩
          rw [hresponse]
          refine .placed fun _ => answerIn_self.trans ?_
          rw [h.table]
          exact congrArg (fun result => some result.1) hserve
  | aborted write condition message =>
      cases hsimple with
      | batch hinformed hret hfails =>
          obtain ⟨response, failure, hresponse, hfailure⟩ := hfails message
          exact ⟨order, h.quiet hbeside rfl hnew (hfailed hresponse hfailure _ _)⟩
  | @lost write condition reply table message hbatch =>
      cases hsimple with
      | batch hinformed hret hfails =>
          subst hdate hnow
          -- the call has had its effect, whatever its client is told
          obtain ⟨response, failure, hresponse, hfailure⟩ := hfails message
          obtain ⟨_, -, hserve, hcarried⟩ :=
            batch_carried hclock hinformed hret (hrun clock hclock w.shared.table) hbatch
          exact ⟨_, h.point hrec hbeside hcall hnew hcarried.consistent
            (congrArg Prod.snd hserve) (hfailed hresponse hfailure _ _)⟩
  | first condition =>
      cases hsimple with
      | first hread hret hfails =>
          obtain ⟨response, hresponse⟩ := hret
            (.ok (((w.shared.table.filter condition).head?.map D1Row.toJson).getD .null))
          have hserve := hrun clock hclock w.shared.table
          rw [Prog.run_call] at hserve
          simp only [perform, hresponse, Prog.run_ret] at hserve
          refine ⟨_, h.point hrec hbeside hcall hnew hclock (congrArg Prod.snd hserve.symm) ?_⟩
          rw [hresponse]
          refine .placed fun _ => answerIn_self.trans ?_
          rw [h.table]
          exact congrArg (fun result => some result.1) hserve.symm
  | firstFailed condition message =>
      cases hsimple with
      | first hread hret hfails =>
          obtain ⟨response, failure, hresponse, hfailure⟩ := hfails message
          exact ⟨order, h.quiet hbeside rfl hnew (hfailed hresponse hfailure _ _)⟩

/-- A client returns; a call that has not asked the database takes effect now. -/
theorem Ordered.respond (h : Ordered deps config order w) (hinv : Inv deps config w)
    (hrec : w.Recorded) {r : Response} (hrunning : w.clients t = .running call (.ret r)) :
    ∃ order', Ordered deps config order' ⟨w.shared,
      Function.update w.clients t (.finished call r), .responded t call r :: w.history⟩ := by
  have hcall : (w.clients t).call = some call := by rw [hrunning]; rfl
  have hbeside : Beside t w.shared w.shared :=
    ⟨fun _ _ => rfl, fun _ _ => rfl, fun _ he => he, fun _ he => Or.inl he, fun _ h => h⟩
  -- the client is told what the order says, wherever it is in it
  have hrespond : ∀ {order'}, Ordered deps config order' w →
      (Completes r → answerIn (serially deps config) [] order' t = some r) →
      Ordered deps config order' ⟨w.shared, Function.update w.clients t (.finished call r),
        .responded t call r :: w.history⟩ := by
    intro order' h' hanswer
    exact ⟨h'.linear.respond call hanswer, h'.table, h'.stamps,
      (Function.forall_update_iff w.clients _).mpr
        ⟨.finished hanswer, fun u _ => h'.clients u⟩⟩
  have hplaced := h.clients t
  rw [hrunning] at hplaced
  cases hplaced with
  | placed hanswer => exact ⟨order, hrespond h hanswer⟩
  | running hnew hrun =>
      obtain ⟨clock, hclock⟩ := exists_consistent (hinv.years t)
      have hserve : serially deps config clock call w.shared.table = (r, w.shared.table) :=
        (hrun clock hclock w.shared.table).symm
      have hanswer : answerIn (serially deps config) [] (⟨t, clock, call⟩ :: order) t = some r := by
        rw [answerIn_self, h.table, hserve]
      have hpoint := h.point hrec hbeside hcall hnew hclock (congrArg Prod.snd hserve)
        (.placed fun _ => hanswer : Placed deps config w.shared _ t (.running call (.ret r)))
      rw [← hrunning, Function.update_eq_self] at hpoint
      exact ⟨_, hrespond hpoint fun _ => hanswer⟩

end Steps

/-- **Every step keeps the calls in order**, with one more at its end or as it was. -/
theorem ordered_step {w w' : World Ctx} {order : List (Entry (ServiceCall Ctx) Clock)}
    (hinv : Inv deps config w) (hrec : w.Recorded) (h : Ordered deps config order w)
    (hstep : Step machine (body deps config) w w') :
    ∃ order', Ordered deps config order' w' := by
  cases hstep with
  | invoke t call hidle =>
      have hplaced := h.clients t
      rw [hidle] at hplaced
      cases hplaced with
      | idle hnew =>
          exact ⟨order, h.linear.invoke call hnew, h.table, h.stamps,
            (Function.forall_update_iff w.clients _).mpr
              ⟨.running hnew fun clock _ table => Prog.run_subst _ _ _ _, fun u _ => h.clients u⟩⟩
  | answer hrunning hs => exact h.answer hinv hrec hrunning hs
  | work hrunning hs => exact hs.elim
  | move hs => exact hs.elim
  | respond hrunning => exact h.respond hinv hrec hrunning

theorem Running.inOrder (hlaw : deps.Lawful) {w : World Ctx} (hw : Running deps config w) :
    ∃ order, Ordered deps config order w := by
  induction hw with
  | initial => exact ⟨[], ordered_initial deps config⟩
  | step hw hstep ih =>
      obtain ⟨order, h⟩ := ih
      exact ordered_step (Running.inv hlaw.time hw) (Reachable.recorded hw) h hstep

/-- **Calls over D1 are linearizable**, reads and refusals included, whatever fails, in the
years 0 to 9999. -/
theorem calls_linearizable (deps : Deps Ctx) (hlaw : deps.Lawful) (config : ApprovalPolicy)
    (w : World Ctx) (hw : Running deps config w) : Linearizable deps config w := by
  obtain ⟨order, h⟩ := hw.inOrder hlaw
  exact ⟨order, h.linear, h.table, h.stamps⟩

theorem calls_linearizable_lost_reply : ∃ w,
    w.clients 1 = .finished approve (.decide (.error (storageRuntime .unavailable)))
      ∧ w.clients 2 = .finished withdraw (.cancel (.error (.domain .alreadyTerminal)))
      ∧ Running Standard.deps Standard.policy w ∧ Linearizable Standard.deps Standard.policy w := by
  obtain ⟨w, h, hlost, hrefused⟩ := lost_reply
  exact ⟨w, hlost, hrefused, h,
    calls_linearizable Standard.deps Standard.deps_lawful Standard.policy w h⟩

end BusinessApproval.D1
