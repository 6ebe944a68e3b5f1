import BusinessApproval.Proof.Bodies

/-!
# One batch after another

A service call over D1 reads each clock at most once and then makes at most one call of
the database: `body_simple`. So the batches of all clients come one after another, and
each does what its call does alone, on the table it meets, with the clock reads its client
has had. `Inv` says this of every reachable world, and of every client how its answer
relates to its batch: it is the call's answer, or the failure of the runtime that stands
for a lost one.
-/

namespace BusinessApproval.D1

open ApprovalService

variable {Ctx : Type} {deps : Deps Ctx} {config : ApprovalPolicy}

/-! ## The shape of a call -/

/-- The clocks a call reads before its batch. -/
def Informed (call : ServiceCall Ctx) (date now : Bool) : Prop :=
  match call with
  | .request _ _ => now = true
  | .read _ _ => False
  | _ => date = true ∧ now = true

/--
What is left of a call, when it has read the clocks that are marked: reads of the other
clocks, then one call of the database, which fails in the runtime when there is no answer.
-/
inductive Simple (call : ServiceCall Ctx) : Bool → Bool → Prog D1Res Response → Prop
  | ret {date now : Bool} (r : Response) : Simple call date now (.ret r)
  | newDate {now : Bool} {k : Int → Prog D1Res Response}
      (h : ∀ ms, InYears (ms * 1000000) → Simple call true now (k ms)) :
      Simple call false now (.call .newDate k)
  | dateNow {date : Bool} {k : Int → Prog D1Res Response}
      (h : ∀ ms, InYears (ms * 1000000) → Simple call date true (k ms)) :
      Simple call date false (.call .dateNow k)
  | batch {date now : Bool} {write : Write} {condition : D1Row → Bool}
      {k : Except String Json → Prog D1Res Response} (hinformed : Informed call date now)
      (hret : ∀ answer, ∃ r, k answer = .ret r)
      (hfails : ∀ message, ∃ r failure, k (.error message) = .ret r
        ∧ r.runtimeFailure = some failure) :
      Simple call date now (.call (.batch write condition) k)
  | first {date now : Bool} {condition : D1Row → Bool}
      {k : Except String Json → Prog D1Res Response}
      (hread : ∃ context body, call = .read context body)
      (hret : ∀ answer, ∃ r, k answer = .ret r)
      (hfails : ∀ message, ∃ r failure, k (.error message) = .ret r
        ∧ r.runtimeFailure = some failure) :
      Simple call date now (.call (.first condition) k)

/-- A transition that gets no answer fails in the runtime. -/
theorem Responds.unanswered {time : TimeCrate} {call : ServiceCall Ctx} {kind : Kind}
    {respond : Except StorageError (Except DomainFailure StoredApproval) → Response}
    (h : Responds time call kind respond) (e : StorageError) :
    ∃ failure, (respond (.error e)).runtimeFailure = some failure := by
  cases h with
  | decide | cancel | expire => exact ⟨_, rfl⟩

/-- A transition has to read both clocks. -/
theorem Responds.informed {time : TimeCrate} {call : ServiceCall Ctx} {kind : Kind}
    {respond : Except StorageError (Except DomainFailure StoredApproval) → Response}
    (h : Responds time call kind respond) : Informed call true true := by
  cases h with
  | decide | cancel | expire => exact ⟨rfl, rfl⟩

theorem Submits.simple {context : Ctx} {body : RequestRequest} {now : Int}
    {rest : Prog D1Res Response} (h : Submits deps config context body now rest) :
    Simple (.request context body) false true rest := by
  cases h with
  | refused r => exact .ret r
  | sent hsends hid hnow hi => exact .batch rfl (fun _ => ⟨_, rfl⟩) fun _ => ⟨_, _, rfl, rfl⟩

theorem Staged.simple {call : ServiceCall Ctx} {rest : Prog D1Res Response}
    (h : Staged deps config call rest) : Simple call false false rest := by
  cases h with
  | answered call r => exact .ret r
  | transition hresponds hproper hid =>
      refine .newDate fun date _ => .dateNow fun now _ =>
        .batch hresponds.informed (fun _ => ⟨_, rfl⟩) fun message => ?_
      obtain ⟨failure, hfailure⟩ := hresponds.unanswered .unavailable
      exact ⟨_, failure, rfl, hfailure⟩
  | request h => exact .dateNow fun now hnow => (h now hnow).simple
  | read context body id requester =>
      exact .first ⟨context, body, rfl⟩ (fun _ => ⟨_, rfl⟩) fun _ => ⟨_, _, rfl, rfl⟩

theorem body_simple (hlaw : deps.time.Lawful) (call : ServiceCall Ctx) :
    Simple call false false (body deps config call) := (body_staged hlaw config call).simple

/-! ## What is known of a world -/

/-- A call's clock shows what the client has been shown. -/
structure Consistent (d : Database) (t : Nat) (clock : Clock) : Prop where
  inYears : clock.InYears
  date : ∀ ms, d.dates t = some ms → clock.newDate = ms
  now : ∀ ms, d.nows t = some ms → clock.dateNow = ms

/-- Each batch meets the table the one before it has left. -/
def Chain : Table → List Executed → Prop
  | table, [] => table = []
  | table, e :: log => e.after = table ∧ Chain e.before log

/-- The database has held the table. -/
def Seen (d : Database) (table : Table) : Prop := table = d.table ∨ ∃ e ∈ d.log, table = e.before

section Invariant

variable (deps : Deps Ctx) (config : ApprovalPolicy) (d : Database)

/-- A batch did what its call does alone, on the table it met. -/
structure Carried (call : ServiceCall Ctx) (e : Executed) (clock : Clock) : Prop where
  consistent : Consistent d e.client clock
  informed : Informed call (d.dates e.client).isSome (d.nows e.client).isSome
  after : e.after = ((backend deps).serve deps config clock call e.before).2

/-- How the answer of a call relates to what it did. -/
inductive Done (t : Nat) (call : ServiceCall Ctx) : Response → Prop
  | answered {e : Executed} {clock : Clock} (he : e ∈ d.log) (ht : e.client = t)
      (hc : Consistent d t clock)
      (hafter : e.after = ((backend deps).serve deps config clock call e.before).2) :
      Done t call ((backend deps).serve deps config clock call e.before).1
  /-- The batch was carried out, and its answer was lost. -/
  | lost {e : Executed} {r : Response} {failure : RuntimeFailure} (he : e ∈ d.log)
      (ht : e.client = t) (hr : r.runtimeFailure = some failure) : Done t call r
  /-- No batch was sent, because the answer was clear whatever is in the table. -/
  | guarded {clock : Clock} {r : Response} (hnone : ∀ e ∈ d.log, e.client ≠ t)
      (hc : Consistent d t clock)
      (hr : ∀ table, (backend deps).serve deps config clock call table = (r, table)) :
      Done t call r
  | observed {clock : Clock} {table : Table} {r : Response} (hnone : ∀ e ∈ d.log, e.client ≠ t)
      (hread : ∃ context body, call = .read context body) (hc : Consistent d t clock)
      (hseen : Seen d table) (hr : (backend deps).serve deps config clock call table = (r, table)) :
      Done t call r
  /-- The batch was not carried out. -/
  | failed {r : Response} {failure : RuntimeFailure} (hnone : ∀ e ∈ d.log, e.client ≠ t)
      (hr : r.runtimeFailure = some failure) : Done t call r

inductive ClientOk (t : Nat) : Concurrent.Status D1Res (ServiceCall Ctx) Response → Prop
  | idle (hdate : d.dates t = none) (hnow : d.nows t = none)
      (hnone : ∀ e ∈ d.log, e.client ≠ t) : ClientOk t .idle
  /-- Its batch is still to come, and what is left of the call goes on as the whole call does. -/
  | running {call : ServiceCall Ctx} {rest : Prog D1Res Response}
      (hsimple : Simple call (d.dates t).isSome (d.nows t).isSome rest)
      (hnone : ∀ e ∈ d.log, e.client ≠ t)
      (hrun : ∀ clock, Consistent d t clock → ∀ table,
        Prog.run (perform clock) rest table = (backend deps).serve deps config clock call table) :
      ClientOk t (.running call rest)
  | done {call : ServiceCall Ctx} {r : Response} (h : Done deps config d t call r) :
      ClientOk t (.running call (.ret r))
  | finished {call : ServiceCall Ctx} {r : Response} (h : Done deps config d t call r) :
      ClientOk t (.finished call r)

end Invariant

/-- What holds of every reachable world. -/
structure Inv (deps : Deps Ctx) (config : ApprovalPolicy) (w : World Ctx) : Prop where
  years : ∀ t ms, w.shared.dates t = some ms ∨ w.shared.nows t = some ms → InYears (ms * 1000000)
  chain : Chain w.shared.table w.shared.log
  once : (w.shared.log.map Executed.client).Nodup
  carried : ∀ e ∈ w.shared.log, ∃ call clock, (w.clients e.client).call = some call
    ∧ Carried deps config w.shared call e clock
  clients : ∀ t, ClientOk deps config w.shared t (w.clients t)

/-! ## What a step leaves as it is -/

/-- A step of one client, as the others see it. -/
structure Beside (t : Nat) (d d' : Database) : Prop where
  dates : ∀ u, u ≠ t → d'.dates u = d.dates u
  nows : ∀ u, u ≠ t → d'.nows u = d.nows u
  log : ∀ e ∈ d.log, e ∈ d'.log
  new : ∀ e ∈ d'.log, e ∈ d.log ∨ e.client = t
  seen : ∀ table, Seen d table → Seen d' table

theorem beside_execute (t : Nat) (d : Database) (table : Table) :
    Beside t d (d.execute t table) where
  dates _ _ := rfl
  nows _ _ := rfl
  log e he := List.mem_cons_of_mem _ he
  new e he := by
    -- the entry of this batch, or an older one
    rcases List.mem_cons.mp he with rfl | he
    · exact Or.inr rfl
    · exact Or.inl he
  seen table' h := by
    -- the table it has found is in its entry
    refine Or.inr ?_
    rcases h with rfl | ⟨e, he, rfl⟩
    · exact ⟨_, List.mem_cons_self, rfl⟩
    · exact ⟨e, List.mem_cons_of_mem _ he, rfl⟩

theorem Serves.beside {t : Nat} {d d' : Database} {o : D1Op} {r : D1Res o}
    (h : Serves t d o r d') : Beside t d d' := by
  cases h with
  | newDate ms hms =>
      exact ⟨fun u hu => Function.update_of_ne hu .., fun _ _ => rfl, fun _ he => he,
        fun _ he => Or.inl he, fun _ h => h⟩
  | dateNow ms hms =>
      exact ⟨fun _ _ => rfl, fun u hu => Function.update_of_ne hu .., fun _ he => he,
        fun _ he => Or.inl he, fun _ h => h⟩
  | batch h => exact beside_execute t d _
  | lost message h => exact beside_execute t d _
  | aborted | first | firstFailed =>
      exact ⟨fun _ _ => rfl, fun _ _ => rfl, fun _ he => he, fun _ he => Or.inl he, fun _ h => h⟩

namespace Beside

variable {t u : Nat} {d d' : Database}

theorem consistent (h : Beside t d d') (hu : u ≠ t) (clock : Clock) :
    Consistent d' u clock ↔ Consistent d u clock := by
  constructor
  · rintro ⟨hy, hdate, hnow⟩
    exact ⟨hy, fun ms hms => hdate ms (by rw [h.dates u hu, hms]),
      fun ms hms => hnow ms (by rw [h.nows u hu, hms])⟩
  · rintro ⟨hy, hdate, hnow⟩
    exact ⟨hy, fun ms hms => hdate ms (by rw [← h.dates u hu, hms]),
      fun ms hms => hnow ms (by rw [← h.nows u hu, hms])⟩

theorem none (h : Beside t d d') (hu : u ≠ t) (hnone : ∀ e ∈ d.log, e.client ≠ u) :
    ∀ e ∈ d'.log, e.client ≠ u := by
  intro e he
  rcases h.new e he with he | ht
  · exact hnone e he
  · rw [ht]
    exact hu.symm

theorem carried (h : Beside t d d') {e : Executed} (he : e.client ≠ t) {call : ServiceCall Ctx}
    {clock : Clock} (hc : Carried deps config d call e clock) :
    Carried deps config d' call e clock where
  consistent := (h.consistent he clock).mpr hc.consistent
  informed := by
    rw [h.dates _ he, h.nows _ he]
    exact hc.informed
  after := hc.after

theorem done (h : Beside t d d') (hu : u ≠ t) {call : ServiceCall Ctx} {r : Response}
    (hd : Done deps config d u call r) : Done deps config d' u call r := by
  cases hd with
  | answered he ht hc hafter =>
      exact .answered (h.log _ he) ht ((h.consistent hu _).mpr hc) hafter
  | lost he ht hr => exact .lost (h.log _ he) ht hr
  | guarded hnone hc hr => exact .guarded (h.none hu hnone) ((h.consistent hu _).mpr hc) hr
  | observed hnone hread hc hseen hr =>
      exact .observed (h.none hu hnone) hread ((h.consistent hu _).mpr hc) (h.seen _ hseen) hr
  | failed hnone hr => exact .failed (h.none hu hnone) hr

/-- **A step of one client leaves what is known of the others.** -/
theorem clientOk (h : Beside t d d') (hu : u ≠ t)
    {s : Concurrent.Status D1Res (ServiceCall Ctx) Response} (hok : ClientOk deps config d u s) :
    ClientOk deps config d' u s := by
  cases hok with
  | idle hdate hnow hnone =>
      exact .idle (by rw [h.dates u hu, hdate]) (by rw [h.nows u hu, hnow]) (h.none hu hnone)
  | running hsimple hnone hrun =>
      refine .running ?_ (h.none hu hnone) fun clock hc => hrun clock ((h.consistent hu clock).mp hc)
      rw [h.dates u hu, h.nows u hu]
      exact hsimple
  | done hd => exact .done (h.done hu hd)
  | finished hd => exact .finished (h.done hu hd)

end Beside

/-! ## A step of a client -/

section Step

variable {t : Nat} {d d' : Database} {call : ServiceCall Ctx}

theorem exists_consistent
    (hyears : ∀ ms, d.dates t = some ms ∨ d.nows t = some ms → InYears (ms * 1000000)) :
    ∃ clock, Consistent d t clock := by
  have hzero : InYears (0 * 1000000) := ⟨by decide, by decide⟩
  refine ⟨⟨(d.nows t).getD 0, (d.dates t).getD 0⟩, ⟨?_, ?_⟩, fun ms hms => ?_, fun ms hms => ?_⟩
  · cases hn : d.nows t with
    | none => exact hzero
    | some ms => exact hyears ms (Or.inr hn)
  · cases hd : d.dates t with
    | none => exact hzero
    | some ms => exact hyears ms (Or.inl hd)
  · simp only [hms, Option.getD_some]
  · simp only [hms, Option.getD_some]

/-- What a clock shows from now on, it showed before the read too. -/
theorem Consistent.of_readDate {clock : Clock} {ms : Int} (hnone : d.dates t = none)
    (h : Consistent (d.readDate t ms) t clock) : Consistent d t clock ∧ clock.newDate = ms :=
  ⟨⟨h.inYears, fun ms' hms' => (by rw [hnone] at hms'; cases hms'), h.now⟩,
    h.date ms (Function.update_self ..)⟩

theorem Consistent.of_readNow {clock : Clock} {ms : Int} (hnone : d.nows t = none)
    (h : Consistent (d.readNow t ms) t clock) : Consistent d t clock ∧ clock.dateNow = ms :=
  ⟨⟨h.inYears, h.date, fun ms' hms' => (by rw [hnone] at hms'; cases hms')⟩,
    h.now ms (Function.update_self ..)⟩

theorem Consistent.execute {clock : Clock} (h : Consistent d t clock) (table : Table) :
    Consistent (d.execute t table) t clock := ⟨h.inYears, h.date, h.now⟩

/-- A client that has an operation to come has had no batch, and goes on as its call does. -/
theorem ClientOk.of_call {o : D1Op} {k : D1Res o → Prog D1Res Response}
    (h : ClientOk deps config d t (.running call (.call o k))) :
    Simple call (d.dates t).isSome (d.nows t).isSome (.call o k)
      ∧ (∀ e ∈ d.log, e.client ≠ t)
      ∧ ∀ clock, Consistent d t clock → ∀ table,
        Prog.run (perform clock) (.call o k) table
          = (backend deps).serve deps config clock call table := by
  cases h with
  | running hsimple hnone hrun => exact ⟨hsimple, hnone, hrun⟩

/-- A batch that is carried out does what its call does alone, and its answer ends the call. -/
theorem batch_carried {write : Write} {condition : D1Row → Bool}
    {k : D1Res (.batch write condition) → Prog D1Res Response} {reply : Json} {table : Table}
    {clock : Clock} (hclock : Consistent d t clock)
    (hinformed : Informed call (d.dates t).isSome (d.nows t).isSome)
    (hret : ∀ answer, ∃ r, k answer = .ret r)
    (hrun : Prog.run (perform clock) (.call (.batch write condition) k) d.table
      = (backend deps).serve deps config clock call d.table)
    (h : runBatch write condition d.table = (.ok reply, table)) :
    ∃ response, k (Except.ok reply : Except String Json) = .ret response
      ∧ (backend deps).serve deps config clock call d.table = (response, table)
      ∧ Carried deps config (d.execute t table) call ⟨t, d.table, table⟩ clock := by
  -- the call ends with what it makes of the reply
  obtain ⟨response, hresponse⟩ := hret (Except.ok reply : Except String Json)
  rw [Prog.run_call] at hrun
  simp only [perform, h, hresponse, Prog.run_ret] at hrun
  exact ⟨response, hresponse, hrun.symm, hclock.execute table, hinformed, by simp only [← hrun]⟩

/-- What is in the log when a batch has been carried out. -/
theorem log_execute {table : Table} {clock : Clock}
    (hc : Carried deps config (d.execute t table) call ⟨t, d.table, table⟩ clock) :
    ∀ e ∈ (d.execute t table).log,
      e ∈ d.log ∨ ∃ clock, Carried deps config (d.execute t table) call e clock := by
  intro e he
  rcases List.mem_cons.mp he with rfl | he
  · exact Or.inr ⟨clock, hc⟩
  · exact Or.inl he

/-- **A client is answered**: it goes on as its call does, or its batch has been carried out. -/
theorem serves_client {o : D1Op} {k : D1Res o → Prog D1Res Response} {r : D1Res o}
    (hyears : ∀ ms, d.dates t = some ms ∨ d.nows t = some ms → InYears (ms * 1000000))
    (hok : ClientOk deps config d t (.running call (.call o k))) (hs : Serves t d o r d') :
    ClientOk deps config d' t (.running call (k r))
      ∧ ∀ e ∈ d'.log, e ∈ d.log ∨ ∃ clock, Carried deps config d' call e clock := by
  obtain ⟨hsimple, hnone, hrun⟩ := hok.of_call
  obtain ⟨clock, hclock⟩ := exists_consistent hyears
  generalize hdate : (d.dates t).isSome = date at hsimple
  generalize hnow : (d.nows t).isSome = now at hsimple
  cases hs with
  | newDate ms hms =>
      cases hsimple with
      | newDate h =>
          subst hnow
          have hno : d.dates t = none := by simpa using hdate
          refine ⟨.running ?_ hnone fun clock hc table => ?_, fun e he => Or.inl he⟩
          · simpa only [Database.readDate, Function.update_self, Option.isSome_some] using h ms hms
          · obtain ⟨hc', rfl⟩ := hc.of_readDate hno
            exact hrun clock hc' table
  | dateNow ms hms =>
      cases hsimple with
      | dateNow h =>
          subst hdate
          have hno : d.nows t = none := by simpa using hnow
          refine ⟨.running ?_ hnone fun clock hc table => ?_, fun e he => Or.inl he⟩
          · simpa only [Database.readNow, Function.update_self, Option.isSome_some] using h ms hms
          · obtain ⟨hc', rfl⟩ := hc.of_readNow hno
            exact hrun clock hc' table
  | @batch write condition reply table h =>
      cases hsimple with
      | batch hinformed hret hfails =>
          subst hdate hnow
          obtain ⟨response, hresponse, hserve, hcarried⟩ :=
            batch_carried hclock hinformed hret (hrun clock hclock d.table) h
          refine ⟨?_, log_execute hcarried⟩
          rw [hresponse, show response
            = ((backend deps).serve deps config clock call d.table).1 by rw [hserve]]
          exact .done (.answered (e := ⟨t, d.table, table⟩) List.mem_cons_self rfl
            hcarried.consistent hcarried.after)
  | aborted write condition message =>
      cases hsimple with
      | batch hinformed hret hfails =>
          obtain ⟨response, failure, hresponse, hfailure⟩ := hfails message
          rw [hresponse]
          exact ⟨.done (.failed hnone hfailure), fun e he => Or.inl he⟩
  | @lost write condition reply table message h =>
      cases hsimple with
      | batch hinformed hret hfails =>
          subst hdate hnow
          -- the batch has done what it does, though the client does not hear of it
          obtain ⟨response, failure, hresponse, hfailure⟩ := hfails message
          obtain ⟨-, -, -, hcarried⟩ :=
            batch_carried hclock hinformed hret (hrun clock hclock d.table) h
          rw [hresponse]
          exact ⟨.done (.lost (e := ⟨t, d.table, table⟩) List.mem_cons_self rfl hfailure),
            log_execute hcarried⟩
  | first condition =>
      cases hsimple with
      | first hread hret hfails =>
          obtain ⟨response, hresponse⟩ := hret
            (.ok (((d.table.filter condition).head?.map D1Row.toJson).getD .null))
          have hserve := hrun clock hclock d.table
          rw [Prog.run_call] at hserve
          simp only [perform, hresponse, Prog.run_ret] at hserve
          rw [hresponse]
          exact ⟨.done (.observed hnone hread hclock (Or.inl rfl) hserve.symm),
            fun e he => Or.inl he⟩
  | firstFailed condition message =>
      cases hsimple with
      | first hread hret hfails =>
          obtain ⟨response, failure, hresponse, hfailure⟩ := hfails message
          rw [hresponse]
          exact ⟨.done (.failed hnone hfailure), fun e he => Or.inl he⟩

end Step

/-! ## The invariant -/

section Invariant

theorem inv_initial (deps : Deps Ctx) (config : ApprovalPolicy) :
    Inv deps config (.initial Database.empty) where
  years t ms h := by rcases h with h | h <;> cases h
  chain := rfl
  once := List.nodup_nil
  carried e he := by cases he
  clients t := .idle rfl rfl fun e he => (by cases he)

/-- The clocks go on showing the years 0 to 9999. -/
theorem Serves.years {t : Nat} {d d' : Database} {o : D1Op} {r : D1Res o}
    (hs : Serves t d o r d')
    (h : ∀ u ms, d.dates u = some ms ∨ d.nows u = some ms → InYears (ms * 1000000)) :
    ∀ u ms, d'.dates u = some ms ∨ d'.nows u = some ms → InYears (ms * 1000000) := by
  intro u ms hms
  cases hs with
  | newDate ms' hyears =>
      by_cases hu : u = t
      · subst hu
        rcases hms with hms | hms
        -- the read that has just been made
        · simp only [Database.readDate, Function.update_self, Option.some.injEq] at hms
          exact hms ▸ hyears
        · exact h u ms (Or.inr hms)
      · simp only [Database.readDate, Function.update_of_ne hu] at hms
        exact h u ms hms
  | dateNow ms' hyears =>
      by_cases hu : u = t
      · subst hu
        rcases hms with hms | hms
        · exact h u ms (Or.inl hms)
        -- the read that has just been made
        · simp only [Database.readNow, Function.update_self, Option.some.injEq] at hms
          exact hms ▸ hyears
      · simp only [Database.readNow, Function.update_of_ne hu] at hms
        exact h u ms hms
  | batch | lost | aborted | first | firstFailed => exact h u ms hms

/-- The batches go on forming a chain, each of another client. -/
theorem Serves.chain {t : Nat} {d d' : Database} {o : D1Op} {r : D1Res o} (hs : Serves t d o r d')
    (hchain : Chain d.table d.log) (honce : (d.log.map Executed.client).Nodup)
    (hnone : ∀ e ∈ d.log, e.client ≠ t) :
    Chain d'.table d'.log ∧ (d'.log.map Executed.client).Nodup := by
  have hnew : t ∉ d.log.map Executed.client := by
    intro hmem
    obtain ⟨e, he, heq⟩ := List.mem_map.mp hmem
    exact hnone e he heq
  cases hs with
  | batch h => exact ⟨⟨rfl, hchain⟩, List.nodup_cons.mpr ⟨hnew, honce⟩⟩
  | lost message h => exact ⟨⟨rfl, hchain⟩, List.nodup_cons.mpr ⟨hnew, honce⟩⟩
  | newDate | dateNow | aborted | first | firstFailed => exact ⟨hchain, honce⟩

/-- A call that returns has done what it could. -/
theorem Inv.done_of_ret {w : World Ctx} (h : Inv deps config w) {t : Nat} {call : ServiceCall Ctx}
    {a : Response} (hrunning : w.clients t = .running call (.ret a)) :
    Done deps config w.shared t call a := by
  have hok := h.clients t
  rw [hrunning] at hok
  cases hok with
  | done hd => exact hd
  | running hsimple hnone hrun =>
      -- the call ends without a batch, whatever the table
      obtain ⟨clock, hclock⟩ := exists_consistent (h.years t)
      exact .guarded hnone hclock fun table => (hrun clock hclock table).symm

/-- A client has a new status, and nothing has happened to the database. -/
theorem Inv.update {w : World Ctx} (h : Inv deps config w) {t : Nat}
    {status : Concurrent.Status D1Res (ServiceCall Ctx) Response}
    (hok : ClientOk deps config w.shared t status)
    (hcall : ∀ c, (w.clients t).call = some c → status.call = some c)
    (history : List (Concurrent.Event (ServiceCall Ctx) Response)) :
    Inv deps config ⟨w.shared, Function.update w.clients t status, history⟩ := by
  refine ⟨h.years, h.chain, h.once, fun e he => ?_,
    (Function.forall_update_iff w.clients _).mpr ⟨hok, fun u _ => h.clients u⟩⟩
  obtain ⟨call, clock, hc, hcarried⟩ := h.carried e he
  refine ⟨call, clock, ?_, hcarried⟩
  show (Function.update w.clients t status e.client).call = some call
  -- a client goes on with the call that it has
  by_cases hu : e.client = t
  · rw [hu, Function.update_self]
    exact hcall call (hu ▸ hc)
  · rw [Function.update_of_ne hu]
    exact hc

theorem Inv.answer {w : World Ctx} (h : Inv deps config w) {t : Nat} {call : ServiceCall Ctx}
    {o : D1Op} {k : D1Res o → Prog D1Res Response}
    (hrunning : w.clients t = .running call (.call o k)) {r : D1Res o} {d' : Database}
    (hs : Serves t w.shared o r d') :
    Inv deps config ⟨d', Function.update w.clients t (.running call (k r)), w.history⟩ := by
  have hok := h.clients t
  rw [hrunning] at hok
  have hnone := hok.of_call.2.1
  have hbeside := Serves.beside hs
  obtain ⟨hclient, hlog⟩ := serves_client (h.years t) hok hs
  obtain ⟨hchain, honce⟩ := Serves.chain hs h.chain h.once hnone
  refine ⟨Serves.years hs h.years, hchain, honce, fun e he => ?_,
    (Function.forall_update_iff w.clients _).mpr
      ⟨hclient, fun u hu => hbeside.clientOk hu (h.clients u)⟩⟩
  show ∃ call' clock, (Function.update w.clients t (.running call (k r)) e.client).call
    = some call' ∧ Carried deps config d' call' e clock
  rcases hbeside.new e he with hold | ht
  · -- the batch of another client
    obtain ⟨call', clock, hcall, hcarried⟩ := h.carried e hold
    rw [Function.update_of_ne (hnone e hold)]
    exact ⟨call', clock, hcall, hbeside.carried (hnone e hold) hcarried⟩
  · rcases hlog e he with hold | ⟨clock, hcarried⟩
    · exact absurd ht (hnone e hold)
    · rw [ht, Function.update_self]
      exact ⟨call, clock, rfl, hcarried⟩

/-- **Every step keeps the invariant.** -/
theorem inv_step (hlaw : deps.time.Lawful) {w w' : World Ctx} (h : Inv deps config w)
    (hstep : Concurrent.Step machine (body deps config) w w') : Inv deps config w' := by
  cases hstep with
  | invoke t call hidle =>
      have hok := h.clients t
      rw [hidle] at hok
      cases hok with
      | idle hdate hnow hnone =>
          refine h.update (.running ?_ hnone fun clock _ table => Prog.run_subst _ _ _ _)
            (fun c hc => ?_) _
          · rw [hdate, hnow]
            exact body_simple hlaw call
          · rw [hidle] at hc
            cases hc
  | answer hrunning hs => exact h.answer hrunning hs
  | work hrunning hs => exact hs.elim
  | move hs => exact hs.elim
  | respond hrunning =>
      refine h.update (.finished (h.done_of_ret hrunning)) (fun c hc => ?_) _
      rw [hrunning] at hc
      exact hc

/-- **The invariant holds in every reachable world.** -/
theorem Running.inv (hlaw : deps.time.Lawful) {w : World Ctx} (h : Running deps config w) :
    Inv deps config w :=
  Concurrent.Reachable.inv (inv_initial deps config) (fun _ _ _ hI hs => inv_step hlaw hI hs) h

end Invariant

end BusinessApproval.D1
