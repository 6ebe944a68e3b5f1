import BusinessApproval.Proof.Overdue
import BusinessApproval.Proof.Sessions

/-!
# Requests and their settlement in time

Under one clock that never goes back, what dates a settled approval are two reads of the
clock: one by the request that has created it, one by the transition that has settled it.
The dates are in the order of the reads. But a transition reads the clock before it looks
for its approval, so its read may be the earlier one, and then so may be its date.
-/

namespace BusinessApproval

open ApprovalService Concurrent

variable {Ctx Op σ : Type}

def ServiceCall.Transitions : ServiceCall Ctx → Prop
  | .decide _ _ | .cancel _ _ | .expire _ _ => True
  | .request _ _ | .read _ _ => False

/-- Whole units of a time. -/
def whole (unit time : Int) : Int := time / unit * unit

/--
The clock reads that date a settled approval, in whole units: one by the request that has
created it, and one by the transition that has settled it. `wrote t old new` says that
client `t` has written `new` where there was `old`.
-/
structure Dates (unit : Int) (asks settles : Op) (call : Nat → Option (ServiceCall Ctx))
    (wrote : Nat → Option StoredApproval → StoredApproval → Prop) (c : Timed Op σ)
    (a : StoredApproval) (r r' : Observation Op) : Prop where
  asked : r ∈ c.observations ∧ r.op = asks
  request : ∃ context body, call r.client = some (.request context body)
    ∧ body.requestId = a.requestId
  requestedAt : a.requestedAt = whole unit r.time
  settled : r' ∈ c.observations ∧ r'.op = settles
  transition : ∃ called, call r'.client = some called ∧ called.Transitions
    ∧ called.requestId = a.requestId
  terminalAt : a.terminalAt = some (whole unit r'.time)
  /-- The request has written the pending approval, and the transition has settled that one. -/
  written : ∃ b, b.status = .pending ∧ wrote r.client none b ∧ wrote r'.client (some b) a

theorem whole_mono {unit : Int} (hunit : 0 < unit) {time time' : Int} (h : time ≤ time') :
    whole unit time ≤ whole unit time' :=
  Int.mul_le_mul_of_nonneg_right (Int.ediv_le_ediv hunit h) (Int.le_of_lt hunit)

theorem floorMicros_eq_whole (time : Int) : floorMicros time = whole 1000 time := by
  have := Int.ediv_mul_add_emod time 1000
  simp only [floorMicros, whole]
  omega

/-- A settlement that has read the clock after the request is not dated before it. -/
theorem Dates.ordered {unit : Int} (hunit : 0 < unit) {asks settles : Op}
    {call : Nat → Option (ServiceCall Ctx)}
    {wrote : Nat → Option StoredApproval → StoredApproval → Prop} {c : Timed Op σ}
    {a : StoredApproval} {r r' : Observation Op}
    (h : Dates unit asks settles call wrote c a r r') (hc : c.Ordered)
    (hbefore : c.Before r r') : ∃ instant, a.terminalAt = some instant ∧ a.requestedAt ≤ instant := by
  refine ⟨_, h.terminalAt, ?_⟩
  rw [h.requestedAt]
  exact whole_mono hunit (hc.le_of_before hbefore)

/-- A transition of an approval is made for the call of a transition. -/
theorem transitions_of_settles {deps : Deps Ctx} {config : ApprovalPolicy} {call : ServiceCall Ctx}
    {o : StoreOp} {id : String} {a : StoredApproval} {set : Settlement}
    (hsends : Sends deps config call o) (hset : Settles o id a set) :
    call.Transitions ∧ call.requestId = id := by
  cases hset <;> cases hsends <;> exact ⟨trivial, rfl⟩

/-! ## PostgreSQL -/

namespace Postgres

variable {deps : Deps Ctx} {config : ApprovalPolicy} {w : TimedWorld Ctx}

/-- The timestamp of a transaction is what the clock showed when it began. -/
def Stamped (c : Timed SqlOp Database) : Prop :=
  ∀ t now, c.state.begun t = some now →
    ∃ r ∈ c.observations, r.client = t ∧ r.op = .begin ∧ now = r.time / 1000

theorem Stamped.answered {c : Timed SqlOp Database} (hc : Stamped c) {t : Nat} {o : SqlOp}
    {r : SqlRes o} {d : Database} (hs : machine.answers t o c.state r d)
    (hshows : shows t c.clock o r d) : Stamped (c.answered t o d) := by
  intro u now hnow
  have hkept : c.state.begun u = some now → ∃ r ∈ (c.answered t o d).observations,
      r.client = u ∧ r.op = .begin ∧ now = r.time / 1000 := by
    intro hold
    obtain ⟨r, hr, hrest⟩ := hc u now hold
    exact ⟨r, List.mem_cons_of_mem _ hr, hrest⟩
  rcases hs with hs | ⟨fault, clock, -, rfl⟩
  · cases hs with
    | begin timestamp hnone =>
        by_cases hu : u = t
        · subst hu
          exact ⟨_, List.mem_cons_self, rfl, rfl, Option.some.inj (hnow.symm.trans (hshows rfl))⟩
        · exact hkept ((Function.update_of_ne hu ..).symm.trans hnow)
    | _ => exact hkept hnow
  · have hbegun := (failed_committed (d := c.state) (t := t) o).2.2
    exact hkept ((congrFun hbegun u).symm.trans hnow)

theorem TimedRunning.stamped (h : TimedRunning deps config w) : Stamped w.shared := by
  obtain ⟨clock, h⟩ := h
  refine h.timed (fun t now hnow => ?_) (fun hs hshows hc => hc.answered hs hshows) ?_ ?_
    fun _ hc => hc
  · cases hnow
  · intro t o c d hs hc
    cases hs <;> exact hc
  · intro c d hs hc
    cases hs <;> exact hc

/-- A transition of the storage functions is made for the call of a transition. -/
theorem transitions_of_callOf {call : ServiceCall Ctx} {o : StoreOp} {storage : Call} {id : String}
    {set : PgRow.Settlement} (hsends : Sends deps config call o) (ho : callOf o = some storage)
    (hset : storage.settles = some (id, set)) : call.Transitions ∧ call.requestId = id := by
  cases o with
  | now => cases ho
  | request | read =>
      cases ho
      cases hset
  | decide | cancel | expire =>
      cases ho
      cases hset
      cases hsends
      exact ⟨trivial, rfl⟩

/-- What a request sends is sent by the call of one. -/
theorem Makes.request {told : Int → Prop} {call : ServiceCall Ctx} {intent : RequestIntent}
    (h : Makes deps config told call (.request intent)) :
    Sends deps config call (.request intent) ∧ ∃ context body, call = .request context body := by
  obtain ⟨o, hsends, ho⟩ := h.sends
  cases o with
  | request intent' =>
      cases ho
      refine ⟨hsends, ?_⟩
      cases hsends with
      | @request context body => exact ⟨context, body, rfl⟩
  | now | read | decide | cancel | expire => cases ho

/-- A transaction of the client has committed `new` where there was `old`. -/
def Wrote (d : Database) (t : Nat) (old : Option StoredApproval) (new : StoredApproval) : Prop :=
  ∃ before row, Made d.log t before row ∧ before.map PgRow.record = old ∧ row.record = new

/-- **A settled approval is dated by the clock reads of two clients.** -/
theorem Behind.dates (hlaw : deps.Lawful) {v : World} (h : Behind deps config w v)
    (hv : Running deps.timestamptz v) (hstamped : Stamped w.shared) {id : String}
    {a : StoredApproval} (ha : (backend deps).find w.shared.state.committed id = some a)
    (hs : a.status ≠ .pending) :
    ∃ r r', Dates 1000 .nowUtc .begin (fun t => (w.clients t).call) (Wrote w.shared.state)
      w.shared a r r' := by
  obtain ⟨order, hinv⟩ := hv.inv
  rw [← h.shared, find_of_sound deps hinv.db.sound] at ha
  obtain ⟨row, hrow, rfl⟩ := Option.map_eq_some_iff.mp ha
  cases hinv.log.lives hrow with
  | requested hcall hnew hmade =>
      subst hnew
      exact absurd (record_status rfl) hs
  | @settled t u intent old storage set hcall hnew hmade hu hset hmade' =>
      -- the request that has created it
      obtain ⟨asks, hasks, hmakes⟩ := (h.clients t).makes hcall
      obtain ⟨hsends, hrequest⟩ := hmakes.request
      obtain ⟨now, htold, hnow⟩ := hmakes.requestedAt intent rfl
      -- the transition that has settled it
      obtain ⟨settles, hsettles, hmakes'⟩ := (h.clients u).makes hu
      obtain ⟨o', hsends', ho'⟩ := hmakes'.sends
      obtain ⟨row', hsettled⟩ := hinv.log.winner hmade'.mem hu hset
      obtain rfl : row = row' := List.singleton_inj.mp hsettled.written
      obtain ⟨old', stamp, hsettle, hbegun⟩ := hsettled.settles
      rw [h.shared] at hbegun
      obtain ⟨r', hr', hclient, hop, hstamp⟩ := hstamped _ _ hbegun
      -- the row has had its terms and its id from the start
      obtain ⟨-, ⟨row', hrow', hterms⟩, -⟩ := hinv.log.created hmade.mem hcall
      have hkey : old.requestId = row.requestId := by
        obtain ⟨older, -, hold⟩ := hmade'
        exact requestId_of_lookup hold
      subst hnew
      have hid : row.requestId = id := requestId_of_lookup hrow
      rw [show intent.requestId = id from hkey.trans hid] at hrow'
      obtain rfl : row = row' := Option.some.inj (hrow.symm.trans hrow')
      refine ⟨⟨t, .nowUtc, now⟩, r', ⟨htold, rfl⟩, ?_, ?_, ⟨hr', hop⟩, ?_, ?_, ?_⟩
      · obtain ⟨context, body, rfl⟩ := hrequest
        exact ⟨context, body, hasks, (hkey.symm.trans (sends_request hsends).1).symm⟩
      · have hat : row.requestedAt = deps.timestamptz intent.requestedAt := by
          change row.terms.requestedAt = _
          rw [hterms]
          rfl
        have hexact := hlaw.timestamptz intent.requestedAt hsends.admissible.1
        change row.requestedAt * 1000 = _
        rw [hat, ← floorMicros_eq_whole, ← hnow]
        exact hexact
      · have htransition := transitions_of_callOf hsends' ho' hset
        exact ⟨settles, hclient ▸ hsettles, htransition⟩
      · rw [hsettle]
        exact congrArg (fun stamp => some (stamp * 1000)) hstamp
      · rw [h.shared] at hmade hmade'
        have hpending : (PgRow.ofIntent deps.timestamptz intent).status
            = ApprovalStatus.pending.asStr := rfl
        exact ⟨_, record_status hpending, ⟨none, _, hmade, rfl, rfl⟩,
          ⟨some _, row, hclient ▸ hmade', rfl, rfl⟩⟩

end Postgres

/-! ## D1 -/

namespace D1

variable {deps : Deps Ctx} {config : ApprovalPolicy}

/-- What the host's clock gave is what the clock showed. -/
structure Stamped (c : Timed D1Op Database) : Prop where
  dates : ∀ t ms, c.state.dates t = some ms →
    ∃ r ∈ c.observations, r.client = t ∧ r.op = .newDate ∧ ms = r.time / 1000000
  nows : ∀ t ms, c.state.nows t = some ms →
    ∃ r ∈ c.observations, r.client = t ∧ r.op = .dateNow ∧ ms = r.time / 1000000

theorem Stamped.answered {c : Timed D1Op Database} (hc : Stamped c) {t : Nat} {o : D1Op}
    {r : D1Res o} {d : Database} (hs : Serves t c.state o r d) (hshows : shows t c.clock o r d) :
    Stamped (c.answered t o d) := by
  have hmem : ∀ {r : Observation D1Op}, r ∈ c.observations → r ∈ (c.answered t o d).observations :=
    List.mem_cons_of_mem _
  have hdates : ∀ u ms, c.state.dates u = some ms → ∃ r ∈ (c.answered t o d).observations,
      r.client = u ∧ r.op = .newDate ∧ ms = r.time / 1000000 := fun u ms hms =>
    (hc.dates u ms hms).imp fun _ h => ⟨hmem h.1, h.2⟩
  have hnows : ∀ u ms, c.state.nows u = some ms → ∃ r ∈ (c.answered t o d).observations,
      r.client = u ∧ r.op = .dateNow ∧ ms = r.time / 1000000 := fun u ms hms =>
    (hc.nows u ms hms).imp fun _ h => ⟨hmem h.1, h.2⟩
  cases hs with
  | newDate ms hyears =>
      refine ⟨fun u ms' hms => ?_, hnows⟩
      by_cases hu : u = t
      · subst hu
        have heq : Function.update c.state.dates u (some ms) u = some ms' := hms
        rw [Function.update_self] at heq
        exact ⟨_, List.mem_cons_self, rfl, rfl, (Option.some.inj heq).symm.trans hshows⟩
      · exact hdates u ms' ((Function.update_of_ne hu ..).symm.trans hms)
  | dateNow ms hyears =>
      refine ⟨hdates, fun u ms' hms => ?_⟩
      by_cases hu : u = t
      · subst hu
        have heq : Function.update c.state.nows u (some ms) u = some ms' := hms
        rw [Function.update_self] at heq
        exact ⟨_, List.mem_cons_self, rfl, rfl, (Option.some.inj heq).symm.trans hshows⟩
      · exact hnows u ms' ((Function.update_of_ne hu ..).symm.trans hms)
  | batch | aborted | lost | first | firstFailed => exact ⟨hdates, hnows⟩

theorem TimedRunning.stamped {w : TimedWorld Ctx} (h : TimedRunning deps config w) :
    Stamped w.shared := by
  obtain ⟨clock, h⟩ := h
  exact h.timed ⟨fun t ms hms => (by cases hms), fun t ms hms => (by cases hms)⟩
    (fun hs hshows hc => hc.answered hs hshows) (fun hs _ => False.elim hs)
    (fun hs _ => False.elim hs) fun _ hc => ⟨hc.dates, hc.nows⟩

/-- A batch of the client has written `new` where there was `old`. -/
def Wrote (deps : Deps Ctx) (d : Database) (t : Nat) (old : Option StoredApproval)
    (new : StoredApproval) : Prop :=
  ∃ e ∈ d.log, e.client = t ∧ (backend deps).find e.before new.requestId = old
    ∧ (backend deps).find e.after new.requestId = some new

/-- A batch has created an approval for the call of its client, which has dated it. -/
structure CreatedBy (deps : Deps Ctx) (config : ApprovalPolicy) (w : World Ctx) (e : Executed)
    (id : String) (a : StoredApproval) : Prop where
  creation : ∃ context body now, (w.clients e.client).call = some (.request context body)
    ∧ body.requestId = id ∧ w.shared.nows e.client = some now
    ∧ a.requestedAt = floorMicros (now * 1000000)
  before : (backend deps).find e.before id = none
  after : (backend deps).find e.after id = some a
  pending : a.status = .pending

/-- A batch that creates an approval has been sent by a request. -/
theorem Carried.createdBy {w : World Ctx} {call : ServiceCall Ctx} {e : Executed} {clock : Clock}
    (hcall : (w.clients e.client).call = some call)
    (hc : Carried deps config w.shared call e clock) {intent : RequestIntent}
    (hsends : Sends deps config call (.request intent))
    (hnow : intent.requestedAt = floorMicros (clock.dateNow * 1000000))
    (hbefore : (backend deps).find e.before intent.requestId = none)
    (hafter : (backend deps).find e.after intent.requestId = some (.ofIntent intent)) :
    CreatedBy deps config w e intent.requestId (.ofIntent intent) := by
  have hid := (sends_request hsends).1
  cases hsends with
  | @request context body =>
      obtain ⟨now, hread⟩ := Option.isSome_iff_exists.mp hc.informed
      refine ⟨⟨context, body, now, hcall, hid.symm, hread, ?_⟩, hbefore, hafter, rfl⟩
      rw [← hc.consistent.now now hread]
      exact hnow

/-- An approval is as a request has created it, or as one transition has settled that. -/
inductive Lived (deps : Deps Ctx) (config : ApprovalPolicy) (w : World Ctx) (log : List Executed)
    (id : String) (a : StoredApproval) : Prop
  | requested {e : Executed} (he : e ∈ log) (hcreated : CreatedBy deps config w e id a)
  | settled {e e' : Executed} {b : StoredApproval} {call : ServiceCall Ctx} {clock : Clock}
      {o : StoreOp} {set : Settlement} (he : e ∈ log) (hcreated : CreatedBy deps config w e id b)
      (he' : e' ∈ log) (hcall : (w.clients e'.client).call = some call)
      (hc : Carried deps config w.shared call e' clock) (hsends : Sends deps config call o)
      (hset : Settles o id b set) (hbefore : (backend deps).find e'.before id = some b)
      (hafter : (backend deps).find e'.after id = some a)
      (ha : a = b.settle set (clock.newDate * 1000000))

theorem Lived.cons {w : World Ctx} {log : List Executed} {id : String} {a : StoredApproval}
    (h : Lived deps config w log id a) (e : Executed) : Lived deps config w (e :: log) id a := by
  cases h with
  | requested he hcreated => exact .requested (List.mem_cons_of_mem _ he) hcreated
  | settled he hcreated he' hcall hc hsends hset hbefore hafter ha =>
      exact .settled (List.mem_cons_of_mem _ he) hcreated (List.mem_cons_of_mem _ he') hcall hc
        hsends hset hbefore hafter ha

/-- An approval is found under its own id. -/
theorem requestId_of_find (hlaw : deps.Lawful) {table : Table}
    (h : (backend deps).Reachable deps config table) {id : String} {a : StoredApproval}
    (ha : (backend deps).find table id = some a) : a.requestId = id := by
  obtain ⟨L, hL⟩ := (implements hlaw).reachable hlaw.time h
  exact hL.sound.wellKeyed.ids (((implements hlaw).find hL.represents id).symm.trans ha)

/-- **Every approval has been created by a request**, and settled by one transition at most. -/
theorem Inv.lived (hlaw : deps.Lawful) {w : World Ctx} (h : Inv deps config w) {table : Table}
    {log : List Executed} (hchain : Chain table log) (hsub : log ⊆ w.shared.log) {id : String}
    {a : StoredApproval} (ha : (backend deps).find table id = some a) :
    Lived deps config w log id a := by
  induction log generalizing table a with
  | nil =>
      obtain rfl : table = [] := hchain
      cases ha
  | cons e log ih =>
      obtain ⟨rfl, hchain⟩ := hchain
      have he : e ∈ w.shared.log := hsub List.mem_cons_self
      have hold : ∀ {b}, (backend deps).find e.before id = some b → Lived deps config w log id b :=
        ih hchain fun e' he' => hsub (List.mem_cons_of_mem _ he')
      obtain ⟨call, clock, hcall, hc⟩ := h.carried e he
      -- a row that the newest batch has left alone
      have hsame : lookup e.after id = lookup e.before id → Lived deps config w (e :: log) id a :=
        fun hrow => (hold ((congrArg (fun row => Option.bind row (backend deps).approval)
          hrow).symm.trans ha)).cons e
      rcases h.alters hlaw he hc with hrows | halters
      · exact hsame (hrows id)
      · cases halters with
        | @created intent hsends hnow hfree hnew hframe =>
            by_cases hid : id = intent.requestId
            · subst hid
              have hnone : (backend deps).find e.before intent.requestId = none := by
                cases hb : (backend deps).find e.before intent.requestId with
                | none => rfl
                | some b =>
                    have hreachable := (h.chain.reachable h.alone).2 e he
                    exact absurd (requestId_of_find hlaw hreachable hb) (hfree _ b hb).1
              cases hnew.symm.trans ha
              exact .requested List.mem_cons_self (hc.createdBy hcall hsends hnow hnone hnew)
            · exact hsame (hframe id hid)
        | @settled o id' b set hsends hset hb hp hdue hnew hframe =>
            by_cases hid : id = id'
            · subst hid
              cases hnew.symm.trans ha
              cases hold hb with
              | requested he' hcreated =>
                  exact .settled (List.mem_cons_of_mem _ he') hcreated List.mem_cons_self hcall hc
                    hsends hset hb hnew rfl
              | settled _ _ _ _ _ hsends' hset' _ _ hb' =>
                  -- it is pending, so no transition has settled it before
                  rw [hb'] at hp
                  exact absurd hp (hset'.consistent hsends'.admissible 0).2
            · exact hsame (hframe id hid)

/-- **A settled approval is dated by the clock reads of two clients.** -/
theorem TimedRunning.dates (hlaw : deps.Lawful) {w : TimedWorld Ctx}
    (hw : TimedRunning deps config w) {id : String} {a : StoredApproval}
    (ha : (backend deps).find w.shared.state.table id = some a) (hs : a.status ≠ .pending) :
    ∃ r r', Dates 1000000 .dateNow .newDate (fun t => (w.clients t).call)
      (Wrote deps w.shared.state) w.shared a r r' := by
  have hstamped := hw.stamped
  obtain ⟨clock, hw⟩ := hw
  have hinv : Inv deps config w.forget := Running.inv hlaw.time hw.forget
  have hid : a.requestId = id :=
    requestId_of_find hlaw (hinv.chain.reachable hinv.alone).1 ha
  cases hinv.lived hlaw hinv.chain (List.Subset.refl _) ha with
  | requested he hcreated => exact absurd hcreated.pending hs
  | @settled e e' b call clock' o set he hcreated he' hcall hc hsends hset hbefore hafter hsettle =>
      -- the request that has created it
      obtain ⟨context, body, now, hrequest, hbody, hnow, hat⟩ := hcreated.creation
      obtain ⟨r, hr, hclient, hop, htime⟩ := hstamped.nows _ _ hnow
      have hb : b.requestId = id := by
        rw [hsettle] at hid
        exact hid
      -- the transition that has settled it
      obtain ⟨r', hr', hclient', hop', htime'⟩ := hstamped.dates _ _ (hc.readBy hsends hset).date
      refine ⟨r, r', ⟨hr, hop⟩, ⟨context, body, hclient ▸ hrequest, hbody.trans hid.symm⟩, ?_,
        ⟨hr', hop'⟩, ⟨call, hclient' ▸ hcall, ?_⟩, ?_, b, hcreated.pending, ?_, ?_⟩
      · have hexact : floorMicros (now * 1000000) = now * 1000000 := by
          simp only [floorMicros]
          omega
        have hkept : a.requestedAt = b.requestedAt := hsettle ▸ rfl
        rw [hkept, hat, hexact, htime, whole]
      · have htransition := transitions_of_settles hsends hset
        exact ⟨htransition.1, htransition.2.trans hid.symm⟩
      · rw [hsettle]
        exact congrArg (fun ms => some (ms * 1000000)) htime'
      · exact ⟨e, he, hclient.symm, hb.symm ▸ hcreated.before, hb.symm ▸ hcreated.after⟩
      · exact ⟨e', he', hclient'.symm, hid.symm ▸ hbefore, hid.symm ▸ hafter⟩

end D1

/-! ## The order of the dates -/

/--
An approval is dated by two clock reads, and if the read of the request came first, the
approval has not been settled before it was requested.
-/
def DatedInOrder (unit : Int) (asks settles : Op) (call : Nat → Option (ServiceCall Ctx))
    (wrote : Nat → Option StoredApproval → StoredApproval → Prop) (c : Timed Op σ)
    (a : StoredApproval) : Prop :=
  (∃ r r', Dates unit asks settles call wrote c a r r')
    ∧ ∀ r r', Dates unit asks settles call wrote c a r r' → c.Before r r' →
      ∃ instant, a.terminalAt = some instant ∧ a.requestedAt ≤ instant

/-- When settled approvals are dated in order. -/
structure DatesRule (deps : Deps Ctx) (config : ApprovalPolicy) : Prop where
  postgres : ∀ w, Postgres.TimedRunning deps config w → ∀ id a,
    (Postgres.backend deps).find w.shared.state.committed id = some a → a.status ≠ .pending →
    DatedInOrder 1000 .nowUtc .begin (fun t => (w.clients t).call)
      (Postgres.Wrote w.shared.state) w.shared a
  d1 : ∀ w, D1.TimedRunning deps config w → ∀ id a,
    (D1.backend deps).find w.shared.state.table id = some a → a.status ≠ .pending →
    DatedInOrder 1000000 .dateNow .newDate (fun t => (w.clients t).call)
      (D1.Wrote deps w.shared.state) w.shared a

/--
**A settled approval is dated in order if its transition has read the clock after its
request**, on either store, however calls run side by side.
-/
theorem dated_in_order (deps : Deps Ctx) (h : deps.Lawful) (config : ApprovalPolicy) :
    DatesRule deps config where
  postgres w hw id a ha hs := by
    obtain ⟨v, hv, hbehind⟩ := hw.behind h.time
    have hordered : w.shared.Ordered := hw.elim fun _ hw => hw.ordered
    exact ⟨hbehind.dates h hv hw.stamped ha hs,
      fun _ _ hdates hbefore => hdates.ordered (by decide) hordered hbefore⟩
  d1 w hw id a ha hs := by
    have hordered : w.shared.Ordered := hw.elim fun _ hw => hw.ordered
    exact ⟨hw.dates h ha hs,
      fun _ _ hdates hbefore => hdates.ordered (by decide) hordered hbefore⟩

theorem dated_in_order_late :
    (∃ w a, Postgres.TimedRunning Standard.deps Standard.policy w
        ∧ (Postgres.backend Standard.deps).find w.shared.state.committed "apr_expense" = some a
        ∧ a.status ≠ .pending
        ∧ DatedInOrder 1000 .nowUtc .begin (fun t => (w.clients t).call)
          (Postgres.Wrote w.shared.state) w.shared a)
      ∧ ∃ w a, D1.TimedRunning Standard.deps Standard.policy w
        ∧ (D1.backend Standard.deps).find w.shared.state.table "apr_expense" = some a
        ∧ a.status ≠ .pending
        ∧ DatedInOrder 1000000 .dateNow .newDate (fun t => (w.clients t).call)
          (D1.Wrote Standard.deps w.shared.state) w.shared a := by
  have hrule := dated_in_order Standard.deps Standard.deps_lawful Standard.policy
  constructor
  · obtain ⟨w, hw, a, ha, hstatus, -⟩ := Postgres.decided_late
    have hs : a.status ≠ .pending := by
      rw [hstatus]
      decide
    exact ⟨w, a, hw, ha, hs, hrule.postgres w hw _ a ha hs⟩
  · obtain ⟨w, hw, a, ha, hstatus, -⟩ := D1.decided_late
    have hs : a.status ≠ .pending := by
      rw [hstatus]
      decide
    exact ⟨w, a, hw, ha, hs, hrule.d1 w hw _ a ha hs⟩

/-! ## A transition that was there first -/

variable {Clock State Row : Type}

/-- No settled approval is dated before its request. -/
def Backend.NeverPredated (B : Backend Clock State Row) (s : State) : Prop :=
  ∀ id a, B.find s id = some a → a.status ≠ .pending →
    ∃ instant, a.terminalAt = some instant ∧ a.requestedAt ≤ instant

/-- An approval has been settled before it was requested. -/
def Predated (found : Option StoredApproval) : Prop :=
  ∃ a instant, found = some a ∧ a.status = .approved ∧ a.terminalAt = some instant
    ∧ instant < a.requestedAt

theorem Backend.NeverPredated.elim {B : Backend Clock State Row} {s : State} {id : String}
    (h : B.NeverPredated s) (hpredated : Predated (B.find s id)) : False := by
  obtain ⟨a, instant, ha, hstatus, hinstant, hlt⟩ := hpredated
  obtain ⟨instant', hinstant', hle⟩ := h id a ha (by rw [hstatus]; decide)
  cases hinstant.symm.trans hinstant'
  omega

/-- A decision has begun its transaction when the request is made that it then decides. -/
theorem Postgres.predated : ∃ w, Postgres.TimedRunning Standard.deps Standard.policy w
    ∧ Predated ((Postgres.backend Standard.deps).find w.shared.state.committed "apr_expense") := by
  have h : Reachable (Postgres.machine.timed Postgres.shows)
      (Postgres.body Standard.deps Standard.policy) ⟨.empty, 0, []⟩ _ := .initial
  replace h := h.step (.invoke 1 lateDecision rfl)
  replace h := h.step (.answer (t := 1) rfl ⟨_, .inl (.begin 0 rfl), fun _ => rfl, rfl⟩)
  replace h := h.step (.move (.tick (show (0 : Int) ≤ 5000000 by decide)))
  replace h := h.step (.invoke 0 dueRequest rfl)
  replace h := h.step (.answer (t := 0) rfl
    ⟨_, .inl (.nowUtc 5000000), ⟨rfl, by decide, by decide⟩, rfl⟩)
  replace h := h.step (.answer (t := 0) rfl ⟨_, .inl (.begin 5000 rfl), fun _ => rfl, rfl⟩)
  replace h := h.step (.answer (t := 0) rfl ⟨_, .inl (.inserted rfl (by decide +kernel) rfl (by
    rintro (_ | _ | u) tx hu htx
    · exact absurd rfl hu
    · cases htx
      rfl
    · cases htx)), trivial, rfl⟩)
  replace h := h.step (.answer (t := 0) rfl ⟨_, .inl (.decode _), trivial, rfl⟩)
  replace h := h.step (.answer (t := 0) rfl ⟨_, .inl (.commit rfl), trivial, rfl⟩)
  -- the decision goes on, and finds the row
  replace h := h.step (.work (t := 1) rfl
    ⟨_, .snapshot rfl rfl (List.Perm.refl ["apr_expense"]) (List.cons_ne_nil _ _), rfl⟩)
  replace h := h.step (.work (t := 1) rfl ⟨_, .lock rfl rfl
    (Postgres.free_of_two rfl fun _ => rfl) (show _ = some _ from rfl) rfl, rfl⟩)
  replace h := h.step (.answer (t := 1) rfl ⟨_, .inl (.selected rfl rfl), trivial, rfl⟩)
  replace h := h.step (.answer (t := 1) rfl ⟨_, .inl (.decode _), trivial, rfl⟩)
  replace h := h.step (.answer (t := 1) rfl ⟨_, .inl (.updated rfl (show _ = some _ from rfl)
    (Postgres.free_of_two rfl fun _ => rfl) (by decide +kernel)), trivial, rfl⟩)
  replace h := h.step (.answer (t := 1) rfl ⟨_, .inl (.decode _), trivial, rfl⟩)
  replace h := h.step (.answer (t := 1) rfl ⟨_, .inl (.commit rfl), trivial, rfl⟩)
  exact ⟨_, ⟨_, h⟩, _, 0, rfl, rfl, rfl, show (0 : Int) < 5000000 by decide⟩

/-- A decision has read its date when the request is made that it then decides. -/
theorem D1.predated : ∃ w, D1.TimedRunning Standard.deps Standard.policy w
    ∧ Predated ((D1.backend Standard.deps).find w.shared.state.table "apr_expense") := by
  have h : Reachable (D1.machine.timed D1.shows) (D1.body Standard.deps Standard.policy)
      ⟨.empty, 0, []⟩ _ := .initial
  replace h := h.step (.invoke 1 lateDecision rfl)
  replace h := h.step (.answer (t := 1) rfl ⟨_, .newDate 0 ⟨by decide, by decide⟩, rfl, rfl⟩)
  replace h := h.step (.move (.tick (show (0 : Int) ≤ 5000000 by decide)))
  replace h := h.step (.answer (t := 1) rfl ⟨_, .dateNow 5 ⟨by decide, by decide⟩, rfl, rfl⟩)
  replace h := h.step (.invoke 0 dueRequest rfl)
  replace h := h.step (.answer (t := 0) rfl ⟨_, .dateNow 5 ⟨by decide, by decide⟩, rfl, rfl⟩)
  replace h := h.step (.answer (t := 0) rfl ⟨_, .batch rfl, trivial, rfl⟩)
  replace h := h.step (.answer (t := 1) rfl ⟨_, .batch rfl, trivial, rfl⟩)
  exact ⟨_, ⟨_, h⟩, _, 0, rfl, rfl, rfl, show (0 : Int) < 5000000 by decide⟩

/-- **On either store an approval can be settled at a time before it was requested.** -/
theorem evidence_predates :
    (¬ ∀ w, Postgres.TimedRunning Standard.deps Standard.policy w →
        (Postgres.backend Standard.deps).NeverPredated w.shared.state.committed)
      ∧ ¬ ∀ w, D1.TimedRunning Standard.deps Standard.policy w →
        (D1.backend Standard.deps).NeverPredated w.shared.state.table := by
  constructor
  · intro h
    obtain ⟨w, hw, hpredated⟩ := Postgres.predated
    exact (h w hw).elim hpredated
  · intro h
    obtain ⟨w, hw, hpredated⟩ := D1.predated
    exact (h w hw).elim hpredated

end BusinessApproval
