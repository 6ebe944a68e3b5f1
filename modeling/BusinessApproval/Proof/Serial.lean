import BusinessApproval.Proof.Batches
import BusinessApproval.Proof.Reasons
import BusinessApproval.Proof.Standard

/-!
# D1 under concurrency and lost replies

The batches of all clients, in the order in which they were carried out, are service calls
made one after another. So whatever holds of the service when calls are made alone holds
here: a row is settled by one batch at most and then stays, an answer that came through
tells what the batch did, and what a refusal says was true of the table the batch met.
A client whose answer was lost knows nothing; its batch did all it was asked for, or nothing.
-/

namespace BusinessApproval.D1

open ApprovalService

variable {Ctx : Type} {deps : Deps Ctx} {config : ApprovalPolicy}

/-! ## The chain of batches -/

/-- A call made in a reachable state leads to a reachable state. -/
theorem reachable_serve {table : Table} (h : (backend deps).Reachable deps config table)
    {clock : Clock} (hclock : clock.InYears) (call : ServiceCall Ctx) :
    (backend deps).Reachable deps config
      ((backend deps).serve deps config clock call table).2 := by
  obtain ⟨calls, hcalls, rfl⟩ := h
  refine ⟨calls ++ [(clock, call)], fun c hc => ?_, ?_⟩
  · rcases List.mem_append.mp hc with hc | hc
    · exact hcalls c hc
    · rw [List.mem_singleton.mp hc]
      exact hclock
  · rw [Backend.run, Prog.runAll_append]
    rfl

section Chains

variable {table : Table} {log : List Executed}

/-- A batch served a call alone, on the table it met. -/
def Executed.Alone (deps : Deps Ctx) (config : ApprovalPolicy) (e : Executed) : Prop :=
  ∃ call clock, clock.InYears
    ∧ e.after = ((backend deps).serve deps config clock call e.before).2

/-- Every table of a chain is one that calls made alone lead to. -/
theorem Chain.reachable (hchain : Chain table log) (hlog : ∀ e ∈ log, e.Alone deps config) :
    (backend deps).Reachable deps config table
      ∧ ∀ e ∈ log, (backend deps).Reachable deps config e.before := by
  induction log generalizing table with
  | nil =>
      obtain rfl : table = [] := hchain
      exact ⟨⟨[], List.forall_mem_nil _, rfl⟩, List.forall_mem_nil _⟩
  | cons e log ih =>
      obtain ⟨rfl, hchain⟩ := hchain
      obtain ⟨hbefore, hrest⟩ := ih hchain fun e' he' => hlog e' (List.mem_cons_of_mem _ he')
      obtain ⟨call, clock, hclock, hafter⟩ := hlog e List.mem_cons_self
      refine ⟨hafter ▸ reachable_serve hbefore hclock call, fun e' he' => ?_⟩
      -- the newest batch, or an older one
      rcases List.mem_cons.mp he' with rfl | he'
      · exact hbefore
      · exact hrest e' he'

/-- What a batch leaves moves on to what is there now. -/
theorem Chain.evolves (h : deps.Lawful) (hchain : Chain table log)
    (hlog : ∀ e ∈ log, e.Alone deps config) {e : Executed} (he : e ∈ log) {L : Ledger}
    (hL : Stands (Represents deps.time) e.after L) :
    ∃ L', Stands (Represents deps.time) table L' ∧ L.Evolves L' := by
  induction log generalizing table with
  | nil => cases he
  | cons e₀ log ih =>
      obtain ⟨rfl, hchain⟩ := hchain
      -- the batch is the newest one, or others have come after it
      rcases List.mem_cons.mp he with rfl | he
      · exact ⟨L, hL, .refl L⟩
      · obtain ⟨L₁, hL₁, hev⟩ := ih hchain (fun e' he' => hlog e' (List.mem_cons_of_mem _ he')) he
        obtain ⟨call, clock, hclock, hafter⟩ := hlog e₀ List.mem_cons_self
        obtain ⟨-, hL₂⟩ := (implements h).stands_serve config h.time hclock call hL₁
        rw [← hafter] at hL₂
        exact ⟨_, hL₂, hev.trans ((serve_change config h.time ((implements h).inYears hclock) L₁
          call).evolves hL₁.sound)⟩

/-- A batch changes a row that is there. -/
def Executed.Changes (e : Executed) (id : String) : Prop :=
  ∃ row, lookup e.before id = some row ∧ lookup e.after id ≠ some row

/-- A row that changes goes from pending to settled. -/
theorem Executed.Alone.settles (h : deps.Lawful) {e : Executed} (he : e.Alone deps config)
    {L : Ledger} (hL : Stands (Represents deps.time) e.before L) {id : String}
    (hc : e.Changes id) : ∃ L' a b, Stands (Represents deps.time) e.after L'
      ∧ L id = some a ∧ a.status = .pending ∧ L' id = some b ∧ b.status ≠ .pending := by
  obtain ⟨call, clock, hclock, hafter⟩ := he
  obtain ⟨row, hrow, hne⟩ := hc
  obtain ⟨-, hL'⟩ := (implements h).stands_serve config h.time hclock call hL
  have hev := (serve_change config h.time ((implements h).inYears hclock) L call).evolves hL.sound
  rw [← hafter] at hL'
  obtain ⟨a, ha, -⟩ := hL.represents.of_lookup hrow
  obtain ⟨b, hb, hab⟩ := hev id a ha
  -- an approval that has stayed has kept its row
  rcases hab.moves with rfl | ⟨hp, -, hs, -⟩
  · have hsame : lookup e.after id = lookup e.before id :=
      (implements h).row_eq hL'.represents hL.represents id (hb.trans ha.symm)
    exact absurd (hsame.trans hrow) hne
  · exact ⟨_, a, b, hL', ha, hp, hb, hs⟩

/-- What a batch has settled stays as it is. -/
theorem Chain.settled (h : deps.Lawful) (hchain : Chain table log)
    (hlog : ∀ e ∈ log, e.Alone deps config) {e : Executed} (he : e ∈ log) {id : String}
    (hc : e.Changes id) : ∃ L a, Stands (Represents deps.time) table L ∧ L id = some a
      ∧ a.status ≠ .pending ∧ lookup table id = lookup e.after id := by
  obtain ⟨L₀, hL₀⟩ := (implements h).reachable h.time ((hchain.reachable hlog).2 e he)
  obtain ⟨L₁, a, b, hL₁, -, -, hb, hs⟩ := (hlog e he).settles h hL₀ hc
  obtain ⟨L₂, hL₂, hev⟩ := hchain.evolves h hlog he hL₁
  obtain ⟨c, hc', hbc⟩ := hev id b hb
  obtain rfl := hbc.frozen hs
  exact ⟨L₂, c, hL₂, hc', hs,
    (implements h).row_eq hL₂.represents hL₁.represents id (hc'.trans hb.symm)⟩

/-- **A row is changed by one batch at most.** -/
theorem Chain.once (h : deps.Lawful) (hchain : Chain table log)
    (hlog : ∀ e ∈ log, e.Alone deps config) {e e' : Executed} (he : e ∈ log) (he' : e' ∈ log)
    {id : String} (hc : e.Changes id) (hc' : e'.Changes id) : e = e' := by
  induction log generalizing table with
  | nil => cases he
  | cons e₀ log ih =>
      obtain ⟨-, hchain⟩ := hchain
      have hrest : ∀ e ∈ log, e.Alone deps config := fun e he =>
        hlog e (List.mem_cons_of_mem _ he)
      -- the newest batch meets what an older one has settled
      have hnewest : ∀ e ∈ log, e.Changes id → ¬ e₀.Changes id := by
        intro e he hc hc₀
        obtain ⟨L, a, hL, ha, hs, -⟩ := hchain.settled h hrest he hc
        obtain ⟨-, b, -, -, hb, hp, -, -⟩ := (hlog e₀ List.mem_cons_self).settles h hL hc₀
        rw [ha] at hb
        cases hb
        exact hs hp
      rcases List.mem_cons.mp he with rfl | hold
      · rcases List.mem_cons.mp he' with rfl | hold'
        · rfl
        · exact absurd hc (hnewest e' hold' hc')
      · rcases List.mem_cons.mp he' with rfl | hold'
        · exact absurd hc' (hnewest e hold hc)
        · exact ih hchain hrest hold hold'

/-- An approval that is new is pending. -/
theorem Executed.Alone.pending_of_new (h : deps.Lawful) {e : Executed} (he : e.Alone deps config)
    (hreachable : (backend deps).Reachable deps config e.before) {id : String}
    (hnone : lookup e.before id = none) {a : StoredApproval}
    (ha : (backend deps).find e.after id = some a) : a.status = .pending := by
  have hnew : ¬ lookup e.after id = lookup e.before id := by
    intro hsame
    have hrow : (backend deps).row e.after id = none := hsame.trans hnone
    rw [Backend.find, hrow] at ha
    cases ha
  obtain ⟨call, clock, hclock, hafter⟩ := he
  obtain ⟨L, hL⟩ := (implements h).reachable h.time hreachable
  have halters := hafter ▸ (implements h).alters h.time hclock call hL
  rcases halters with hsame | halters
  · exact absurd (hsame id) hnew
  · cases halters with
    | @created intent hsends hnow hfree hcreated hframe =>
        -- the approval that has been created, or another one
        by_cases hid : id = intent.requestId
        · subst hid
          cases hcreated.symm.trans ha
          rfl
        · exact absurd (hframe id hid) hnew
    | @settled o id' b set hsends hset hb hp hdue hsettled hframe =>
        by_cases hid : id = id'
        -- nothing was there to be settled
        · subst hid
          have hrow : (backend deps).row e.before id = none := hnone
          rw [Backend.find, hrow] at hb
          cases hb
        · exact absurd (hframe id hid) hnew

/-- A settled row was settled by a batch. -/
theorem Chain.settler (h : deps.Lawful) (hchain : Chain table log)
    (hlog : ∀ e ∈ log, e.Alone deps config) {id : String} {a : StoredApproval}
    (ha : (backend deps).find table id = some a) (hs : a.status ≠ .pending) :
    ∃ e ∈ log, e.Changes id := by
  induction log generalizing table with
  | nil =>
      obtain rfl : table = [] := hchain
      cases ha
  | cons e₀ log ih =>
      obtain ⟨-, hserved⟩ := hchain.reachable hlog
      obtain ⟨rfl, hchain⟩ := hchain
      by_cases hc : e₀.Changes id
      · exact ⟨e₀, List.mem_cons_self, hc⟩
      · -- it was there before the newest batch
        have hold : (backend deps).find e₀.before id = some a := by
          cases hrow : lookup e₀.before id with
          | some row =>
              have hafter : lookup e₀.after id = some row := by
                by_contra hne
                exact hc ⟨row, hrow, hne⟩
              exact (congrArg (fun row => Option.bind row (backend deps).approval)
                (hrow.trans hafter.symm)).trans ha
          | none =>
              exact absurd ((hlog e₀ List.mem_cons_self).pending_of_new h
                (hserved e₀ List.mem_cons_self) hrow ha) hs
        obtain ⟨e, he, hchanges⟩ := ih hchain
          (fun e he => hlog e (List.mem_cons_of_mem _ he)) hold
        exact ⟨e, List.mem_cons_of_mem _ he, hchanges⟩

end Chains

/-! ## What clients can rely on -/

/-- A table the answer of a client can be about: the one its batch met, if it had one. -/
def Place (deps : Deps Ctx) (config : ApprovalPolicy) (d : Database) (t : Nat) (table : Table) :
    Prop :=
  (∃ e ∈ d.log, e.client = t ∧ table = e.before)
    ∨ ((∀ e ∈ d.log, e.client ≠ t) ∧ (backend deps).Reachable deps config table)

/-- The clock reads of a client's transition are on record, and this is what they gave. -/
structure ReadBy (d : Database) (t : Nat) (clock : Clock) : Prop where
  date : d.dates t = some clock.newDate
  now : d.nows t = some clock.dateNow

/-- The row of a request id is settled, by the call of the batch's client. -/
structure SettledBy (deps : Deps Ctx) (config : ApprovalPolicy) (w : World Ctx) (e : Executed)
    (id : String) : Prop where
  settlement : ∃ call clock o a set, (w.clients e.client).call = some call
    ∧ ReadBy w.shared e.client clock ∧ Sends deps config call o ∧ Settles o id a set
    ∧ (backend deps).find e.before id = some a ∧ a.status = .pending
    ∧ (backend deps).find w.shared.table id = some (a.settle set (clock.newDate * 1000000))

/-- What concurrent clients of D1 can rely on, whatever fails. -/
structure Safe (deps : Deps Ctx) (config : ApprovalPolicy) (w : World Ctx) : Prop where
  /-- A row is changed by one batch at most. -/
  once : ∀ id, ∀ e ∈ w.shared.log, ∀ e' ∈ w.shared.log, e.Changes id → e'.Changes id → e = e'
  /-- It is settled as that batch's call has asked for, and stays so. -/
  evidence : ∀ id, ∀ e ∈ w.shared.log, e.Changes id → SettledBy deps config w e id
  /-- No row is settled otherwise. -/
  settled : ∀ id a, (backend deps).find w.shared.table id = some a → a.status ≠ .pending →
    ∃ e ∈ w.shared.log, e.Changes id
  /-- A success reports the row that the call's batch left. -/
  success : ∀ t call r, w.clients t = .finished call r → call.Writes → r.succeeded = true →
    ∃ e ∈ w.shared.log, e.client = t ∧ ∃ a, (backend deps).find e.after call.requestId = some a
      ∧ Reports deps.time r.field a
  /-- A refusal is right where the call's batch stood, and the batch has changed nothing. -/
  refused : ∀ t call r, w.clients t = .finished call r → call.Writes → r.refused = true →
    (∀ e ∈ w.shared.log, e.client = t → ∀ id, lookup e.after id = lookup e.before id)
      ∧ ∃ clock, Consistent w.shared t clock ∧ ∀ table, Place deps config w.shared t table →
        Reason (backend deps) deps config (clock.dateNow * 1000000) table call r
  /-- When it fails, the batch has changed nothing, or has done all it was asked for. -/
  failed : ∀ t call r failure, w.clients t = .finished call r → r.runtimeFailure = some failure →
    ∀ e ∈ w.shared.log, e.client = t →
      (∀ id, lookup e.after id = lookup e.before id)
        ∨ ∃ clock, Consistent w.shared t clock
          ∧ Alters (backend deps) deps config clock.moments call e.before e.after

section Safe

variable {w : World Ctx}

theorem Inv.alone (h : Inv deps config w) : ∀ e ∈ w.shared.log, e.Alone deps config := by
  intro e he
  obtain ⟨call, clock, -, hcarried⟩ := h.carried e he
  exact ⟨call, clock, hcarried.consistent.inYears, hcarried.after⟩

/-- A batch is its client's only one. -/
theorem Inv.unique (h : Inv deps config w) {e e' : Executed} (he : e ∈ w.shared.log)
    (he' : e' ∈ w.shared.log) (ht : e.client = e'.client) : e = e' :=
  List.inj_on_of_nodup_map h.once he he' ht

/-- A client's batch did what its call does. -/
theorem Inv.carried_by (h : Inv deps config w) {t : Nat} {call : ServiceCall Ctx}
    (hcall : (w.clients t).call = some call) {e : Executed} (he : e ∈ w.shared.log)
    (ht : e.client = t) : ∃ clock, Carried deps config w.shared call e clock := by
  obtain ⟨call', clock, hcall', hcarried⟩ := h.carried e he
  rw [ht, hcall] at hcall'
  cases hcall'
  exact ⟨clock, hcarried⟩

/-- A batch leaves the rows as they are, or alters one as its call does. -/
theorem Inv.alters (hlaw : deps.Lawful) (h : Inv deps config w) {call : ServiceCall Ctx}
    {e : Executed} (he : e ∈ w.shared.log) {clock : Clock}
    (hc : Carried deps config w.shared call e clock) :
    (∀ id, lookup e.after id = lookup e.before id)
      ∨ Alters (backend deps) deps config clock.moments call e.before e.after := by
  obtain ⟨L, hL⟩ := (implements hlaw).reachable hlaw.time
    ((h.chain.reachable h.alone).2 e he)
  rw [hc.after]
  exact (implements hlaw).alters hlaw.time hc.consistent.inYears call hL

/-- A call that settles has read both clocks before its batch. -/
theorem Carried.readBy {d : Database} {call : ServiceCall Ctx} {e : Executed} {clock : Clock}
    (hc : Carried deps config d call e clock) {o : StoreOp} {id : String} {a : StoredApproval}
    {set : Settlement} (hsends : Sends deps config call o) (hset : Settles o id a set) :
    ReadBy d e.client clock := by
  have hboth : (d.dates e.client).isSome = true ∧ (d.nows e.client).isSome = true := by
    cases hset <;> cases hsends <;> exact hc.informed
  obtain ⟨date, hdate⟩ := Option.isSome_iff_exists.mp hboth.1
  obtain ⟨now, hnow⟩ := Option.isSome_iff_exists.mp hboth.2
  exact ⟨hdate.trans (congrArg some (hc.consistent.date date hdate).symm),
    hnow.trans (congrArg some (hc.consistent.now now hnow).symm)⟩

/-- **Who settled a row, and how**: the call of the batch's client, as it does alone. -/
theorem Inv.settlement (hlaw : deps.Lawful) (h : Inv deps config w) {id : String} {e : Executed}
    (he : e ∈ w.shared.log) (hchanges : e.Changes id) :
    ∃ call clock o a set, (w.clients e.client).call = some call
      ∧ Carried deps config w.shared call e clock ∧ Sends deps config call o ∧ Settles o id a set
      ∧ (backend deps).find e.before id = some a ∧ a.status = .pending
      ∧ (set.status = .expired → a.expiresAt ≤ clock.dateNow * 1000000)
      ∧ (backend deps).find w.shared.table id = some (a.settle set (clock.newDate * 1000000)) := by
  obtain ⟨call, clock, hcall, hcarried⟩ := h.carried e he
  obtain ⟨row, hrow, hne⟩ := hchanges
  obtain ⟨L, a, hL, -, -, hrows⟩ := h.chain.settled hlaw h.alone he ⟨row, hrow, hne⟩
  rcases h.alters hlaw he hcarried with hsame | halters
  · exact absurd ((hsame id).trans hrow) hne
  · cases halters with
    | @created intent hsends hnow hfree hnew hframe =>
        -- what is created was not there before
        by_cases hid : id = intent.requestId
        · obtain ⟨L₀, hL₀⟩ := (implements hlaw).reachable hlaw.time
            ((h.chain.reachable h.alone).2 e he)
          obtain ⟨b, hb, -⟩ := hL₀.represents.of_lookup hrow
          have hfind := ((implements hlaw).find hL₀.represents id).trans hb
          exact absurd ((hL₀.sound.wellKeyed.ids hb).trans hid) (hfree id b hfind).1
        · exact absurd ((hframe id hid).trans hrow) hne
    | @settled o id' a set hsends hset ha hp hdue hnew hframe =>
        -- the row that has changed is the one that is settled
        have hid : id = id' := by
          by_contra hid
          exact hne ((hframe id hid).trans hrow)
        subst hid
        refine ⟨call, clock, o, a, set, hcall, hcarried, hsends, hset, ha, hp, hdue, ?_⟩
        exact (congrArg (fun row => Option.bind row _) hrows).trans hnew

theorem Inv.settledBy (hlaw : deps.Lawful) (h : Inv deps config w) {id : String} {e : Executed}
    (he : e ∈ w.shared.log) (hchanges : e.Changes id) : SettledBy deps config w e id := by
  obtain ⟨call, clock, o, a, set, hcall, hcarried, hsends, hset, ha, hp, -, hnew⟩ :=
    h.settlement hlaw he hchanges
  exact ⟨call, clock, o, a, set, hcall, hcarried.readBy hsends hset, hsends, hset, ha, hp, hnew⟩

/-- What is known of a client that has its answer. -/
theorem Inv.done (h : Inv deps config w) {t : Nat} {call : ServiceCall Ctx} {r : Response}
    (hr : w.clients t = .finished call r) : Done deps config w.shared t call r := by
  have hok := h.clients t
  rw [hr] at hok
  cases hok with
  | finished hd => exact hd

/-- No call that writes succeeds on the empty table and leaves it empty. -/
theorem serve_empty_refuses (hlaw : deps.Lawful) {clock : Clock} (hclock : clock.InYears)
    {call : ServiceCall Ctx} (hwrites : call.Writes) {r : Response}
    (hserve : (backend deps).serve deps config clock call [] = (r, [])) :
    r.succeeded = false := by
  have hempty := (implements hlaw).stands_empty
  obtain ⟨hresponse, hL'⟩ := (implements hlaw).stands_serve config hlaw.time hclock call hempty
  change ((backend deps).serve deps config clock call []).1 = _ at hresponse
  change Stands _ ((backend deps).serve deps config clock call []).2 _ at hL'
  rw [hserve] at hresponse hL'
  change r = _ at hresponse
  cases hsuccess : r.succeeded with
  | false => rfl
  | true =>
      -- a success shows an approval, and there is none
      obtain ⟨v, hv⟩ := Response.field_of_succeeded hsuccess
      rw [hresponse] at hv
      obtain ⟨a, ha, -⟩ := serve_reports_own hlaw.time ((implements hlaw).inYears hclock)
        Ledger.sound_empty hwrites hv
      rw [hL'.represents.of_lookup_none rfl] at ha
      cases ha

/-- A success reports what the call's batch has left. -/
theorem Inv.success (hlaw : deps.Lawful) (h : Inv deps config w) {t : Nat}
    {call : ServiceCall Ctx} {r : Response} (hr : w.clients t = .finished call r)
    (hwrites : call.Writes) (hsuccess : r.succeeded = true) :
    ∃ e ∈ w.shared.log, e.client = t ∧ ∃ a, (backend deps).find e.after call.requestId = some a
      ∧ Reports deps.time r.field a := by
  cases h.done hr with
  | @answered e clock he ht hc hafter =>
      obtain ⟨L, hL⟩ := (implements hlaw).reachable hlaw.time
        ((h.chain.reachable h.alone).2 e he)
      obtain ⟨hresponse, hL'⟩ :=
        (implements hlaw).stands_serve config hlaw.time hc.inYears call hL
      obtain ⟨v, hv⟩ := Response.field_of_succeeded hsuccess
      rw [hresponse] at hv
      obtain ⟨a, ha, hreports⟩ := serve_reports_own hlaw.time
        ((implements hlaw).inYears hc.inYears) hL.sound hwrites hv
      refine ⟨e, he, ht, a, ?_, hresponse ▸ hreports⟩
      rw [hafter, (implements hlaw).find hL'.represents, ha]
  | lost he ht hfailure =>
      rw [(Response.of_runtimeFailure hfailure).1] at hsuccess
      cases hsuccess
  | guarded hnone hc hserve =>
      -- without a batch it would succeed on the empty table as well
      rw [serve_empty_refuses hlaw hc.inYears hwrites (hserve [])] at hsuccess
      cases hsuccess
  | observed hnone hread =>
      obtain ⟨context, body, rfl⟩ := hread
      exact hwrites.elim
  | failed hnone hfailure =>
      rw [(Response.of_runtimeFailure hfailure).1] at hsuccess
      cases hsuccess

/-- A refusal is right where the call's batch stood, if it had one. -/
theorem Inv.refused (hlaw : deps.Lawful) (h : Inv deps config w) {t : Nat}
    {call : ServiceCall Ctx} {r : Response} (hr : w.clients t = .finished call r)
    (hwrites : call.Writes) (hrefused : r.refused = true) :
    (∀ e ∈ w.shared.log, e.client = t → ∀ id, lookup e.after id = lookup e.before id)
      ∧ ∃ clock, Consistent w.shared t clock ∧ ∀ table, Place deps config w.shared t table →
        Reason (backend deps) deps config (clock.dateNow * 1000000) table call r := by
  have hreason : ∀ {clock : Clock}, clock.InYears → ∀ {table : Table},
      (backend deps).Reachable deps config table →
      ((backend deps).serve deps config clock call table).1.refused = true →
      Reason (backend deps) deps config (clock.dateNow * 1000000) table call
          ((backend deps).serve deps config clock call table).1
        ∧ ∀ id, lookup ((backend deps).serve deps config clock call table).2 id
          = lookup table id :=
    fun hclock => (implements hlaw).reason hlaw.time hclock rfl hwrites
  cases h.done hr with
  | @answered e clock he ht hc hafter =>
      obtain ⟨hwhy, hrows⟩ := hreason hc.inYears ((h.chain.reachable h.alone).2 e he) hrefused
      rw [← hafter] at hrows
      refine ⟨fun e' he' ht' => ?_, clock, hc, fun table hplace => ?_⟩
      · -- a client has one batch in the log, the one it was answered by
        obtain rfl := h.unique he he' (ht.trans ht'.symm)
        exact hrows
      · rcases hplace with ⟨e', he', ht', rfl⟩ | ⟨hnone, -⟩
        · obtain rfl := h.unique he he' (ht.trans ht'.symm)
          exact hwhy
        · exact absurd ht (hnone e he)
  | lost he ht hfailure =>
      rw [(Response.of_runtimeFailure hfailure).2] at hrefused
      cases hrefused
  | @guarded clock r hnone hc hserve =>
      refine ⟨fun e he ht => absurd ht (hnone e he), clock, hc, fun table hplace => ?_⟩
      rcases hplace with ⟨e, he, ht, -⟩ | ⟨-, hreachable⟩
      · exact absurd ht (hnone e he)
      · have hwhy := (hreason hc.inYears hreachable (by rw [hserve]; exact hrefused)).1
        rw [hserve] at hwhy
        exact hwhy
  | observed hnone hread =>
      obtain ⟨context, body, rfl⟩ := hread
      exact hwrites.elim
  | failed hnone hfailure =>
      rw [(Response.of_runtimeFailure hfailure).2] at hrefused
      cases hrefused

/-- **D1 is safe under concurrency and lost replies.** -/
theorem Inv.safe (hlaw : deps.Lawful) (h : Inv deps config w) : Safe deps config w where
  once id e he e' he' := h.chain.once hlaw h.alone he he'
  evidence id e he := h.settledBy hlaw he
  settled id a ha hs := h.chain.settler hlaw h.alone ha hs
  success t call r hr hwrites hsuccess := h.success hlaw hr hwrites hsuccess
  refused t call r hr hwrites hrefused := h.refused hlaw hr hwrites hrefused
  failed t call r failure hr hfailure e he ht := by
    obtain ⟨clock, hcarried⟩ := h.carried_by (by rw [hr]; rfl) he ht
    rcases h.alters hlaw he hcarried with hsame | halters
    · exact Or.inl hsame
    · exact Or.inr ⟨clock, ht ▸ hcarried.consistent, halters⟩

end Safe

/--
**D1 stays safe under concurrency and lost replies**, for any number of clients and any
order of their batches. Clocks are read in the years 0 to 9999.
-/
theorem safe_under_concurrency (deps : Deps Ctx) (h : deps.Lawful) (config : ApprovalPolicy)
    (w : World Ctx) (hw : Running deps config w) : Safe deps config w :=
  (Running.inv h.time hw).safe h

/-! ## A lost answer -/

def ask : ServiceCall Standard.Context :=
  .request Standard.client (Standard.expense "1970-01-01T00:00:10Z")

def approve : ServiceCall Standard.Context :=
  .decide Standard.console ⟨"apr_expense", .approved, "usr_manager", "email-1", none⟩

def withdraw : ServiceCall Standard.Context :=
  .cancel Standard.client ⟨"apr_expense", "usr_requester", none⟩

/-- The answer to a decision is lost; a cancellation then meets what it has settled. -/
theorem lost_reply : ∃ w, Running Standard.deps Standard.policy w
    ∧ w.clients 1 = .finished approve (.decide (.error (storageRuntime .unavailable)))
    ∧ w.clients 2 = .finished withdraw (.cancel (.error (.domain .alreadyTerminal))) := by
  have h : Running Standard.deps Standard.policy _ := .initial
  replace h := h.step (.invoke 0 ask rfl)
  replace h := h.step (.answer (t := 0) rfl (.dateNow 0 ⟨by decide, by decide⟩))
  replace h := h.step (.answer (t := 0) rfl (.batch rfl))
  replace h := h.step (.respond (t := 0) rfl)
  -- a cancellation has read its clocks when the decision comes first
  replace h := h.step (.invoke 2 withdraw rfl)
  replace h := h.step (.answer (t := 2) rfl (.newDate 1000 ⟨by decide, by decide⟩))
  replace h := h.step (.answer (t := 2) rfl (.dateNow 1000 ⟨by decide, by decide⟩))
  replace h := h.step (.invoke 1 approve rfl)
  replace h := h.step (.answer (t := 1) rfl (.newDate 1001 ⟨by decide, by decide⟩))
  replace h := h.step (.answer (t := 1) rfl (.dateNow 1001 ⟨by decide, by decide⟩))
  replace h := h.step (.answer (t := 1) rfl (.lost "connection lost" rfl))
  replace h := h.step (.respond (t := 1) rfl)
  replace h := h.step (.answer (t := 2) rfl (.batch rfl))
  replace h := h.step (.respond (t := 2) rfl)
  exact ⟨_, h, rfl, rfl⟩

theorem safe_under_concurrency_lost_reply : ∃ w,
    w.clients 1 = .finished approve (.decide (.error (storageRuntime .unavailable)))
      ∧ w.clients 2 = .finished withdraw (.cancel (.error (.domain .alreadyTerminal)))
      ∧ Running Standard.deps Standard.policy w ∧ Safe Standard.deps Standard.policy w := by
  obtain ⟨w, h, hlost, hrefused⟩ := lost_reply
  exact ⟨w, hlost, hrefused, h,
    safe_under_concurrency Standard.deps Standard.deps_lawful Standard.policy w h⟩

end BusinessApproval.D1
