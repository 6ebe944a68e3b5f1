import BusinessApproval.Proof.Origin
import BusinessApproval.Proof.Outcomes
import BusinessApproval.Proof.Reasons

/-!
# No approval is stuck

Every refusal of a transition has its reason, but is there always somebody left who is not
refused? There is: what is pending can be settled by whoever asked for it, at any time, by
every decider, and from its deadline on by every expiration executor. So a sweep settles what
is due, whatever the list of ids it works from, and no run leads to a state from which the
pending approvals cannot all be settled.
-/

namespace BusinessApproval

open ApprovalService

variable {Ctx Clock State Row : Type}

section Permitted

variable {deps : Deps Ctx} {config : ApprovalPolicy} {context : Ctx} {caller : String}

theorem containsExact_of_mem {callers : List String} (h : caller ∈ callers) :
    containsExact callers caller = true :=
  List.any_eq_true.mpr ⟨caller, h, beq_self_eq_true caller⟩

theorem permitted_of_mem {predicate : ApprovalPolicy → String → Bool}
    (hc : deps.callerInstance context = some caller) (h : predicate config caller = true) :
    permitted deps config context predicate = true := by
  rw [permitted, hc, Option.any_some, h]

end Permitted

/-! ## One approval -/

/-- A call succeeds, and what it settles is all that changes. -/
structure SettlesTo (B : Backend Clock State Row) (s : State) (id : String)
    (settled : StoredApproval) (result : Response × State) : Prop where
  succeeded : result.1.succeeded = true
  settled : B.find result.2 id = some settled
  others : ∀ id', id' ≠ id → B.find result.2 id' = B.find s id'

/-- What is pending in a reachable state, and what is known of it. -/
structure PendingIn (B : Backend Clock State Row) (deps : Deps Ctx) (config : ApprovalPolicy)
    (s : State) (id : String) (a : StoredApproval) : Prop where
  reachable : B.Reachable deps config s
  found : B.find s id = some a
  pending : a.status = .pending

namespace Implements

variable {B : Backend Clock State Row} {represents : State → Ledger → Prop}
  {moments : Clock → Moments} {deps : Deps Ctx} {config : ApprovalPolicy}

/-- What is stored is authorised, and under its id. -/
theorem stored (hB : Implements B represents moments) (hlaw : deps.time.Lawful) {s : State}
    (hs : B.Reachable deps config s) {id : String} {a : StoredApproval}
    (ha : B.find s id = some a) : Authorised config a ∧ a.requestId = id := by
  obtain ⟨calls, hcalls, rfl⟩ := hs
  obtain ⟨L, hL, hauth⟩ := hB.before_authorised config hlaw hcalls
  rw [hB.find hL.represents] at ha
  exact ⟨hauth id a ha, hL.sound.wellKeyed.ids ha⟩

theorem valid_stored (hB : Implements B represents moments) (hlaw : deps.time.Lawful) {s : State}
    (hs : B.Reachable deps config s) {id : String} {a : StoredApproval}
    (ha : B.find s id = some a) : validRequestId id = true := by
  obtain ⟨hauth, rfl⟩ := hB.stored hlaw hs ha
  exact hauth.fields.requestId

/-- A transition that nothing refuses settles the approval. -/
theorem settlesTo {E : Type} {context : Ctx} {s : State}
    {wrap : PluginResult TransitionResponse E → Response} {id : String} {settling : Settling}
    {instant : Int} {result : Response × State} {caller : String} {a : StoredApproval}
    (hwrap : ∀ r, (wrap (.ok r)).succeeded = true)
    (hout : Outcome B deps context s wrap id settling instant none result)
    (hcaller : deps.callerInstance context = some caller) (ha : B.find s id = some a) :
    SettlesTo B s id (a.settle (settling caller) instant) result := by
  obtain ⟨caller', a', r, hcaller', ha', hsettled, hr, -, hrows⟩ := hout.made rfl
  cases hcaller.symm.trans hcaller'
  cases ha.symm.trans ha'
  refine ⟨hr ▸ hwrap r, hsettled, fun id' hid => ?_⟩
  rw [Backend.find, Backend.find, hrows id' hid]

/-- **Who asked for an approval can always take it back.** -/
theorem cancel_settles (hB : Implements B represents moments) (hlaw : deps.time.Lawful) {s : State}
    {a : StoredApproval} {context : Ctx} (body : CancelRequest)
    (h : PendingIn B deps config s body.requestId a) {clock : Clock} (hclock : B.inYears clock)
    (hcaller : deps.callerInstance context = some a.requesterInstance)
    (hby : validReference body.cancelledBy = true) (hreason : validReason body.reason = true) :
    SettlesTo B s body.requestId
      (a.settle (cancelSettling body a.requesterInstance) (moments clock).settled)
      (B.serve deps config clock (.cancel context body) s) := by
  -- who has requested it is on the list
  have hpermitted : permitted deps config context ApprovalPolicy.canRequest = true :=
    permitted_of_mem hcaller
      (containsExact_of_mem (hB.stored hlaw h.reachable h.found).1.requester)
  have hid := hB.valid_stored hlaw h.reachable h.found
  have hnone : cancelRefusal deps config context body (B.find s body.requestId) = none := by
    rw [h.found, cancelRefusal]
    simp [firstOf_eq_none, hpermitted, hid, hby, hreason, hcaller, h.pending]
  have hout := (hB.transitionsExact hlaw).cancel s h.reachable clock hclock context body
  rw [hnone] at hout
  exact settlesTo (fun _ => rfl) hout hcaller h.found

/-- **Every decider can decide.** -/
theorem decide_settles (hB : Implements B represents moments) (hlaw : deps.time.Lawful) {s : State}
    {a : StoredApproval} {context : Ctx} {caller : String} (body : DecideRequest)
    (h : PendingIn B deps config s body.requestId a) {clock : Clock} (hclock : B.inYears clock)
    (hcaller : deps.callerInstance context = some caller)
    (hdecider : caller ∈ config.deciderInstances) (hhuman : deps.deniesHumanContext context = false)
    (hby : validReference body.decidedBy = true) (hevidence : validReference body.evidenceRef = true)
    (hreason : validReason body.reason = true) :
    SettlesTo B s body.requestId (a.settle (decideSettling body caller) (moments clock).settled)
      (B.serve deps config clock (.decide context body) s) := by
  have hpermitted : permitted deps config context ApprovalPolicy.canDecide = true :=
    permitted_of_mem hcaller (containsExact_of_mem hdecider)
  have hid := hB.valid_stored hlaw h.reachable h.found
  have hnone : decideRefusal deps config context body (B.find s body.requestId) = none := by
    rw [h.found, decideRefusal]
    simp [firstOf_eq_none, hpermitted, hhuman, hid, hby, hevidence, hreason, h.pending]
  have hout := (hB.transitionsExact hlaw).decide s h.reachable clock hclock context body
  rw [hnone] at hout
  exact settlesTo (fun _ => rfl) hout hcaller h.found

/-- **Every expiration executor can expire what is due.** -/
theorem expire_settles (hB : Implements B represents moments) (hlaw : deps.time.Lawful) {s : State}
    {a : StoredApproval} {context : Ctx} {caller : String} (body : ExpireRequest)
    (h : PendingIn B deps config s body.requestId a) {clock : Clock} (hclock : B.inYears clock)
    (hcaller : deps.callerInstance context = some caller)
    (hexecutor : caller ∈ config.expirationExecutorInstances)
    (hdue : a.expiresAt ≤ (moments clock).due) :
    SettlesTo B s body.requestId (a.settle (expireSettling caller) (moments clock).settled)
      (B.serve deps config clock (.expire context body) s) := by
  have hpermitted : permitted deps config context ApprovalPolicy.canExpire = true :=
    permitted_of_mem hcaller (containsExact_of_mem hexecutor)
  have hid := hB.valid_stored hlaw h.reachable h.found
  have hnone : expireRefusal deps config context body (moments clock).due
      (B.find s body.requestId) = none := by
    rw [h.found, expireRefusal]
    simp [firstOf_eq_none, hpermitted, hid, h.pending, hdue]
  have hout := (hB.transitionsExact hlaw).expire s h.reachable clock hclock context body
  rw [hnone] at hout
  exact settlesTo (fun _ => rfl) hout hcaller h.found

end Implements

/-! ## A sweep -/

section Sweep

variable (B : Backend Clock State Row) (moments : Clock → Moments)

/-- A sweep: an id at a time, each at its own time. -/
def sweep (context : Ctx) (visits : List (Clock × String)) : List (Clock × ServiceCall Ctx) :=
  visits.map fun visit => (visit.1, .expire context ⟨visit.2⟩)

/-- The first visit of an id at which an approval is due. -/
def dueVisit (visits : List (Clock × String)) (id : String) (a : StoredApproval) :
    Option (Clock × String) :=
  visits.find? fun visit => visit.2 == id && decide (a.expiresAt ≤ (moments visit.1).due)

/-- What a sweep leaves of an approval: what is pending expires at the first such visit. -/
def swept (caller : String) (visits : List (Clock × String)) (id : String) (a : StoredApproval) :
    StoredApproval :=
  if a.status = .pending then
    (dueVisit moments visits id a).elim a fun visit =>
      a.settle (expireSettling caller) (moments visit.1).settled
  else a

variable {B} {moments} {represents : State → Ledger → Prop} {deps : Deps Ctx}
  {config : ApprovalPolicy}

theorem Backend.Reachable.serve {s : State} (h : B.Reachable deps config s) {clock : Clock}
    (hclock : B.inYears clock) (call : ServiceCall Ctx) :
    B.Reachable deps config (B.serve deps config clock call s).2 := by
  obtain ⟨calls, hcalls, rfl⟩ := h
  refine ⟨calls ++ [(clock, call)], fun c hc => ?_, ?_⟩
  · rcases List.mem_append.mp hc with hc | hc
    · exact hcalls c hc
    · rw [List.mem_singleton.mp hc]
      exact hclock
  · rw [Backend.run, Prog.runAll_append]
    rfl

theorem swept_single (caller : String) (clock : Clock) (visited id : String) (a : StoredApproval) :
    swept moments caller [(clock, visited)] id a
      = if a.status = .pending ∧ visited = id ∧ a.expiresAt ≤ (moments clock).due then
          a.settle (expireSettling caller) (moments clock).settled
        else a := by
  unfold swept dueVisit
  by_cases hp : a.status = .pending
  · by_cases hid : visited = id
    · by_cases hdue : a.expiresAt ≤ (moments clock).due <;> simp [hp, hid, hdue]
    · simp [hid]
  · simp [hp]

/-- What has been settled is not settled again. -/
theorem swept_cons (caller : String) (visit : Clock × String) (visits : List (Clock × String))
    (id : String) (a : StoredApproval) : swept moments caller (visit :: visits) id a
      = swept moments caller visits id (swept moments caller [visit] id a) := by
  obtain ⟨clock, visited⟩ := visit
  rw [swept_single]
  split
  next h =>
    -- this visit settles it
    obtain ⟨hp, rfl, hdue⟩ := h
    have hsettled : (a.settle (expireSettling caller) (moments clock).settled).status ≠ .pending :=
      fun h => by cases h
    rw [swept, if_pos hp, swept, if_neg hsettled, dueVisit, List.find?_cons_of_pos (by simpa)]
    rfl
  next h =>
    -- this visit changes nothing
    unfold swept
    by_cases hp : a.status = .pending
    · have hskip : dueVisit moments ((clock, visited) :: visits) id a
          = dueVisit moments visits id a := by
        refine List.find?_cons_of_neg fun hvisit => ?_
        simp only [Bool.and_eq_true, beq_iff_eq, decide_eq_true_eq] at hvisit
        exact h ⟨hp, hvisit⟩
      rw [if_pos hp, if_pos hp, hskip]
    · rw [if_neg hp, if_neg hp]

/-- One visit. -/
theorem Implements.visit (hB : Implements B represents moments) (hlaw : deps.time.Lawful)
    {s : State} (hs : B.Reachable deps config s) {context : Ctx} {caller : String}
    (hcaller : deps.callerInstance context = some caller)
    (hexecutor : caller ∈ config.expirationExecutorInstances) {clock : Clock}
    (hclock : B.inYears clock) (visited id : String) :
    B.find (B.serve deps config clock (.expire context ⟨visited⟩) s).2 id
      = (B.find s id).map (swept moments caller [(clock, visited)] id) := by
  by_cases hdue : ∃ a, B.find s visited = some a ∧ a.status = .pending
      ∧ a.expiresAt ≤ (moments clock).due
  · obtain ⟨a, ha, hp, hdue⟩ := hdue
    have hsettles : SettlesTo B s visited
        (a.settle (expireSettling caller) (moments clock).settled)
        (B.serve deps config clock (.expire context ⟨visited⟩) s) :=
      hB.expire_settles hlaw ⟨visited⟩ ⟨hs, ha, hp⟩ hclock hcaller hexecutor hdue
    -- only the approval that is visited changes
    by_cases hid : id = visited
    · subst hid
      rw [hsettles.settled, ha, Option.map_some, swept_single, if_pos ⟨hp, rfl, hdue⟩]
    · rw [hsettles.others id hid]
      cases B.find s id with
      | none => rfl
      | some b => rw [Option.map_some, swept_single, if_neg fun h => hid h.2.1.symm]
  -- the visit is refused, and every row stays
  · have hout := (hB.transitionsExact hlaw).expire s hs clock hclock context ⟨visited⟩
    have hsame : ∀ id', B.row (B.serve deps config clock (.expire context ⟨visited⟩) s).2 id'
        = B.row s id' := by
      cases hrefusal : expireRefusal deps config context ⟨visited⟩ (moments clock).due
          (B.find s visited) with
      | some e => exact (hout.refused e hrefusal).2
      | none =>
          obtain ⟨-, a, -, -, ha, -⟩ := hout.made hrefusal
          rw [ha, expireRefusal] at hrefusal
          simp [firstOf_eq_none] at hrefusal
          exact absurd ⟨a, ha, hrefusal.2.2.1, hrefusal.2.2.2⟩ hdue
    rw [Backend.find, hsame id, ← Backend.find]
    cases ha : B.find s id with
    | none => rfl
    | some a =>
        rw [Option.map_some, swept_single, if_neg]
        rintro ⟨hp, rfl, h⟩
        exact hdue ⟨a, ha, hp, h⟩

/-- **A sweep settles what is due when it comes to it**, once, and nothing else. -/
theorem Implements.run_sweep (hB : Implements B represents moments) (hlaw : deps.time.Lawful)
    {s : State} (hs : B.Reachable deps config s) {context : Ctx} {caller : String}
    (hcaller : deps.callerInstance context = some caller)
    (hexecutor : caller ∈ config.expirationExecutorInstances) {visits : List (Clock × String)}
    (hclocks : ∀ visit ∈ visits, B.inYears visit.1) (id : String) :
    B.find (B.run deps config (sweep context visits) s).2 id
      = (B.find s id).map (swept moments caller visits id) := by
  induction visits generalizing s with
  | nil =>
      have hnil : swept moments caller [] id = fun a => a := by
        funext a
        unfold swept dueVisit
        simp
      rw [hnil]
      exact Option.map_id'.symm
  | cons visit visits ih =>
      -- the first visit, and then the others
      have hclock := hclocks visit List.mem_cons_self
      have hrest := ih (hs.serve hclock (.expire context ⟨visit.2⟩))
        fun v hv => hclocks v (List.mem_cons_of_mem _ hv)
      rw [sweep, List.map_cons, Backend.run, Prog.runAll_cons]
      refine hrest.trans ?_
      rw [hB.visit hlaw hs hcaller hexecutor hclock, Option.map_map]
      exact congrArg (fun f => (B.find s id).map f)
        (funext fun a => (swept_cons caller visit visits id a).symm)

end Sweep

/-! ## All of them -/

section Withdrawal

variable {B : Backend Clock State Row} {represents : State → Ledger → Prop}
  {moments : Clock → Moments} {deps : Deps Ctx} {config : ApprovalPolicy}

/-- So many approvals at most. -/
def Ledger.Within (L : Ledger) (ids : List String) : Prop := ∀ id a, L id = some a → id ∈ ids

theorem Ledger.Change.within {m : Moments} {o : StoreOp} {L L' : Ledger} (h : L.Change m o L')
    {ids : List String} (hL : L.Within ids) : ∃ ids', L'.Within ids' := by
  cases h with
  | same => exact ⟨ids, hL⟩
  | @created intent ho hid hpair =>
      refine ⟨intent.requestId :: ids, fun id a ha => ?_⟩
      by_cases heq : id = intent.requestId
      · exact heq ▸ List.mem_cons_self
      · rw [Function.update_of_ne heq] at ha
        exact List.mem_cons_of_mem _ (hL id a ha)
  | @settled settledId b set hset hb hp =>
      refine ⟨ids, fun id a ha => ?_⟩
      by_cases heq : id = settledId
      · exact heq ▸ hL settledId b hb
      · rw [Function.update_of_ne heq] at ha
        exact hL id a ha

/-- A run has created so many approvals only. -/
theorem Implements.within (hB : Implements B represents moments) (hlaw : deps.time.Lawful)
    {s : State} (hs : B.Reachable deps config s) :
    ∃ ids : List String, ∀ id a, B.find s id = some a → id ∈ ids := by
  obtain ⟨calls, hcalls, rfl⟩ := hs
  obtain ⟨L, ids, hL, hids⟩ : ∃ L ids,
      Stands represents (B.run deps config calls B.empty).2 L ∧ L.Within ids :=
    Prog.runAll_inv (I := fun s => ∃ L ids, Stands represents s L ∧ L.Within ids)
      (fun c hc s hs => by
        obtain ⟨L, ids, hstands, hids⟩ := hs
        obtain ⟨-, hnext⟩ := hB.stands_serve config hlaw (hcalls c hc) c.2 hstands
        have hchange := serve_change config hlaw (hB.inYears (hcalls c hc)) L c.2
        generalize (L.serve deps config (moments c.1) c.2).2 = L' at hnext hchange
        cases hchange with
        | same => exact ⟨L, ids, hnext, hids⟩
        | by_ hsends h =>
            obtain ⟨ids', hids'⟩ := h.within hids
            exact ⟨_, ids', hnext, hids'⟩)
      ⟨Ledger.empty, [], hB.stands_empty, fun id a ha => by cases ha⟩
  refine ⟨ids, fun id a ha => hids id a ?_⟩
  rwa [← hB.find hL.represents]

/-- An approval that its requester has taken back, in the name of who it was asked for by. -/
def withdrawn (instant : Int) (a : StoredApproval) : StoredApproval :=
  a.settle ⟨.cancelled, a.requesterInstance, some a.requestedBy, none, none⟩ instant

/-- Calls at one time that succeed, and after which nothing among these ids is pending. -/
theorem Implements.withdraw_all (hB : Implements B represents moments) (hlaw : deps.time.Lawful)
    (hcontexts : ∀ caller ∈ config.requesterInstances,
      ∃ context, deps.callerInstance context = some caller)
    {clock : Clock} (hclock : B.inYears clock) (ids : List String) {s : State}
    (hs : B.Reachable deps config s) : ∃ calls : List (Clock × ServiceCall Ctx),
      (∀ c ∈ calls, c.1 = clock) ∧ (∀ r ∈ (B.run deps config calls s).1, r.succeeded = true)
        ∧ ∀ id, B.find (B.run deps config calls s).2 id = (B.find s id).map fun a =>
          if a.status = .pending ∧ id ∈ ids then withdrawn (moments clock).settled a else a := by
  induction ids generalizing s with
  | nil =>
      refine ⟨[], fun c hc => absurd hc List.not_mem_nil, fun r hr => absurd hr List.not_mem_nil,
        fun id => ?_⟩
      simp only [List.not_mem_nil, and_false, if_false]
      exact Option.map_id'.symm
  | cons first ids ih =>
      by_cases hfirst : ∃ a, B.find s first = some a ∧ a.status = .pending
      · obtain ⟨a, ha, hp⟩ := hfirst
        obtain ⟨hauth, -⟩ := hB.stored hlaw hs ha
        obtain ⟨context, hcaller⟩ := hcontexts _ hauth.requester
        -- the first one is cancelled, and then the others are
        have hsettles : SettlesTo B s first (withdrawn (moments clock).settled a)
            (B.serve deps config clock (.cancel context ⟨first, a.requestedBy, none⟩) s) :=
          hB.cancel_settles hlaw ⟨first, a.requestedBy, none⟩ ⟨hs, ha, hp⟩ hclock hcaller
            hauth.fields.requestedBy rfl
        obtain ⟨calls, hclocks, hsucceed, hfind⟩ :=
          ih (hs.serve hclock (.cancel context ⟨first, a.requestedBy, none⟩))
        refine ⟨(clock, .cancel context ⟨first, a.requestedBy, none⟩) :: calls, ?_, ?_, fun id => ?_⟩
        · exact List.forall_mem_cons.mpr ⟨rfl, hclocks⟩
        · exact List.forall_mem_cons.mpr ⟨hsettles.succeeded, hsucceed⟩
        · refine (hfind id).trans ?_
          by_cases hid : id = first
          · subst hid
            have hsettled : (withdrawn (moments clock).settled a).status ≠ .pending :=
              fun h => by cases h
            rw [hsettles.settled, ha]
            simp [hp, hsettled]
          · rw [hsettles.others id hid]
            simp [hid]
      · obtain ⟨calls, hclocks, hsucceed, hfind⟩ := ih hs
        refine ⟨calls, hclocks, hsucceed, fun id => (hfind id).trans ?_⟩
        cases ha : B.find s id with
        | none => rfl
        | some a =>
            by_cases hid : id = first
            · subst hid
              have hp : a.status ≠ .pending := fun hp => hfirst ⟨a, ha, hp⟩
              simp [hp]
            · simp [hid]

end Withdrawal

/-! ## Both backends -/

/-- In every reachable state somebody can settle what is pending. -/
structure NothingStuck (B : Backend Clock State Row) (deps : Deps Ctx) (config : ApprovalPolicy)
    (moments : Clock → Moments) : Prop where
  /-- Who asked for it can, at any time. -/
  cancel : ∀ s context body a, PendingIn B deps config s body.requestId a → ∀ clock,
    B.inYears clock → deps.callerInstance context = some a.requesterInstance →
    validReference body.cancelledBy = true → validReason body.reason = true →
    SettlesTo B s body.requestId
      (a.settle (cancelSettling body a.requesterInstance) (moments clock).settled)
      (B.serve deps config clock (.cancel context body) s)
  /-- So can every decider. -/
  decide : ∀ s context body a, PendingIn B deps config s body.requestId a → ∀ clock,
    B.inYears clock → ∀ caller ∈ config.deciderInstances,
    deps.callerInstance context = some caller → deps.deniesHumanContext context = false →
    validReference body.decidedBy = true → validReference body.evidenceRef = true →
    validReason body.reason = true →
    SettlesTo B s body.requestId (a.settle (decideSettling body caller) (moments clock).settled)
      (B.serve deps config clock (.decide context body) s)
  /-- And every expiration executor, from the deadline on. -/
  expire : ∀ s context body a, PendingIn B deps config s body.requestId a → ∀ clock,
    B.inYears clock → ∀ caller ∈ config.expirationExecutorInstances,
    deps.callerInstance context = some caller → a.expiresAt ≤ (moments clock).due →
    SettlesTo B s body.requestId (a.settle (expireSettling caller) (moments clock).settled)
      (B.serve deps config clock (.expire context body) s)
  /-- A sweep expires each approval of its list at the first visit at which it is due. -/
  swept : ∀ s, B.Reachable deps config s → ∀ context caller,
    deps.callerInstance context = some caller → caller ∈ config.expirationExecutorInstances →
    ∀ visits : List (Clock × String), (∀ visit ∈ visits, B.inYears visit.1) → ∀ id,
      B.find (B.run deps config (sweep context visits) s).2 id
        = (B.find s id).map (swept moments caller visits id)
  /-- And the requesters can always take back all that is pending, whatever the time. -/
  withdrawn : (∀ caller ∈ config.requesterInstances,
      ∃ context, deps.callerInstance context = some caller) →
    ∀ s, B.Reachable deps config s → ∀ clock, B.inYears clock →
      ∃ calls : List (Clock × ServiceCall Ctx), (∀ c ∈ calls, c.1 = clock)
        ∧ (∀ r ∈ (B.run deps config calls s).1, r.succeeded = true)
        ∧ ∀ id, B.find (B.run deps config calls s).2 id = (B.find s id).map fun a =>
          if a.status = .pending then withdrawn (moments clock).settled a else a

theorem Implements.nothingStuck {B : Backend Clock State Row}
    {represents : State → Ledger → Prop} {moments : Clock → Moments} {deps : Deps Ctx}
    (hB : Implements B represents moments) (hlaw : deps.time.Lawful) (config : ApprovalPolicy) :
    NothingStuck B deps config moments where
  cancel _ _ body _ h _ hclock hcaller hby hreason :=
    hB.cancel_settles hlaw body h hclock hcaller hby hreason
  decide _ _ body _ h _ hclock _ hdecider hcaller hhuman hby hevidence hreason :=
    hB.decide_settles hlaw body h hclock hcaller hdecider hhuman hby hevidence hreason
  expire _ _ body _ h _ hclock _ hexecutor hcaller hdue :=
    hB.expire_settles hlaw body h hclock hcaller hexecutor hdue
  swept _ hs _ _ hcaller hexecutor _ hclocks id :=
    hB.run_sweep hlaw hs hcaller hexecutor hclocks id
  withdrawn hcontexts s hs clock hclock := by
    -- there are finitely many approvals
    obtain ⟨ids, hids⟩ := hB.within hlaw hs
    obtain ⟨calls, hclocks, hsucceed, hfind⟩ := hB.withdraw_all hlaw hcontexts hclock ids hs
    refine ⟨calls, hclocks, hsucceed, fun id => (hfind id).trans ?_⟩
    cases ha : B.find s id with
    | none => rfl
    | some a => simp [hids id a ha]

/-- **No approval is stuck**, on either backend, in the years 0 to 9999. -/
theorem nothing_stuck (deps : Deps Ctx) (h : deps.Lawful) (config : ApprovalPolicy) :
    NothingStuck (Postgres.backend deps) deps config Postgres.Clock.moments
      ∧ NothingStuck (D1.backend deps) deps config D1.Clock.moments :=
  ⟨(Postgres.implements h).nothingStuck h.time config,
    (D1.implements h).nothingStuck h.time config⟩

theorem nothing_stuck_standard :
    NothingStuck (Postgres.backend Standard.deps) Standard.deps Standard.policy
        Postgres.Clock.moments
      ∧ NothingStuck (D1.backend Standard.deps) Standard.deps Standard.policy D1.Clock.moments :=
  nothing_stuck Standard.deps Standard.deps_lawful Standard.policy

end BusinessApproval
