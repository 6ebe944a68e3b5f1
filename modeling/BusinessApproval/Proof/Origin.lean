import BusinessApproval.Proof.Serving
import BusinessApproval.Proof.Standard

/-!
# Every stored fact has an authorised origin

What is stored was sent by a call that passed its checks, so it satisfies them:
`Authorised` is what an approval shows of this by itself, and `Decided` names the
call of the run that decided it. Both are kept by every call because a call changes
the ledger only by a store call it may send.
-/

namespace BusinessApproval

open ApprovalService

section Callers

variable {Ctx : Type} {deps : Deps Ctx} {config : ApprovalPolicy} {context : Ctx} {caller : String}

theorem mem_of_containsExact {callers : List String} (h : containsExact callers caller = true) :
    caller ∈ callers := by
  obtain ⟨allowed, hmem, heq⟩ := List.any_eq_true.mp h
  rwa [← beq_iff_eq.mp heq]

/-- An authorized caller is the context's, and satisfies the predicate. -/
theorem of_authorizedCaller {predicate : ApprovalPolicy → String → Bool}
    (h : authorizedCaller deps config context predicate = some caller) :
    deps.callerInstance context = some caller ∧ predicate config caller = true :=
  Option.filter_eq_some_iff.mp h

end Callers

/-! ## What an approval shows -/

/-- What an approval shows of where it came from. -/
structure Authorised (config : ApprovalPolicy) (a : StoredApproval) : Prop where
  requester : a.requesterInstance ∈ config.requesterInstances
  decider : a.status = .approved ∨ a.status = .rejected →
    ∃ caller ∈ config.deciderInstances, a.terminalCallerInstance = some caller
  canceller : a.status = .cancelled → a.terminalCallerInstance = some a.requesterInstance
  expirer : a.status = .expired →
    ∃ caller ∈ config.expirationExecutorInstances, a.terminalCallerInstance = some caller
  fields : FieldsValid a.requestId a.idempotencyKey a.requestedBy a.approvalKind a.subjectKind
    a.subjectId a.intentDigest
  actor : ∀ actor, a.terminalActor = some actor → validReference actor = true
  evidence : ∀ evidence, a.evidenceRef = some evidence → validReference evidence = true
  reason : validReason a.reason = true
  order : a.requestedAt < a.expiresAt
  management : a.subjectKind = "management-operation" → ∃ digest, a.intentDigest = some digest
    ∧ digest.toList.length = 64
    ∧ ∀ c ∈ digest.toList, ('a' ≤ c ∧ c ≤ 'f') ∨ ('0' ≤ c ∧ c ≤ '9')

section Steps

variable {Ctx : Type} {deps : Deps Ctx} {config : ApprovalPolicy} {m : Moments}

/-- What an admitted intent creates is authorised. -/
theorem authorised_ofIntent {context : Ctx} {body : RequestRequest} {caller : String} {now : Int}
    {intent : RequestIntent}
    (hcaller : authorizedCaller deps config context ApprovalPolicy.canRequest = some caller)
    (h : Admits deps.time caller body now intent) : Authorised config (.ofIntent intent) := by
  obtain ⟨expiresAt, -, rfl⟩ := h.deadline
  exact {
    requester := mem_of_containsExact (of_authorizedCaller hcaller).2
    decider := fun hs => by rcases hs with hs | hs <;> cases hs
    canceller := fun hs => by cases hs
    expirer := fun hs => by cases hs
    fields := h.fields
    actor := fun _ ha => by cases ha
    evidence := fun _ he => by cases he
    reason := rfl
    order := h.order
    management := fun hs => by
      obtain ⟨digest, hd⟩ := Option.isSome_iff_exists.mp (h.fields.management hs)
      exact ⟨digest, hd, validIntentDigest_chars (h.fields.intentDigest digest hd)⟩ }

/-- What an admitted settlement leaves is authorised. -/
theorem Authorised.settle {call : ServiceCall Ctx} {o : StoreOp} {id : String} {a : StoredApproval}
    {set : Settlement} (h : Authorised config a) (hsends : Sends deps config call o)
    (hset : Settles o id a set) (instant : Int) : Authorised config (a.settle set instant) := by
  cases hset with
  | decide id status caller actor evidence reason =>
      cases hsends with
      | decide hcaller hhuman hbody =>
          simp only [decisionRefused, Bool.or_eq_false_iff, Bool.not_eq_false'] at hbody
          obtain ⟨⟨⟨-, hactor⟩, hevidence⟩, hreason⟩ := hbody
          exact {
            requester := h.requester
            decider := fun _ => ⟨_, mem_of_containsExact (of_authorizedCaller hcaller).2, rfl⟩
            canceller := fun hs => by
              simp only [StoredApproval.settle, decidedStatus] at hs
              split at hs <;> cases hs
            expirer := fun hs => by
              simp only [StoredApproval.settle, decidedStatus] at hs
              split at hs <;> cases hs
            fields := h.fields
            actor := fun _ ha => Option.some.inj ha ▸ hactor
            evidence := fun _ he => Option.some.inj he ▸ hevidence
            reason := hreason
            order := h.order
            management := h.management }
  | cancel id caller actor reason hrequester =>
      cases hsends with
      | cancel hcaller hbody =>
          simp only [cancellationRefused, Bool.or_eq_false_iff, Bool.not_eq_false'] at hbody
          obtain ⟨⟨-, hactor⟩, hreason⟩ := hbody
          exact {
            requester := h.requester
            decider := fun hs => by rcases hs with hs | hs <;> cases hs
            canceller := fun _ => congrArg some hrequester.symm
            expirer := fun hs => by cases hs
            fields := h.fields
            actor := fun _ ha => Option.some.inj ha ▸ hactor
            evidence := fun _ he => by cases he
            reason := hreason
            order := h.order
            management := h.management }
  | expire id caller =>
      cases hsends with
      | expire hcaller hbody =>
          exact {
            requester := h.requester
            decider := fun hs => by rcases hs with hs | hs <;> cases hs
            canceller := fun hs => by cases hs
            expirer := fun _ => ⟨_, mem_of_containsExact (of_authorizedCaller hcaller).2, rfl⟩
            fields := h.fields
            actor := fun _ ha => by cases ha
            evidence := fun _ he => by cases he
            reason := rfl
            order := h.order
            management := h.management }

/-- Every approval of a ledger is authorised. -/
def Ledger.Authorised (config : ApprovalPolicy) (L : Ledger) : Prop :=
  ∀ id a, L id = some a → BusinessApproval.Authorised config a

/-- **A service call keeps every approval authorised.** -/
theorem ServeChange.authorised {call : ServiceCall Ctx} {L L' : Ledger}
    (hc : ServeChange deps config m call L L') (h : L.Authorised config) :
    L'.Authorised config := by
  intro id a ha
  cases hc with
  | same => exact h id a ha
  | by_ hsends hchange =>
      cases hchange with
      | same => exact h id a ha
      | @created intent heq hid hpair =>
          subst heq
          by_cases hne : id = intent.requestId
          · subst hne
            rw [Function.update_self] at ha
            cases ha
            cases hsends with
            | request hcaller hadmitted => exact authorised_ofIntent hcaller hadmitted
          · rw [Function.update_of_ne hne] at ha
            exact h id a ha
      | @settled id' b set hset hb hp =>
          by_cases hne : id = id'
          · subst hne
            rw [Function.update_self] at ha
            cases ha
            exact (h id b hb).settle hsends hset m.settled
          · rw [Function.update_of_ne hne] at ha
            exact h id a ha

/-- What a decision is made by: a call of an admitted decider, for itself or an admitted human. -/
def DecidedBy (deps : Deps Ctx) (call : ServiceCall Ctx) (a : StoredApproval) : Prop :=
  ∃ context body, call = .decide context body ∧ body.requestId = a.requestId
    ∧ deps.deniesHumanContext context = false
    ∧ deps.callerInstance context = a.terminalCallerInstance

/-- A decided approval was there before the call, or the call decided it. -/
theorem ServeChange.decided {call : ServiceCall Ctx} {L L' : Ledger}
    (hc : ServeChange deps config m call L L') (hL : L.Sound) {id : String} {a : StoredApproval}
    (ha : L' id = some a) (hs : a.status = .approved ∨ a.status = .rejected) :
    L id = some a ∨ DecidedBy deps call a ∧ ∃ b, L id = some b ∧ b.status = .pending := by
  cases hc with
  | same => exact Or.inl ha
  | by_ hsends hchange =>
      cases hchange with
      | same => exact Or.inl ha
      | @created intent heq hid hpair =>
          by_cases hne : id = intent.requestId
          · subst hne
            rw [Function.update_self] at ha
            cases ha
            rcases hs with hs | hs <;> cases hs
          · rw [Function.update_of_ne hne] at ha
            exact Or.inl ha
      | @settled id' b set hset hb hp =>
          by_cases hne : id = id'
          · subst hne
            rw [Function.update_self] at ha
            cases ha
            refine Or.inr ⟨?_, b, hb, hp⟩
            cases hset with
            | decide =>
                cases hsends with
                | @decide context body caller hcaller hhuman hbody =>
                    exact ⟨context, body, rfl, (hL.wellKeyed.ids hb).symm, hhuman,
                      (of_authorizedCaller hcaller).1⟩
            | cancel => rcases hs with hs | hs <;> cases hs
            | expire => rcases hs with hs | hs <;> cases hs
          · rw [Function.update_of_ne hne] at ha
            exact Or.inl ha

end Steps

/-! ## Whole runs -/

section Runs

variable {Ctx Clock State Row : Type}

/-- Some call of a run found the row pending, and left it as it is. -/
def Decided (B : Backend Clock State Row) (deps : Deps Ctx) (config : ApprovalPolicy)
    (calls : List (Clock × ServiceCall Ctx)) (row : Row) (a : StoredApproval) : Prop :=
  ∃ (n : Nat) (clock : Clock) (call : ServiceCall Ctx), calls[n]? = some (clock, call)
    ∧ DecidedBy deps call a
    ∧ (∃ b, B.find (B.before deps config calls B.empty n) a.requestId = some b
      ∧ b.status = .pending)
    ∧ B.row (B.before deps config calls B.empty (n + 1)) a.requestId = some row

/-- Every row a run leaves has an authorised origin. -/
def AuthorisedOrigin (B : Backend Clock State Row) (deps : Deps Ctx) (config : ApprovalPolicy) :
    Prop :=
  ∀ calls, B.Timely calls →
    ∀ id row, B.row (B.run deps config calls B.empty).2 id = some row →
      ∃ a, B.approval row = some a ∧ a.requestId = id ∧ Authorised config a
        ∧ (a.status = .approved ∨ a.status = .rejected → Decided B deps config calls row a)

namespace Implements

variable {B : Backend Clock State Row} {represents : State → Ledger → Prop}
  {moments : Clock → Moments} {deps : Deps Ctx} (config : ApprovalPolicy)

theorem before_authorised (hB : Implements B represents moments) (hlaw : deps.time.Lawful)
    {calls : List (Clock × ServiceCall Ctx)} (hcalls : B.Timely calls) :
    ∃ L, Stands represents (B.run deps config calls B.empty).2 L ∧ L.Authorised config :=
  Prog.runAll_inv (I := fun s => ∃ L, Stands represents s L ∧ L.Authorised config)
    (fun c hc s hs => by
      obtain ⟨L, hstands, hauth⟩ := hs
      obtain ⟨-, hnext⟩ := hB.stands_serve config hlaw (hcalls c hc) c.2 hstands
      exact ⟨_, hnext, (serve_change config hlaw (hB.inYears (hcalls c hc)) L c.2).authorised hauth⟩)
    ⟨Ledger.empty, hB.stands_empty, fun _ _ ha => by cases ha⟩

/-- A decision of the ledger was made by some call so far, and has not changed since. -/
theorem decided_before (hB : Implements B represents moments) (hlaw : deps.time.Lawful)
    {calls : List (Clock × ServiceCall Ctx)} (hcalls : B.Timely calls) (n : Nat) {L : Ledger}
    (hL : Stands represents (B.before deps config calls B.empty n) L) {id : String}
    {a : StoredApproval} (ha : L id = some a) (hs : a.status = .approved ∨ a.status = .rejected) :
    ∃ (k : Nat) (clock : Clock) (call : ServiceCall Ctx) (L₀ L₁ : Ledger),
      calls[k]? = some (clock, call) ∧ DecidedBy deps call a
        ∧ Stands represents (B.before deps config calls B.empty k) L₀
        ∧ (∃ b, L₀ id = some b ∧ b.status = .pending)
        ∧ Stands represents (B.before deps config calls B.empty (k + 1)) L₁ ∧ L₁ id = some a := by
  induction n generalizing L with
  | zero =>
      -- before the first call there is no approval
      have hempty : L = Ledger.empty := by
        funext id
        rw [← hB.find hL.represents, ← hB.find hB.empty]
        rfl
      rw [hempty] at ha
      cases ha
  | succ n ih =>
      obtain ⟨L₀, hL₀⟩ := hB.stands_before config hlaw hcalls n
      cases hn : calls[n]? with
      | none =>
          -- past the end of the calls nothing more happens
          have hsame : B.before deps config calls B.empty (n + 1)
              = B.before deps config calls B.empty n := by
            have hlen := List.getElem?_eq_none_iff.mp hn
            rw [Backend.before, Backend.before, Prog.before, Prog.before,
              List.take_of_length_le hlen, List.take_of_length_le (by omega)]
          rw [hsame] at hL
          exact ih hL ha
      | some c =>
          obtain ⟨clock, call⟩ := c
          have hclock := hcalls _ (List.mem_of_getElem? hn)
          obtain ⟨-, hnext⟩ := hB.stands_serve config hlaw hclock call hL₀
          rw [← Backend.before_succ hn] at hnext
          have hchange : ServeChange deps config (moments clock) call L₀ _ :=
            serve_change config hlaw (hB.inYears hclock) L₀ call
          -- the two ledgers that describe the state agree on every id
          have hsame : L = (L₀.serve deps config (moments clock) call).2 := by
            funext id
            rw [← hB.find hL.represents, ← hB.find hnext.represents]
          rw [hsame] at ha
          rcases hchange.decided hL₀.sound ha hs with hold | ⟨hby, hpending⟩
          · exact ih hL₀ hold
          · exact ⟨n, clock, call, L₀, _, hn, hby, hL₀, hpending, hnext, ha⟩

theorem authorisedOrigin (hB : Implements B represents moments) (hlaw : deps.time.Lawful) :
    AuthorisedOrigin B deps config := by
  intro calls hcalls id row hrow
  obtain ⟨L, hL, hauth⟩ := hB.before_authorised config hlaw hcalls
  obtain ⟨a, hdecodes⟩ := hB.decodes hL.represents id row hrow
  have ha : L id = some a := by
    rw [← hB.find hL.represents, Backend.find, hrow]
    exact hdecodes
  have hid := hL.sound.wellKeyed.ids ha
  refine ⟨a, hdecodes, hid, hauth id a ha, fun hs => ?_⟩
  rw [← Backend.before_length] at hL hrow
  obtain ⟨k, clock, call, L₀, L₁, hk, hby, hL₀, ⟨b, hb, hp⟩, hL₁, ha₁⟩ :=
    hB.decided_before config hlaw hcalls calls.length hL ha hs
  refine ⟨k, clock, call, hk, hby, ⟨b, ?_, hp⟩, ?_⟩
  · rw [hid, hB.find hL₀.represents, hb]
  · rw [hid, hB.row_eq hL₁.represents hL.represents id (by rw [ha₁, ha]), hrow]

end Implements

/-- **On either backend, every stored fact has an authorised origin**, in the years 0 to 9999. -/
theorem origin_is_authorised (deps : Deps Ctx) (h : deps.Lawful) (config : ApprovalPolicy) :
    AuthorisedOrigin (Postgres.backend deps) deps config
      ∧ AuthorisedOrigin (D1.backend deps) deps config :=
  ⟨(Postgres.implements h).authorisedOrigin config h.time,
    (D1.implements h).authorisedOrigin config h.time⟩

theorem origin_is_authorised_standard :
    AuthorisedOrigin (Postgres.backend Standard.deps) Standard.deps Standard.policy
      ∧ AuthorisedOrigin (D1.backend Standard.deps) Standard.deps Standard.policy :=
  origin_is_authorised Standard.deps Standard.deps_lawful Standard.policy

end Runs

end BusinessApproval
