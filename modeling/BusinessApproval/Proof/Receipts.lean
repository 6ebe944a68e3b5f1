import BusinessApproval.Proof.Bodies
import BusinessApproval.Proof.Reasons
import BusinessApproval.Proof.Replies
import BusinessApproval.Proof.Standard

/-!
# What a caller is told after a damaged reply

A call that has changed a row, but gets a damaged reply, should tell its caller what the
row is, or that the runtime has failed. `damaged_replies` says when it does. A transition
is misled by an array in place of the row's text only, a request by a missing row as well:
its caller is told that the key is in use, and the row is there.
-/

namespace BusinessApproval.D1

open ApprovalService

/-! ## What the caller is told -/

/-- The response shows the stored row, or is a failure of the runtime. -/
def Honest (time : TimeCrate) (r : Response) (a : StoredApproval) : Prop :=
  (r.succeeded = true ∧ Reports time r.field a) ∨ ∃ failure, r.runtimeFailure = some failure

/-- The intent a stored approval carries. -/
def storedIntent (a : StoredApproval) : RequestIntent where
  requestId := a.requestId
  requesterInstance := a.requesterInstance
  idempotencyKey := a.idempotencyKey
  requestedBy := a.requestedBy
  approvalKind := a.approvalKind
  subjectKind := a.subjectKind
  subjectId := a.subjectId
  intentDigest := a.intentDigest
  requestedAt := a.requestedAt
  expiresAt := a.expiresAt

/-- The response to a transition can be made of `b`, and shows something else than of `a`. -/
def LooksOther (time : TimeCrate) (a b : StoredApproval) : Prop :=
  (∃ text, b.field time .terminalAt = some (.optional (some text)))
    ∧ ∃ f ∈ transitionFields, b.field time f ≠ a.field time f

/-- It makes a difference to the caller when `b` is taken for the stored approval `a`. -/
def Mistakes {Ctx : Type} (time : TimeCrate) (call : ServiceCall Ctx) (a b : StoredApproval) :
    Prop :=
  match call with
  | .request _ _ => sameIntent b (storedIntent a) = false ∨ b.status ≠ a.status
  | .decide _ _ => (b.status = .approved ∨ b.status = .rejected) ∧ LooksOther time a b
  | .cancel _ _ => b.status = .cancelled ∧ LooksOther time a b
  | .expire _ _ => b.status = .expired ∧ LooksOther time a b
  | .read _ _ => False

/-- The damaged reply makes the call tell something else than what is stored. -/
def Misleads {Ctx : Type} (time : TimeCrate) (call : ServiceCall Ctx) (a : StoredApproval)
    (d : Json) : Prop :=
  ((∃ context body, call = .request context body) ∧ Emptied d)
    ∨ ∃ b, Misread time d b ∧ Mistakes time call a b

section Honest

variable {Ctx : Type} {time : TimeCrate} {call : ServiceCall Ctx} {a b : StoredApproval} {d : Json}

theorem sameIntent_storedIntent : sameIntent a (storedIntent a) = true :=
  sameIntent_iff.mpr ⟨rfl, rfl, rfl, rfl, rfl, rfl, rfl, rfl, rfl⟩

theorem not_mistakes_self : ¬ Mistakes time call a a := by
  intro h
  unfold Mistakes at h
  have hlooks : ¬ LooksOther time a a := by
    rintro ⟨-, f, -, hne⟩
    exact hne rfl
  split at h
  next =>
    rcases h with h | h
    · rw [sameIntent_storedIntent] at h
      cases h
    · exact h rfl
  next => exact hlooks h.2
  next => exact hlooks h.2
  next => exact hlooks h.2
  next => exact h

/-- A transition's response is the stored row's, unless it can be made and looks other. -/
theorem honest_built {E : Type} (wrap : PluginResult TransitionResponse E → Response)
    {built : Except (PluginError E) TransitionResponse} {right : Prop}
    (hok : ∀ r, (wrap (.ok r)).succeeded = true ∧ (wrap (.ok r)).field = r.field
      ∧ (wrap (.ok r)).runtimeFailure = none)
    (hfails : ∀ failure, (wrap (.error (.runtime failure))).runtimeFailure = some failure)
    (hreports : ∀ r, built = .ok r → right ∧ Reports time r.field b)
    (hruntime : OnlyRuntime built)
    (hmade : right → (∃ text, b.field time .terminalAt = some (.optional (some text))) →
      ∃ r, built = .ok r) :
    Honest time (wrap built) a ↔ ¬ (right ∧ LooksOther time a b) := by
  cases built with
  | error e =>
      -- no response can be built, and the call fails
      obtain ⟨failure, rfl⟩ := hruntime e rfl
      refine ⟨fun _ hlooks => ?_, fun _ => Or.inr ⟨failure, hfails failure⟩⟩
      obtain ⟨r, hr⟩ := hmade hlooks.1 hlooks.2.1
      cases hr
  | ok r =>
      -- the response shows what has been read
      obtain ⟨hsucceeded, hfield, hnone⟩ := hok r
      obtain ⟨hright, hr⟩ := hreports r rfl
      unfold Honest
      rw [hfield, reports_iff hr, hnone]
      constructor
      · rintro (⟨-, hsame⟩ | ⟨failure, hfailure⟩) ⟨-, -, f, hf, hne⟩
        · exact hne (hsame f hf)
        · cases hfailure
      · intro hnot
        refine Or.inl ⟨hsucceeded, fun f hf => ?_⟩
        by_contra hne
        exact hnot ⟨hright, text_of_reports hr, f, hf, hne⟩

/-- When a transition is told that it has left an approval. -/
theorem Responds.honest {kind : Kind}
    {respond : Except StorageError (Except DomainFailure StoredApproval) → Response}
    (h : Responds time call kind respond) (hc : evidenceConsistent b = true) :
    Honest time (respond (.ok (.ok b))) a ↔ ¬ Mistakes time call a b := by
  cases h with
  | decide context body =>
      refine honest_built .decide (fun r => ⟨rfl, rfl, rfl⟩) (fun _ => rfl)
        (fun r hr => ⟨status_of_decideResponse hr, reports_decide hr⟩)
        (onlyRuntime_decideResponse b)
        fun hs ht => decideResponse_isOk (evident_of_consistent hc ?_ ht) hs
      rcases hs with hs | hs <;> rw [hs] <;> decide
  | cancel context body =>
      refine honest_built .cancel (fun r => ⟨rfl, rfl, rfl⟩) (fun _ => rfl)
        (fun r hr => ⟨status_of_cancelResponse hr, reports_cancel hr⟩)
        (onlyRuntime_cancelResponse b)
        fun hs ht => cancelResponse_isOk (evident_of_consistent hc ?_ ht) hs
      rw [hs]
      decide
  | expire context body =>
      refine honest_built .expire (fun r => ⟨rfl, rfl, rfl⟩) (fun _ => rfl)
        (fun r hr => ⟨status_of_expireResponse hr, reports_expire hr⟩)
        (onlyRuntime_expireResponse b)
        fun hs ht => expireResponse_isOk (evident_of_consistent hc ?_ ht) hs
      rw [hs]
      decide

/-- A transition tells the truth unless its reply misleads it. -/
theorem Responds.honest_iff {kind : Kind}
    {respond : Except StorageError (Except DomainFailure StoredApproval) → Response}
    (h : Responds time call kind respond) (caller : String) {row : D1Row}
    (hdamaged : Json.Damaged (batchReply 1 [row]) d) (hrow : StandsFor time row a) :
    Honest time (respond (concludeTransition time kind caller (.ok d))) a
      ↔ ¬ Misleads time call a d := by
  have hnot : ¬ ∃ context body, call = .request context body := by
    rintro ⟨context, body, rfl⟩
    cases h
  have hmisread : ∀ b, Misread time d b →
      concludeTransition time kind caller (.ok d) = .ok (.ok b) := fun b hb =>
    (hb.conclude (passes_of_damaged hdamaged hb.passes).1).1 kind caller
  -- an error is honest, and no misread reply gives one
  have hfailed : (∃ e, concludeTransition time kind caller (.ok d) = .error e) →
      (Honest time (respond (concludeTransition time kind caller (.ok d))) a
        ↔ ¬ Misleads time call a d) := by
    rintro ⟨e, he⟩
    refine ⟨fun _ hmisleads => ?_, fun _ => Or.inr ?_⟩
    · rcases hmisleads with ⟨hrequest, -⟩ | ⟨b, hb, -⟩
      · exact hnot hrequest
      · rw [hmisread b hb] at he
        cases he
    · rw [he]
      cases h with
      | decide | cancel | expire => exact ⟨_, rfl⟩
  cases reading hdamaged hrow with
  | failed htransition hrequest => exact hfailed (htransition kind caller)
  | emptied hempty htransition hrequest => exact hfailed (htransition kind caller)
  | @shown b hb hc htransition hrequest =>
      rw [htransition kind caller, h.honest hc]
      refine not_congr ⟨fun hmistakes => Or.inr ?_, ?_⟩
      · rcases hb with rfl | hb
        · exact absurd hmistakes not_mistakes_self
        · exact ⟨b, hb, hmistakes⟩
      · rintro (⟨hrequest, -⟩ | ⟨b', hb', hmistakes⟩)
        · exact absurd hrequest hnot
        · have heq := (hmisread b' hb').symm.trans (htransition kind caller)
          cases heq
          exact hmistakes

/-- What a request is told about an approval its row gave. -/
theorem honest_request (context : Ctx) (body : RequestRequest) {intent : RequestIntent}
    (hb : evidenceConsistent b = true) :
    Honest time (.request (respondRequest
        (.ok (if sameIntent b intent then .ok ⟨true, b⟩ else .error .idempotencyConflict))))
        (.ofIntent intent)
      ↔ ¬ Mistakes time (.request context body) (.ofIntent intent) b := by
  have hrevision := revision_of_consistent hb
  -- a consistent approval has a revision that can be written
  have hbuilt : (revisionString b.revision : Except (PluginError RequestError) String)
      = .ok (toString b.revision) := by
    unfold revisionString
    rw [if_neg]
    rw [hrevision]
    split <;> decide
  change _ ↔ ¬ (sameIntent b intent = false ∨ b.status ≠ .pending)
  cases hsame : sameIntent b intent with
  | false =>
      refine ⟨fun h => ?_, fun h => absurd (Or.inl rfl) h⟩
      rcases h with ⟨h, -⟩ | ⟨failure, h⟩ <;> cases h
  | true =>
      have hid := (sameIntent_iff.mp hsame).1
      simp only [if_true, respondRequest, hbuilt, Except.map, Bool.true_eq_false, false_or, not_not]
      constructor
      · rintro (⟨-, h⟩ | ⟨failure, h⟩)
        · have hstatus := h.fields .status _ (by decide) rfl
          simp only [StoredApproval.field, StoredApproval.ofIntent, Option.some.injEq,
            FieldValue.status.injEq] at hstatus
          cases hs : b.status <;> rw [hs] at hstatus <;> first | rfl | cases hstatus
        · cases h
      · intro hs
        rw [hs, if_pos rfl] at hrevision
        refine Or.inl ⟨rfl, ?_, ?_, fun _ => rfl, fun f v hf hv => ?_⟩
        · change some (FieldValue.text b.requestId) = _
          rw [hid]
          rfl
        · change some (FieldValue.text (toString b.revision)) = _
          rw [hrevision]
          rfl
        · cases f <;> simp only [Response.field, RequestResponse.field, hs, hrevision, hid,
            reduceCtorEq] at hv <;> first | exact absurd rfl hf | exact hv

/-- A request tells the truth unless its reply misleads it. -/
theorem request_honest_iff (context : Ctx) (body : RequestRequest) {intent : RequestIntent}
    {row : D1Row} (hdamaged : Json.Damaged (batchReply 1 [row]) d)
    (hrow : StandsFor time row (.ofIntent intent)) :
    Honest time (.request (respondRequest (concludeRequest time intent (.ok d)))) (.ofIntent intent)
      ↔ ¬ Misleads time (.request context body) (.ofIntent intent) d := by
  have hmisread : ∀ b, Misread time d b → concludeRequest time intent (.ok d)
      = .ok (if sameIntent b intent then .ok ⟨true, b⟩ else .error .idempotencyConflict) :=
    fun b hb => (hb.conclude (passes_of_damaged hdamaged hb.passes).1).2 intent
  have hmisread' : ∀ b, Misread time d b → concludeTransition time .cancel "" (.ok d)
      = .ok (.ok b) := fun b hb =>
    (hb.conclude (passes_of_damaged hdamaged hb.passes).1).1 .cancel ""
  have hconflict : Emptied d → ∀ intent, concludeRequest time intent (.ok d)
      = .ok (.error .idempotencyConflict) := fun hempty =>
    hempty.conclude (passes_of_damaged hdamaged hempty.passes).1
  cases reading hdamaged hrow with
  | failed htransition hrequest =>
      obtain ⟨e, he⟩ := hrequest intent
      rw [he]
      refine ⟨fun _ hmisleads => ?_, fun _ => Or.inr ⟨_, rfl⟩⟩
      rcases hmisleads with ⟨-, hempty⟩ | ⟨b, hb, -⟩
      · rw [hconflict hempty intent] at he
        cases he
      · rw [hmisread b hb] at he
        cases he
  | emptied hempty htransition hrequest =>
      rw [hrequest intent]
      -- a request that has made its row is told of a conflict
      refine ⟨fun h => ?_, fun h => absurd (Or.inl ⟨⟨context, body, rfl⟩, hempty⟩) h⟩
      rcases h with ⟨h, -⟩ | ⟨failure, h⟩ <;> cases h
  | @shown b hb hc htransition hrequest =>
      rw [hrequest intent, honest_request context body hc]
      refine not_congr ⟨fun hmistakes => Or.inr ?_, ?_⟩
      · rcases hb with rfl | hb
        · exact absurd hmistakes not_mistakes_self
        · exact ⟨b, hb, hmistakes⟩
      · rintro (⟨-, hempty⟩ | ⟨b', hb', hmistakes⟩)
        · -- with its own intent the approval would be the answer
          have heq := (hconflict hempty (storedIntent b)).symm.trans (hrequest (storedIntent b))
          rw [sameIntent_storedIntent, if_pos rfl] at heq
          cases heq
        · have heq := (hmisread' b' hb').symm.trans (htransition .cancel "")
          cases heq
          exact hmistakes

end Honest

/-! ## Calls with a damaged reply -/

/-- The host, when the reply to a batch is damaged on its way back. -/
def performDamaged (damage : Json → Json) (clock : Clock) : Prog.Handler D1Res Table
  | .dateNow, table => perform clock .dateNow table
  | .newDate, table => perform clock .newDate table
  | .batch write condition, table =>
      let (answer, table) := runBatch write condition table
      (answer.map damage, table)
  | .first condition, table => perform clock (.first condition) table

section Calls

variable {Ctx : Type} (deps : Deps Ctx) (config : ApprovalPolicy) (damage : Json → Json)
  (clock : Clock) (call : ServiceCall Ctx) (table : Table)

/-- A call of the service whose batch gets a damaged reply. -/
def serveDamaged : Response × Table :=
  Prog.run (performDamaged damage clock) (body deps config call) table

/-- The batch has changed the table, and its reply was damaged. -/
structure Committed : Prop where
  damaged : ∀ reply, Json.Damaged reply (damage reply)
  reachable : (backend deps).Reachable deps config table
  inYears : clock.InYears
  writes : call.Writes
  changed : (serveDamaged deps config damage clock call table).2 ≠ table

variable {deps} {config} {damage} {clock} {call} {table}

theorem Submits.run_damaged {context : Ctx} {body : RequestRequest} {now : Int}
    {rest : Prog D1Res Response} (h : Submits deps config context body now rest) :
    (Prog.run (performDamaged damage clock) rest table).2
      = (Prog.run (perform clock) rest table).2 := by
  cases h with
  | refused r => rfl
  | sent => rfl

/-- The damage does nothing to the table. -/
theorem Staged.run_damaged {rest : Prog D1Res Response} (h : Staged deps config call rest)
    (hclock : clock.InYears) : (Prog.run (performDamaged damage clock) rest table).2
      = (Prog.run (perform clock) rest table).2 := by
  cases h with
  | answered call r => rfl
  | transition => rfl
  | request h => exact (h clock.dateNow hclock.dateNow).run_damaged
  | read context body id requester => rfl

/-- The row of the call's id, when there is one, stands for an approval afterwards. -/
theorem serveDamaged_stands (h : deps.Lawful)
    (hc : Committed deps config damage clock call table) {id : String} {row : D1Row}
    (hrow : lookup (serveDamaged deps config damage clock call table).2 id = some row) :
    ∃ a, StandsFor deps.time row a := by
  obtain ⟨L, hL⟩ := (implements h).reachable h.time hc.reachable
  obtain ⟨-, hL'⟩ := (implements h).stands_serve config h.time hc.inYears call hL
  have hsame : (serveDamaged deps config damage clock call table).2
      = ((backend deps).serve deps config clock call table).2 :=
    ((body_staged h.time config call).run_damaged hc.inYears).trans
      (congrArg Prod.snd (Prog.run_subst _ _ _ _))
  rw [hsame] at hrow
  obtain ⟨a, -, ha⟩ := hL'.represents.of_lookup hrow
  exact ⟨a, ha⟩

/-- What a call does that has changed the table, and what it was told. -/
inductive Told (deps : Deps Ctx) (call : ServiceCall Ctx) (row : D1Row) (reply : Json) :
    Response → Prop
  | transition {kind : Kind}
      {respond : Except StorageError (Except DomainFailure StoredApproval) → Response}
      (hresponds : Responds deps.time call kind respond) (caller : String) :
      Told deps call row reply (respond (concludeTransition deps.time kind caller (.ok reply)))
  | request {context : Ctx} {body : RequestRequest} {intent : RequestIntent}
      (hcall : call = .request context body) (hrow : StandsFor deps.time row (.ofIntent intent)) :
      Told deps call row reply
        (.request (respondRequest (concludeRequest deps.time intent (.ok reply))))

theorem Submits.told (h : deps.Lawful) {L : Ledger} (hL : Represents deps.time table L)
    {context : Ctx} {body : RequestRequest} {now : Int} {rest : Prog D1Res Response}
    (hsubmits : Submits deps config context body now rest)
    (hchanged : (Prog.run (performDamaged damage clock) rest table).2 ≠ table) :
    ∃ row, lookup (Prog.run (performDamaged damage clock) rest table).2 body.requestId = some row
      ∧ Told deps (.request context body) row (damage (batchReply 1 [row]))
        (Prog.run (performDamaged damage clock) rest table).1 := by
  cases hsubmits with
  | refused r => exact absurd rfl hchanged
  | @sent intent i hsends hid hnow hi =>
      obtain ⟨i', hi', hid', hreq, hkey, hstands⟩ :=
        standsFor_ofIntent h.time hsends.admissible.1 hsends.admissible.2.1
      obtain rfl : i' = i := Option.some.inj (hi'.symm.trans hi)
      have hshares : ∀ row a, StandsFor deps.time row a →
          (sharesKey i' row = true ↔ Ledger.SharesKey intent a) :=
        fun _ _ => sharesKey_iff hid' hreq hkey
      have hrun : Prog.run (performDamaged damage clock)
          (.call (.batch (.insert (D1Row.ofIntent i' (toString (intent.expiresAt.tdiv 1000))))
            (sharesKey i')) fun answer =>
              .ret (Response.request (respondRequest (concludeRequest deps.time intent answer))))
          table = (.request (respondRequest (concludeRequest deps.time intent
            ((runBatch (.insert (D1Row.ofIntent i' (toString (intent.expiresAt.tdiv 1000))))
              (sharesKey i') table).1.map damage))),
            (runBatch (.insert (D1Row.ofIntent i' (toString (intent.expiresAt.tdiv 1000))))
              (sharesKey i') table).2) := rfl
      rw [hrun] at hchanged ⊢
      generalize D1Row.ofIntent i' (toString (intent.expiresAt.tdiv 1000)) = row
        at hchanged hstands ⊢
      unfold runBatch Write.apply at hchanged ⊢
      simp only [hstands.checks, Bool.not_true, Bool.false_eq_true, if_false] at hchanged ⊢
      cases ht : taken table row with
      | true =>
          rw [ht] at hchanged
          exact absurd rfl hchanged
      | false =>
          -- the table has changed, so the insert went through
          simp only [Bool.false_eq_true, if_false, hL.filter_put hstands hshares ht]
          refine ⟨row, ?_, .request rfl hstands⟩
          rw [← hid, show intent.requestId = row.requestId from hstands.requestId.symm]
          exact Keyed.lookup_put_self table row

theorem Staged.told (h : deps.Lawful) {L : Ledger} (hL : Represents deps.time table L)
    {rest : Prog D1Res Response} (hstaged : Staged deps config call rest) (hclock : clock.InYears)
    (hwrites : call.Writes)
    (hchanged : (Prog.run (performDamaged damage clock) rest table).2 ≠ table) :
    ∃ row, lookup (Prog.run (performDamaged damage clock) rest table).2 call.requestId = some row
      ∧ Told deps call row (damage (batchReply 1 [row]))
        (Prog.run (performDamaged damage clock) rest table).1 := by
  cases hstaged with
  | answered call r => exact absurd rfl hchanged
  | read context body id requester => exact hwrites.elim
  | request hsubmits => exact (hsubmits clock.dateNow hclock.dateNow).told h hL hchanged
  | @transition call kind input respond hresponds hproper hid =>
      -- a transition reads its clocks and sends its batch
      have hrun : Prog.run (performDamaged damage clock)
          (.call .newDate fun date => .call .dateNow fun now =>
            .call (.batch (updateOf kind input date now) (fun row => row.requestId == input.id))
              fun answer => .ret (respond (concludeTransition deps.time kind input.caller answer)))
          table = (respond (concludeTransition deps.time kind input.caller
            ((runBatch (updateOf kind input clock.newDate clock.dateNow)
              (fun row => row.requestId == input.id) table).1.map damage)),
            (runBatch (updateOf kind input clock.newDate clock.dateNow)
              (fun row => row.requestId == input.id) table).2) := rfl
      rw [hrun] at hchanged ⊢
      rw [runBatch_transition hL kind input hproper] at hchanged ⊢
      cases hrow : lookup table input.id with
      | none =>
          -- without a row nothing changes
          rw [hrow] at hchanged
          exact absurd rfl hchanged
      | some row =>
          rw [hrow] at hchanged
          simp only at hchanged ⊢
          split at hchanged
          next hmatches =>
            rw [if_pos hmatches]
            refine ⟨settled kind input clock.newDate row, ?_, .transition hresponds _⟩
            rw [← hid, ← key_of_matches hmatches]
            exact Keyed.lookup_put_self table (settled kind input clock.newDate row)
          next => exact absurd rfl hchanged

/-- A call that has changed the table tells what it has left, unless its reply misleads it. -/
theorem Committed.honest_iff (h : deps.Lawful)
    (hc : Committed deps config damage clock call table) :
    ∃ row a, lookup (serveDamaged deps config damage clock call table).2 call.requestId = some row
      ∧ (backend deps).approval row = some a
      ∧ (Honest deps.time (serveDamaged deps config damage clock call table).1 a
        ↔ ¬ Misleads deps.time call a (damage (batchReply 1 [row]))) := by
  obtain ⟨L, hL⟩ := (implements h).reachable h.time hc.reachable
  obtain ⟨row, hrow, htold⟩ := (body_staged h.time config call).told h hL.represents hc.inYears
    hc.writes hc.changed
  obtain ⟨a, ha⟩ := serveDamaged_stands h hc hrow
  refine ⟨row, a, hrow, ha.decodes, ?_⟩
  have hdamaged := hc.damaged (batchReply 1 [row])
  change Honest _ (Prog.run _ _ _).1 a ↔ _
  generalize (Prog.run (performDamaged damage clock) (body deps config call) table).1 = r at htold
  cases htold with
  | transition hresponds caller => exact hresponds.honest_iff caller hdamaged ha
  | request hcall hstands =>
      subst hcall
      obtain rfl := Option.some.inj (ha.decodes.symm.trans hstands.decodes)
      exact request_honest_iff _ _ hdamaged hstands

/-- When damaged replies do not mislead the callers. -/
def DamageRule (deps : Deps Ctx) (config : ApprovalPolicy) : Prop :=
  ∀ damage clock call table, Committed deps config damage clock call table →
    ∃ row a, lookup (serveDamaged deps config damage clock call table).2 call.requestId = some row
      ∧ (backend deps).approval row = some a
      ∧ (Honest deps.time (serveDamaged deps config damage clock call table).1 a
        ↔ ¬ Misleads deps.time call a (damage (batchReply 1 [row])))

end Calls

/-! ## A lost row -/

/-- Damage that takes the rows out of the second statement's results. -/
def loseRows : Json → Json
  | .arr [first, .obj [success, changes, (name, .arr _)]] =>
      .arr [first, .obj [success, changes, (name, .arr [])]]
  | reply => reply

theorem damaged_loseRows (reply : Json) : Json.Damaged reply (loseRows reply) := by
  unfold loseRows
  split
  next first success changes name rows =>
    exact .arr (.cons (.kept first) (.cons (.obj (.cons success.1 (.kept success.2)
      (.cons changes.1 (.kept changes.2) (.cons name (.arr (.none rows)) .nil)))) .nil))
  next => exact .kept _

def submission : ServiceCall Standard.Context :=
  .request Standard.client (Standard.expense "1970-01-01T00:00:10Z")

theorem submission_committed :
    Committed Standard.deps Standard.policy loseRows ⟨0, 0⟩ submission [] where
  damaged := damaged_loseRows
  reachable := ⟨[], List.forall_mem_nil _, rfl⟩
  inYears := ⟨⟨by decide, by decide⟩, ⟨by decide, by decide⟩⟩
  writes := trivial
  changed h := by cases congrArg List.length h

/-- No damage makes a call report something else than what is stored, or a failure. -/
def NeverMisled {Ctx : Type} (deps : Deps Ctx) (config : ApprovalPolicy) : Prop :=
  ∀ damage clock call table, Committed deps config damage clock call table → ∀ a,
    (backend deps).find (serveDamaged deps config damage clock call table).2 call.requestId
      = some a →
    Honest deps.time (serveDamaged deps config damage clock call table).1 a

end BusinessApproval.D1
