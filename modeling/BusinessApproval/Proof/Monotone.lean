import BusinessApproval.Proof.Responses
import BusinessApproval.Proof.Serving
import BusinessApproval.Proof.Standard

/-!
# All observers agree on the life of an approval

A successful response, whichever operation it answers, reports an approval as the
call leaves it: `serve_reports`. What two responses of a run say of one approval
then differs only as far as the approval has moved on in between, and a settled
approval does not move.
-/

namespace BusinessApproval

/-! ## What a call reports of the ledger it leaves -/

section Serve

variable {Ctx : Type} {deps : Deps Ctx} {config : ApprovalPolicy}

theorem reports_request {time : TimeCrate} {out : RequestOutcome}
    (hcreated : out.created = true → out.approval.revision = 1) {f : Field} {v : FieldValue}
    (hv : (Response.request (ApprovalService.respondRequest (.ok (.ok out)))).field f = some v) :
    Reports time (Response.request (ApprovalService.respondRequest (.ok (.ok out)))).field
      out.approval := by
  simp only [ApprovalService.respondRequest] at hv ⊢
  cases hrev : (revisionString out.approval.revision : Except (PluginError RequestError) String) with
  | error e => rw [hrev] at hv; cases hv
  | ok revision =>
      rw [revisionString_ok hrev]
      refine ⟨rfl, rfl, fun hc => hcreated ?_, fun f v hf hv => ?_⟩
      · exact FieldValue.flag.inj (Option.some.inj hc)
      · cases f with
        | created => exact absurd rfl hf
        | _ =>
            simp only [Except.map, Response.field, RequestResponse.field, StoredApproval.field,
              reduceCtorEq] at hv ⊢ <;> exact hv

/-- A transition's response reports the approval it has settled. -/
theorem reports_settled {E : Type} {time : TimeCrate} {mapFailure : DomainFailure → E}
    {build : StoredApproval → Except (PluginError E) TransitionResponse}
    {wrap : PluginResult TransitionResponse E → Response} {L : Ledger} (hL : L.WellKeyed)
    {id : String} {refuse : StoredApproval → Option DomainFailure} {set : Settlement}
    {instant : Int} (hbuild : ∀ a r, build a = .ok r → Reports time r.field a)
    (herror : ∀ e, (wrap (.error e)).field = fun _ => none)
    (hok : ∀ r, (wrap (.ok r)).field = r.field) {f : Field} {v : FieldValue}
    (hv : (wrap (ApprovalService.respondTransition mapFailure build
      (.ok (L.settle id refuse set instant).1))).field f = some v) :
    ∃ a, (L.settle id refuse set instant).2 a.requestId = some a
      ∧ Reports time (wrap (ApprovalService.respondTransition mapFailure build
        (.ok (L.settle id refuse set instant).1))).field a := by
  cases ha : (L.settle id refuse set instant).1 with
  | error failure =>
      rw [ha, ApprovalService.respondTransition, herror] at hv
      cases hv
  | ok a =>
      rw [ha, ApprovalService.respondTransition] at hv
      rw [ApprovalService.respondTransition]
      cases hr : build a with
      | error e =>
          rw [hr, herror] at hv
          cases hv
      | ok r =>
          rw [hok]
          exact ⟨a, Ledger.settle_ok hL ha, hbuild a r hr⟩

/-- A call that is turned away reports nothing. -/
theorem TurnedAway.no_field {m : Moments} {call : ServiceCall Ctx} {r : Response}
    (h : TurnedAway deps config m call r) (f : Field) : r.field f = none := by
  cases h <;> rfl

/-- What a transition answers reports an approval as it leaves it. -/
theorem Asks.reports {m : Moments} {call : ServiceCall Ctx} {o : StoreOp} {id : String}
    {refuse : StoredApproval → Option DomainFailure} {set : Settlement}
    {respond : Except DomainFailure StoredApproval → Response}
    (h : Asks deps m call o id refuse set respond) {L : Ledger} (hL : L.WellKeyed) {instant : Int}
    {f : Field} {v : FieldValue}
    (hv : (respond (L.settle id refuse set instant).1).field f = some v) :
    ∃ a, (L.settle id refuse set instant).2 a.requestId = some a
      ∧ Reports deps.time (respond (L.settle id refuse set instant).1).field a := by
  cases h with
  | decide =>
      exact reports_settled hL (fun _ _ => reports_decide) (fun _ => rfl) (fun _ => rfl) hv
  | cancel =>
      exact reports_settled hL (fun _ _ => reports_cancel) (fun _ => rfl) (fun _ => rfl) hv
  | expire =>
      exact reports_settled hL (fun _ _ => reports_expire) (fun _ => rfl) (fun _ => rfl) hv

/-- **A successful response reports an approval as the call leaves it.** -/
theorem serve_reports {L : Ledger} (hL : L.Sound) (m : Moments) (call : ServiceCall Ctx)
    {f : Field} {v : FieldValue} (hv : (L.serve deps config m call).1.field f = some v) :
    ∃ a, (L.serve deps config m call).2 a.requestId = some a
      ∧ Reports deps.time (L.serve deps config m call).1.field a := by
  obtain ⟨serve, hserve, hgoes⟩ := exists_goes deps config m call
  rw [hserve] at hv ⊢
  cases hgoes with
  | turnedAway h =>
      rw [h.no_field] at hv
      cases hv
  | @request context body caller intent hcaller hadmitted =>
      simp only at hv ⊢
      cases ho : (L.request intent).1 with
      | error failure =>
          rw [ho] at hv
          cases hv
      | ok out =>
          rw [ho] at hv
          obtain ⟨hfind, hcreated⟩ := Ledger.request_ok hL.wellKeyed ho
          exact ⟨out.approval, hfind, reports_request hcreated hv⟩
  | settle hsends hasks => exact hasks.reports hL.wellKeyed hv
  | read context body requester =>
      simp only at hv ⊢
      cases ha : L.read body.requestId requester with
      | none =>
          rw [ha] at hv
          cases hv
      | some a =>
          rw [ha] at hv
          simp only [ApprovalService.respondRead] at hv ⊢
          cases hr : readResponse deps.time a with
          | error e =>
              rw [hr] at hv
              cases hv
          | ok r => exact ⟨a, Ledger.read_some hL.wellKeyed ha, reports_read hr⟩

end Serve

/-! ## Whole runs -/

section Runs

variable {Ctx Clock State Row : Type}

/--
What every observer of a backend can rely on.

`rows` is about the table: between a reachable state and any later one, a row stays,
keeps its terms, and is settled at most once. `agree` and `ordered` are about what
the service has said of one request in the course of a run.
-/
structure MonotoneLife (B : Backend Clock State Row) (deps : Deps Ctx) (config : ApprovalPolicy) :
    Prop where
  rows : ∀ s calls, B.Reachable deps config s → B.Timely calls →
    ∀ id row, B.row s id = some row →
      ∃ row' a b, B.row (B.run deps config calls s).2 id = some row'
        ∧ B.approval row = some a ∧ B.approval row' = some b ∧ Evolves a b
        ∧ (a.status = .pending ∧ a.revision = 1
          ∨ a.status ≠ .pending ∧ a.revision = 2 ∧ row' = row)
  agree : ∀ calls, B.Timely calls → ∀ (i j : Nat) r r',
    (B.run deps config calls B.empty).1[i]? = some r →
    (B.run deps config calls B.empty).1[j]? = some r' →
    r.field .requestId = r'.field .requestId →
    r.field .revision = some (.text "2") → r'.field .revision = some (.text "2") →
    ∀ f v v', r.field f = some v → r'.field f = some v' → v = v'
  ordered : ∀ calls, B.Timely calls → ∀ (i j : Nat) r r' revision revision', i ≤ j →
    (B.run deps config calls B.empty).1[i]? = some r →
    (B.run deps config calls B.empty).1[j]? = some r' →
    r.field .requestId = r'.field .requestId →
    r.shownRevision = some revision → r'.shownRevision = some revision' → revision ≤ revision'

namespace Reports

variable {time : TimeCrate} {r r' : Response} {a b : StoredApproval}

theorem shownRevision (h : Reports time r.field a) : r.shownRevision = some a.revision := by
  unfold Response.shownRevision
  rw [h.revision]
  exact Decimal.parseInt_toString a.revision

/-- Responses with one request id report approvals with that id. -/
theorem same_id (h : Reports time r.field a) (h' : Reports time r'.field b)
    (hid : r.field .requestId = r'.field .requestId) : a.requestId = b.requestId := by
  rw [h.requestId, h'.requestId] at hid
  exact FieldValue.text.inj (Option.some.inj hid)

/-- Two responses that report one approval agree. -/
theorem agree (h : Reports time r.field a) (h' : Reports time r'.field a) (hr : a.revision = 2)
    {f : Field} {v v' : FieldValue} (hv : r.field f = some v) (hv' : r'.field f = some v') :
    v = v' := by
  by_cases hf : f = .created
  · subst hf
    have hflag : ∀ {r : Response} {v}, Reports time r.field a → r.field .created = some v →
        v = .flag false := by
      intro r v hrep hv
      have hne : v ≠ .flag true := by
        rintro rfl
        rw [hrep.created hv] at hr
        cases hr
      match r, hv with
      | .request (.ok r), hv =>
          cases hv
          cases hc : r.created with
          | true => exact absurd (by rw [hc]) hne
          | false => rfl
      | .decide (.ok r), hv => cases hv
      | .cancel (.ok r), hv => cases hv
      | .read (.ok r), hv => cases hv
      | .expire (.ok r), hv => cases hv
    rw [hflag h hv, hflag h' hv']
  · have := (h.fields f v hf hv).symm.trans (h'.fields f v' hf hv')
    exact Option.some.inj this

end Reports

namespace Implements

variable {B : Backend Clock State Row} {represents : State → Ledger → Prop}
  {moments : Clock → Moments} {deps : Deps Ctx} (config : ApprovalPolicy)

theorem rows_evolve (hB : Implements B represents moments) (hlaw : deps.time.Lawful) {s : State}
    {calls : List (Clock × ServiceCall Ctx)} (hs : B.Reachable deps config s)
    (hcalls : B.Timely calls) {id : String} {row : Row} (hrow : B.row s id = some row) :
    ∃ row' a b, B.row (B.run deps config calls s).2 id = some row'
      ∧ B.approval row = some a ∧ B.approval row' = some b ∧ Evolves a b
      ∧ (a.status = .pending ∧ a.revision = 1
        ∨ a.status ≠ .pending ∧ a.revision = 2 ∧ row' = row) := by
  obtain ⟨L, hstands⟩ := hB.reachable hlaw hs
  obtain ⟨L', hstands', hev⟩ := hB.stands_run config hlaw hcalls hstands
  obtain ⟨a, ha⟩ := hB.decodes hstands.represents id row hrow
  have hLa : L id = some a := by
    rw [← hB.find hstands.represents, Backend.find, hrow]
    exact ha
  obtain ⟨b, hLb, hab⟩ := hev id a hLa
  have hfind := hB.find hstands'.represents id
  rw [hLb] at hfind
  obtain ⟨row', hrow', hb⟩ := Option.bind_eq_some_iff.mp hfind
  refine ⟨row', a, b, hrow', ha, hb, hab, ?_⟩
  have hrev := (hstands.sound.approvals hLa).revision
  by_cases hp : a.status = .pending
  · exact Or.inl ⟨hp, by rw [hrev, if_pos hp]⟩
  · refine Or.inr ⟨hp, by rw [hrev, if_neg hp], ?_⟩
    have heq : L id = L' id := by rw [hLa, hLb, hab.frozen hp]
    have hsame := hB.row_eq hstands.represents hstands'.represents id heq
    rw [hrow, hrow'] at hsame
    exact (Option.some.inj hsame).symm

/-- What two responses of a run report, when they are about one request. -/
theorem responses_evolve (hB : Implements B represents moments) (hlaw : deps.time.Lawful)
    {calls : List (Clock × ServiceCall Ctx)} (hcalls : B.Timely calls) {i j : Nat} (hij : i ≤ j)
    {r r' : Response} (hi : (B.run deps config calls B.empty).1[i]? = some r)
    (hj : (B.run deps config calls B.empty).1[j]? = some r')
    (hid : r.field .requestId = r'.field .requestId) {v : FieldValue}
    (hv : r.field .revision = some v) {v' : FieldValue} (hv' : r'.field .revision = some v') :
    ∃ a b, Reports deps.time r.field a ∧ Reports deps.time r'.field b ∧ Evolves a b
      ∧ a.Sound ∧ b.Sound := by
  -- a response reports what the ledger holds just after its call
  have key : ∀ {n : Nat} {r : Response} {v : FieldValue} {L : Ledger},
      Stands represents (B.before deps config calls B.empty n) L →
      (B.run deps config calls B.empty).1[n]? = some r → r.field .revision = some v →
      ∃ a L', Stands represents (B.before deps config calls B.empty (n + 1)) L'
        ∧ L'.Sound ∧ L' a.requestId = some a ∧ Reports deps.time r.field a := by
    intro n r v L hstands hn hv
    rw [Backend.run_getElem?] at hn
    obtain ⟨⟨clock, call⟩, hcall, rfl⟩ := Option.map_eq_some_iff.mp hn
    have hclock := hcalls _ (List.mem_of_getElem? hcall)
    obtain ⟨heq, hnext⟩ := hB.stands_serve config hlaw hclock call hstands
    rw [heq] at hv ⊢
    obtain ⟨a, ha, hrep⟩ := serve_reports hstands.sound (moments clock) call hv
    rw [Backend.before_succ hcall]
    exact ⟨a, _, hnext, hnext.sound, ha, hrep⟩
  obtain ⟨L, hstands⟩ := hB.stands_before config hlaw hcalls i
  obtain ⟨a, L₁, hstands₁, hsound₁, ha, hrep⟩ := key hstands hi hv
  rcases Nat.eq_or_lt_of_le hij with rfl | hlt
  · rw [hi] at hj
    cases hj
    exact ⟨a, a, hrep, hrep, .refl a, hsound₁.approvals ha, hsound₁.approvals ha⟩
  · obtain ⟨L₂, hstands₂, hev₁⟩ := hB.stands_between config hlaw hcalls hlt hstands₁
    obtain ⟨b, L₃, hstands₃, hsound₃, hb, hrep'⟩ := key hstands₂ hj hv'
    obtain ⟨L₄, hstands₄, hev₂⟩ := hB.stands_between config hlaw hcalls (Nat.le_succ j) hstands₂
    -- both ledgers describe the state after the later call
    have hsame : L₄ = L₃ := by
      funext id
      rw [← hB.find hstands₄.represents, ← hB.find hstands₃.represents]
    obtain ⟨c, hc, hac⟩ := (hev₁.trans hev₂) _ a ha
    rw [hsame, hrep.same_id hrep' hid, hb] at hc
    cases hc
    exact ⟨a, b, hrep, hrep', hac, hsound₁.approvals ha, hsound₃.approvals hb⟩

/-- A response at revision 2 reports a settled approval. -/
theorem revision_two {time : TimeCrate} {r : Response} {a : StoredApproval}
    (hrep : Reports time r.field a) (hr : r.field .revision = some (.text "2")) :
    a.revision = 2 := by
  have hshown : r.shownRevision = some 2 := by
    unfold Response.shownRevision
    rw [hr]
    exact Decimal.parseInt_toString 2
  rw [hrep.shownRevision] at hshown
  exact Option.some.inj hshown

theorem monotoneLife (hB : Implements B represents moments) (hlaw : deps.time.Lawful) :
    MonotoneLife B deps config where
  rows s calls hs hcalls id row hrow := hB.rows_evolve config hlaw hs hcalls hrow
  agree calls hcalls i j r r' hi hj hid hr hr' f v v' hv hv' := by
    -- for the earlier response and the later one; the other order is the mirror image
    have key : ∀ {i j : Nat} {r r' : Response} {v v' : FieldValue}, i ≤ j →
        (B.run deps config calls B.empty).1[i]? = some r →
        (B.run deps config calls B.empty).1[j]? = some r' →
        r.field .requestId = r'.field .requestId →
        r.field .revision = some (.text "2") → r'.field .revision = some (.text "2") →
        r.field f = some v → r'.field f = some v' → v = v' := by
      intro i j r r' v v' hij hi hj hid hr hr' hv hv'
      obtain ⟨a, b, hrep, hrep', hev, hsound, -⟩ :=
        hB.responses_evolve config hlaw hcalls hij hi hj hid hr hr'
      have hrev := revision_two hrep hr
      have hfrozen := hev.frozen (hsound.settled_of_revision hrev)
      subst hfrozen
      exact hrep.agree hrep' hrev hv hv'
    rcases Nat.le_total i j with hij | hji
    · exact key hij hi hj hid hr hr' hv hv'
    · exact (key hji hj hi hid.symm hr' hr hv' hv).symm
  ordered calls hcalls i j r r' revision revision' hij hi hj hid hr hr' := by
    have hshown : ∀ {r : Response} {n}, r.shownRevision = some n → ∃ v, r.field .revision = some v := by
      intro r n h
      unfold Response.shownRevision at h
      cases hv : r.field .revision with
      | none => rw [hv] at h; cases h
      | some v => exact ⟨v, rfl⟩
    obtain ⟨v, hv⟩ := hshown hr
    obtain ⟨v', hv'⟩ := hshown hr'
    obtain ⟨a, b, hrep, hrep', hev, -, -⟩ :=
      hB.responses_evolve config hlaw hcalls hij hi hj hid hv hv'
    rw [hrep.shownRevision] at hr
    rw [hrep'.shownRevision] at hr'
    cases hr
    cases hr'
    exact hev.revision_le

end Implements

/-- **On either backend, approvals have a monotone life and all observers agree on it**, in
the years 0 to 9999. -/
theorem life_is_monotone (deps : Deps Ctx) (h : deps.Lawful) (config : ApprovalPolicy) :
    MonotoneLife (Postgres.backend deps) deps config
      ∧ MonotoneLife (D1.backend deps) deps config :=
  ⟨(Postgres.implements h).monotoneLife config h.time, (D1.implements h).monotoneLife config h.time⟩

theorem life_is_monotone_standard :
    MonotoneLife (Postgres.backend Standard.deps) Standard.deps Standard.policy
      ∧ MonotoneLife (D1.backend Standard.deps) Standard.deps Standard.policy :=
  life_is_monotone Standard.deps Standard.deps_lawful Standard.policy

end Runs

end BusinessApproval
