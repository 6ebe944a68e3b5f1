import BusinessApproval.Proof.Fields
import BusinessApproval.Proof.Monotone
import BusinessApproval.Proof.Equivalence
import BusinessApproval.Proof.Origin
import BusinessApproval.Proof.WireErrors

/-!
# What is answered conforms to the schemas

The service does not check what it answers. Its responses are valid under the published
schemas nevertheless: the instants it shows have been formatted and can be parsed, the
revision is that of a sound approval, and a digest has been checked when it came in.
-/

namespace BusinessApproval

open JsonSchema

/-- A text that names an instant, to the `time` crate. -/
def NamesInstant (time : TimeCrate) : Keyword := fun s => ∃ t, time.parse s = some t

/-! ## Results -/

/-- A result is valid under the schema of its operation, and is read back as it was sent. -/
def Conforms {T E : Type} [ErrorCodes E] (serialize : T → Json) (deserialize : Json → Option T)
    (schema errors : JsonSchema) : PluginResult T E → Prop
  | .ok r => schema (serialize r) ∧ deserialize (serialize r) = some r
  | .error (.domain e) => errors (DomainError.declared e).serialize
      ∧ DomainError.deserialize (DomainError.declared e).serialize = some (.declared e)
  | .error (.runtime _) => True

/-- A response conforms to the schemas of its operation. -/
def Response.Conforms (runtime : ContractRuntime) (dateTime : Keyword) : Response → Prop
  | .request result => BusinessApproval.Conforms RequestResponse.serialize
      (RequestResponse.deserialize runtime) Published.requestResponse Published.requestError result
  | .decide result => BusinessApproval.Conforms TransitionResponse.serialize
      (TransitionResponse.deserialize runtime) (Published.transitionResponse dateTime)
      Published.decideError result
  | .cancel result => BusinessApproval.Conforms TransitionResponse.serialize
      (TransitionResponse.deserialize runtime) (Published.transitionResponse dateTime)
      Published.cancelError result
  | .read result => BusinessApproval.Conforms ReadResponse.serialize
      (ReadResponse.deserialize runtime) (Published.readResponse dateTime) Published.readError
      result
  | .expire result => BusinessApproval.Conforms TransitionResponse.serialize
      (TransitionResponse.deserialize runtime) (Published.transitionResponse dateTime)
      Published.expireError result

theorem conforms_of {T E : Type} [ErrorCodes E] {serialize : T → Json}
    {deserialize : Json → Option T} {schema errors : JsonSchema} {Admits : T → Prop}
    (h : Agree serialize deserialize schema Admits) (herrors : ErrorsAgree E errors)
    {result : PluginResult T E} (hok : ∀ r, result = .ok r → Admits r) :
    Conforms serialize deserialize schema errors result := by
  cases result with
  | ok r => exact ⟨(h.writes r).mpr (hok r rfl), h.roundTrip r⟩
  | error failure =>
      cases failure with
      | runtime failure => exact trivial
      | domain e =>
          have hread := (herrors.declared (DomainError.declared e).serialize e).mpr rfl
          exact ⟨(herrors.valid _).mpr ⟨e, hread⟩, hread⟩

/-! ## What is reported is valid -/

section Reported

variable {time : TimeCrate} {config : ApprovalPolicy} {a : StoredApproval}

/-- The revision of a pending approval is 1, and of a settled one 2. -/
theorem revision_matches (h : a.Sound) :
    Published.revisionPattern.Matches (toString a.revision) := by
  have hdigit {c : Char} {cls : Regex.CharClass} (hc : cls.test c = true) :
      [c] ∈ (Regex.seq (.one cls) (.star (.one [.range '0' '9']))).language :=
    Regex.mem_seq.mpr ⟨[c], Regex.mem_one.mpr ⟨c, hc, rfl⟩, [],
      Regex.mem_star_one.mpr fun _ h => (by cases h), rfl⟩
  rw [h.revision]
  split
  · exact hdigit (c := '1') (by decide)
  · exact hdigit (c := '2') (by decide)

theorem namesInstant_of_format (hlaw : time.Lawful) {t : Int} (ht : InYears t) {text : String}
    (h : time.format t = some text) : NamesInstant time text := by
  obtain ⟨text', hformat, hparse⟩ := hlaw.parse_format t ht
  cases h.symm.trans hformat
  exact ⟨t, hparse⟩

/-- A text a sound approval shows as the time it was settled. -/
theorem namesInstant_of_terminal (hlaw : time.Lawful) (h : a.Sound) {o : Option String}
    (ho : a.field time .terminalAt = some (.optional o)) {text : String} (htext : o = some text) :
    NamesInstant time text := by
  simp only [StoredApproval.field] at ho
  cases hat : a.terminalAt with
  | none =>
      rw [hat] at ho
      cases ho
      cases htext
  | some t =>
      rw [hat] at ho
      obtain ⟨text', hformat, heq⟩ := Option.map_eq_some_iff.mp ho
      cases heq
      cases htext
      exact namesInstant_of_format hlaw (h.terminalAt t hat) hformat

theorem RequestResponse.admits_of_reports {r : RequestResponse} (ha : a.Sound)
    (h : Reports time r.field a) : Published.revisionPattern.Matches r.revision := by
  have hrevision : r.revision = toString a.revision :=
    FieldValue.text.inj (Option.some.inj h.revision)
  rw [hrevision]
  exact revision_matches ha

theorem TransitionResponse.admits_of_reports (hlaw : time.Lawful) {r : TransitionResponse}
    (ha : a.Sound) (h : Reports time r.field a) : r.Admits (NamesInstant time) where
  revision := by
    have hrevision : r.revision = toString a.revision :=
      FieldValue.text.inj (Option.some.inj h.revision)
    rw [hrevision]
    exact revision_matches ha
  terminalAt := namesInstant_of_terminal hlaw ha (h.fields .terminalAt _ (by decide) rfl) rfl

theorem ReadResponse.admits_of_reports (hlaw : time.Lawful) {r : ReadResponse} (ha : a.Sound)
    (hauth : Authorised config a) (h : Reports time r.field a) : r.Admits (NamesInstant time) where
  revision := by
    have hrevision : r.revision = toString a.revision :=
      FieldValue.text.inj (Option.some.inj h.revision)
    rw [hrevision]
    exact revision_matches ha
  requestedAt := by
    obtain ⟨text, hformat, heq⟩ :=
      Option.map_eq_some_iff.mp (h.fields .requestedAt _ (by decide) rfl)
    cases heq
    exact namesInstant_of_format hlaw ha.requestedAt.1 hformat
  expiresAt := by
    obtain ⟨text, hformat, heq⟩ :=
      Option.map_eq_some_iff.mp (h.fields .expiresAt _ (by decide) rfl)
    cases heq
    exact namesInstant_of_format hlaw ha.expiresAt.1 hformat
  terminalAt _ htext :=
    namesInstant_of_terminal hlaw ha (h.fields .terminalAt _ (by decide) rfl) htext
  intentDigest s hs := by
    have hdigest : a.intentDigest = r.intentDigest :=
      FieldValue.optional.inj (Option.some.inj (h.fields .intentDigest _ (by decide) rfl))
    exact validIntentDigest_iff.mp (hauth.fields.intentDigest s (hdigest.trans hs))

end Reported

/-! ## Whole runs -/

section Runs

variable {Ctx Clock State Row : Type} {runtime : ContractRuntime} {deps : Deps Ctx}
  {config : ApprovalPolicy}

/-- **A response conforms** when the approval it reports is sound and authorised. -/
theorem conforms_of_reports (config : ApprovalPolicy) (hruntime : runtime.Lawful)
    (hlaw : deps.time.Lawful) {r : Response} (h : ∀ f v, r.field f = some v →
      ∃ a, a.Sound ∧ Authorised config a ∧ Reports deps.time r.field a) :
    r.Conforms runtime (NamesInstant deps.time) := by
  cases r with
  | request result =>
      refine conforms_of (RequestResponse.agree hruntime) RequestError.agree ?_
      rintro r rfl
      obtain ⟨a, ha, -, hr⟩ := h .requestId _ rfl
      exact RequestResponse.admits_of_reports ha hr
  | decide result =>
      refine conforms_of (TransitionResponse.agree hruntime) DecideError.agree ?_
      rintro r rfl
      obtain ⟨a, ha, -, hr⟩ := h .requestId _ rfl
      exact TransitionResponse.admits_of_reports hlaw ha hr
  | cancel result =>
      refine conforms_of (TransitionResponse.agree hruntime) CancelError.agree ?_
      rintro r rfl
      obtain ⟨a, ha, -, hr⟩ := h .requestId _ rfl
      exact TransitionResponse.admits_of_reports hlaw ha hr
  | read result =>
      refine conforms_of (ReadResponse.agree hruntime) ReadError.agree ?_
      rintro r rfl
      obtain ⟨a, ha, hauth, hr⟩ := h .requestId _ rfl
      exact ReadResponse.admits_of_reports hlaw ha hauth hr
  | expire result =>
      refine conforms_of (TransitionResponse.agree hruntime) ExpireError.agree ?_
      rintro r rfl
      obtain ⟨a, ha, -, hr⟩ := h .requestId _ rfl
      exact TransitionResponse.admits_of_reports hlaw ha hr

/-- What every run answers conforms to the schemas. -/
def AnswersConform (B : Backend Clock State Row) (deps : Deps Ctx) (config : ApprovalPolicy)
    (runtime : ContractRuntime) : Prop :=
  ∀ calls, B.Timely calls → ∀ r ∈ (B.run deps config calls B.empty).1,
    r.Conforms runtime (NamesInstant deps.time)

theorem Implements.answersConform {B : Backend Clock State Row}
    {represents : State → Ledger → Prop} {moments : Clock → Moments}
    (hB : Implements B represents moments) (hlaw : deps.time.Lawful) (hruntime : runtime.Lawful) :
    AnswersConform B deps config runtime := by
  intro calls hcalls r hr
  obtain ⟨n, hn⟩ := List.getElem?_of_mem hr
  rw [Backend.run_getElem?] at hn
  obtain ⟨⟨clock, call⟩, hcall, rfl⟩ := Option.map_eq_some_iff.mp hn
  have hclock := hcalls _ (List.mem_of_getElem? hcall)
  have htaken : B.Timely (calls.take n) := fun c hc => hcalls c (List.mem_of_mem_take hc)
  obtain ⟨L, hL, hauth⟩ := hB.before_authorised config hlaw htaken
  obtain ⟨hserve, hnext⟩ := hB.stands_serve config hlaw hclock call hL
  have hauth' : Ledger.Authorised config _ :=
    (serve_change config hlaw (hB.inYears hclock) L call).authorised hauth
  change ((B.serve deps config clock call (B.before deps config calls B.empty n)).1).Conforms _ _
  have heq : (B.serve deps config clock call (B.before deps config calls B.empty n)).1
      = (L.serve deps config (moments clock) call).1 := hserve
  rw [heq]
  refine conforms_of_reports config hruntime hlaw fun f v hv => ?_
  obtain ⟨a, ha, hreports⟩ := serve_reports hL.sound (moments clock) call hv
  exact ⟨a, hnext.sound.approvals ha, hauth' _ a ha, hreports⟩

/-- **On either backend, every answer of every run conforms to the schemas**, in the years 0
to 9999. -/
theorem answers_conform (deps : Deps Ctx) (h : deps.Lawful) (config : ApprovalPolicy)
    (hruntime : runtime.Lawful) : AnswersConform (Postgres.backend deps) deps config runtime
      ∧ AnswersConform (D1.backend deps) deps config runtime :=
  ⟨(Postgres.implements h).answersConform h.time hruntime,
    (D1.implements h).answersConform h.time hruntime⟩

theorem answers_conform_standard :
    AnswersConform (Postgres.backend Standard.deps) Standard.deps Standard.policy
        ⟨fun read => read⟩
      ∧ AnswersConform (D1.backend Standard.deps) Standard.deps Standard.policy
        ⟨fun read => read⟩ :=
  answers_conform Standard.deps Standard.deps_lawful Standard.policy fun _ _ => rfl

end Runs

end BusinessApproval
