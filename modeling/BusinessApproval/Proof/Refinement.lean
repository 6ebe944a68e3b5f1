import BusinessApproval.Model.Backend
import BusinessApproval.Proof.D1Ledger
import BusinessApproval.Proof.PostgresLedger
import BusinessApproval.Spec.Life

/-!
# Both backends implement the ledger

What the two refinement proofs come to, in one form: a backend `Implements` the
ledger when every store method does, call by call, what it does on the ledger its
state represents. Whole runs of the service then answer as they do over the ledger,
and a row changes only when its approval does.
-/

namespace BusinessApproval

variable {Ctx Clock State Row : Type}

/-- What is relied on of other packages. -/
structure Deps.Lawful (deps : Deps Ctx) : Prop where
  time : deps.time.Lawful
  iso : D1.ReadsIso deps.time
  timestamptz : Postgres.Exact deps.timestamptz

/-- Service calls over the ledger. -/
noncomputable def Ledger.run (deps : Deps Ctx) (config : ApprovalPolicy)
    (calls : List (Moments × ServiceCall Ctx)) (L : Ledger) : List Response × Ledger :=
  Prog.runAll Ledger.perform (serve deps config) calls L

/-- A backend whose states represent ledgers, and whose methods do what the ledger's do. -/
structure Implements (B : Backend Clock State Row) (represents : State → Ledger → Prop)
    (moments : Clock → Moments) : Prop where
  empty : represents B.empty Ledger.empty
  inYears : ∀ {clock}, B.inYears clock → (moments clock).InYears
  refines : ∀ {clock o s L}, B.inYears clock → ApprovalService.Admissible o → represents s L →
    (B.perform clock o s).1 = (Ledger.perform (moments clock) o L).1
      ∧ represents (B.perform clock o s).2 (Ledger.perform (moments clock) o L).2
  /-- Every row decodes, and to the ledger's approval. -/
  find : ∀ {s L}, represents s L → ∀ id, B.find s id = L id
  decodes : ∀ {s L}, represents s L → ∀ id row, B.row s id = some row →
    ∃ a, B.approval row = some a
  /-- An approval has one row that represents it. -/
  row_eq : ∀ {s s' L L'}, represents s L → represents s' L' → ∀ id, L id = L' id →
    B.row s id = B.row s' id

/-! ## The two backends -/

theorem Postgres.implements {deps : Deps Ctx} (h : deps.Lawful) :
    Implements (Postgres.backend deps) Postgres.Represents Postgres.Clock.moments where
  empty := Postgres.represents_nil
  inYears hc := ⟨hc.nowUtc, hc.transactionTimestamp, hc.transactionTimestamp⟩
  refines _ ha hr := Postgres.alone_refines h.timestamptz _ ha hr
  find hr id := by
    rw [hr.ledger]
    change (Postgres.lookup _ id).bind (fun row => (Postgres.decodeApproval row).toOption) = _
    cases hrow : Postgres.lookup _ id with
    | none => rfl
    | some row =>
        rw [Option.bind_some, Postgres.PgRow.decode_of_checks (hr.sound.checks_of_lookup hrow)]
        rfl
  decodes hr id row hrow :=
    ⟨row.record, by
      change (Postgres.decodeApproval row).toOption = _
      rw [Postgres.PgRow.decode_of_checks (hr.sound.checks_of_lookup hrow)]
      rfl⟩
  row_eq {s s' L L'} hr hr' id heq := by
    rw [hr.ledger, hr'.ledger] at heq
    change Postgres.lookup s id = Postgres.lookup s' id
    cases hrow : Postgres.lookup s id with
    | none =>
        rw [hrow, Option.map_none] at heq
        exact (Option.map_eq_none_iff.mp heq.symm).symm
    | some row =>
        rw [hrow, Option.map_some] at heq
        obtain ⟨row', hrow', hrec⟩ := Option.map_eq_some_iff.mp heq.symm
        rw [hrow', Postgres.PgRow.record_injective (hr.sound.checks_of_lookup hrow)
          (hr'.sound.checks_of_lookup hrow') hrec.symm]

theorem D1.implements {deps : Deps Ctx} (h : deps.Lawful) :
    Implements (D1.backend deps) (D1.Represents deps.time) D1.Clock.moments where
  empty := D1.represents_nil deps.time
  inYears hc := ⟨hc.dateNow, hc.newDate, hc.dateNow⟩
  refines hc ha hr := D1.alone_refines h.time h.iso hc _ ha hr
  find hr id := (hr.ledger id).symm
  decodes hr id row hrow := by
    obtain ⟨a, -, hstands⟩ := hr.of_lookup hrow
    exact ⟨a, hstands.decodes⟩
  row_eq {s s' L L'} hr hr' id heq := by
    change D1.lookup s id = D1.lookup s' id
    cases hrow : D1.lookup s id with
    | none =>
        cases hrow' : D1.lookup s' id with
        | none => rfl
        | some row' =>
            obtain ⟨a, ha, -⟩ := hr'.of_lookup hrow'
            rw [hr.of_lookup_none hrow, ha] at heq
            cases heq
    | some row =>
        obtain ⟨a, ha, hstands⟩ := hr.of_lookup hrow
        obtain ⟨row', hrow', hstands'⟩ := hr'.exists_row (heq ▸ ha)
        rw [hrow', hstands.row_eq hstands']

/-! ## Whole runs -/

namespace Implements

variable {B : Backend Clock State Row} {represents : State → Ledger → Prop}
  {moments : Clock → Moments} {deps : Deps Ctx} (config : ApprovalPolicy)

/-- One service call answers as over the ledger. -/
theorem serve (hB : Implements B represents moments) (hdeps : deps.time.Lawful) {clock : Clock}
    (hclock : B.inYears clock) (call : ServiceCall Ctx) {s : State} {L : Ledger}
    (h : represents s L) :
    (B.serve deps config clock call s).1
        = (Prog.run (Ledger.perform (moments clock)) (BusinessApproval.serve deps config call) L).1
      ∧ represents (B.serve deps config clock call s).2
        (Prog.run (Ledger.perform (moments clock)) (BusinessApproval.serve deps config call) L).2 :=
  Prog.run_sim
    (fun o s L ha hr => by
      obtain ⟨heq, hrep⟩ := hB.refines hclock (ApprovalService.Sends.admissible ha) hr
      refine ⟨heq, ?_, hrep⟩
      rw [heq]
      cases o with
      | now => exact (hB.inYears hclock).now
      | _ => trivial)
    (ApprovalService.serve_emits deps config hdeps call) h

/-- A run of service calls answers as over the ledger. -/
theorem run (hB : Implements B represents moments) (hdeps : deps.time.Lawful)
    {calls : List (Clock × ServiceCall Ctx)} (hcalls : B.Timely calls) {s : State} {L : Ledger}
    (h : represents s L) :
    (B.run deps config calls s).1
        = (Ledger.run deps config (calls.map fun c => (moments c.1, c.2)) L).1
      ∧ represents (B.run deps config calls s).2
        (Ledger.run deps config (calls.map fun c => (moments c.1, c.2)) L).2 :=
  Prog.runAll_sim (fun c hc _ _ hr => hB.serve config hdeps (hcalls c hc) c.2 hr) h

end Implements

end BusinessApproval
