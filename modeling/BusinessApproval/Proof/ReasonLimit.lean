import Mathlib.Data.String.Basic
import BusinessApproval.Model.Schema
import BusinessApproval.Proof.Admission
import BusinessApproval.Proof.Standard

/-!
# How long a reason can be

The schemas of `decide` and `cancel` bound a reason by its characters, and the owner's
check bounds it by its bytes. Both bounds are 1000, so they agree on a reason of ASCII
characters, and on one that is too long in characters already. On the reasons between,
whose characters are few enough and whose bytes are too many, the owner refuses what the
schema admits.
-/

namespace BusinessApproval

/-! ## The owner's check -/

/-- A reason to be read: some character is not white space, and none is a control. -/
structure Printable (s : String) : Prop where
  visible : ∃ c ∈ s.toList, isWhitespace c = false
  uncontrolled : ∀ c ∈ s.toList, isControl c = false

/-- Nothing is left of a trimmed string when all of it is white space. -/
theorem trim_eq_nil_iff {cs : List Char} : trim cs = [] ↔ ∀ c ∈ cs, isWhitespace c = true := by
  rw [trim, List.reverse_eq_nil_iff, List.dropWhile_eq_nil_iff]
  constructor
  · intro h
    -- what `dropWhile` keeps begins with a character that is no white space
    have hnil : cs.dropWhile isWhitespace = [] := by
      by_contra hne
      have hhead := List.head_dropWhile_not isWhitespace hne
      rw [h _ (List.mem_reverse.mpr (List.head_mem hne))] at hhead
      cases hhead
    exact List.dropWhile_eq_nil_iff.mp hnil
  · intro h c hc
    exact h c ((List.dropWhile_sublist isWhitespace).mem (List.mem_reverse.mp hc))

/-- For a reason to be read, the check is that of its bytes. -/
theorem Printable.validReason_iff {s : String} (h : Printable s) :
    validReason (some s) = true ↔ s.utf8ByteSize ≤ 1000 := by
  have htrim : (trim s.toList).isEmpty = false := by
    rw [List.isEmpty_eq_false_iff, ne_eq, trim_eq_nil_iff]
    obtain ⟨c, hc, hvisible⟩ := h.visible
    intro hall
    rw [hall c hc] at hvisible
    cases hvisible
  have hcontrol : s.toList.any isControl = false :=
    List.any_eq_false.mpr fun c hc => ne_true_of_eq_false (h.uncontrolled c hc)
  rw [validReason, Option.all_some, htrim, hcontrol, Bool.not_false, Bool.true_and, Bool.and_true,
    decide_eq_true_eq, maxReasonBytes]

/-- A string has at least as many bytes as characters. -/
theorem length_le_utf8ByteSize (s : String) : s.length ≤ s.utf8ByteSize := by
  rw [← String.utf8Len_toList, ← String.length_toList]
  induction s.toList with
  | nil => exact Nat.le_refl 0
  | cons c cs ih =>
      rw [List.length_cons, String.utf8Len_cons]
      exact Nat.add_le_add ih (Char.utf8Size_pos c)

/-! ## Calls with a reason -/

section Calls

variable {Ctx : Type} (deps : Deps Ctx) (config : ApprovalPolicy)

/-- The calls that give a reason, when all but the reason is in order: the schema of the
reason, and the answer the check refuses it with. -/
inductive GivesReason : NullableSchema → (Option String → ServiceCall Ctx) → Response → Prop
  | decide {context : Ctx} {caller : String} {body : DecideRequest}
      (hcaller : ApprovalService.authorizedCaller deps config context ApprovalPolicy.canDecide
        = some caller)
      (hhuman : deps.deniesHumanContext context = false)
      (hid : validRequestId body.requestId = true)
      (hactor : validReference body.decidedBy = true)
      (hevidence : validReference body.evidenceRef = true) :
      GivesReason DecideSchema.reason (fun reason => .decide context { body with reason })
        (.decide (.error (.domain .invalidRequest)))
  | cancel {context : Ctx} {caller : String} {body : CancelRequest}
      (hcaller : ApprovalService.authorizedCaller deps config context ApprovalPolicy.canRequest
        = some caller)
      (hid : validRequestId body.requestId = true)
      (hactor : validReference body.cancelledBy = true) :
      GivesReason CancelSchema.reason (fun reason => .cancel context { body with reason })
        (.cancel (.error (.domain .invalidRequest)))

/-- Such a call is not refused for its reason. -/
def Accepts (call : Option String → ServiceCall Ctx) (refusal : Response)
    (reason : Option String) : Prop :=
  serve deps config (call reason) ≠ .ret refusal

/-- What the schemas promise: a reason is accepted when it has 1000 characters at most. -/
structure ReasonsAsPublished : Prop where
  null : ∀ {schema call refusal}, GivesReason deps config schema call refusal →
    Accepts deps config call refusal none
  text : ∀ {schema call refusal}, GivesReason deps config schema call refusal →
    ∀ s, Printable s → (Accepts deps config call refusal (some s) ↔ schema.Admits (some s))

variable {deps config} {schema : NullableSchema} {call : Option String → ServiceCall Ctx}
  {refusal : Response}

theorem GivesReason.maxLength_eq (h : GivesReason deps config schema call refusal) :
    schema.maxLength = 1000 := by
  cases h with
  | decide => rfl
  | cancel => rfl

/-- The reason is all that such a call can be refused for. -/
theorem GivesReason.accepts_iff (h : GivesReason deps config schema call refusal)
    (reason : Option String) :
    Accepts deps config call refusal reason ↔ validReason reason = true := by
  unfold Accepts
  cases h with
  | @decide context caller body hcaller hhuman hid hactor hevidence =>
      have hrefused :
          ApprovalService.decisionRefused { body with reason } = !validReason reason := by
        simp only [ApprovalService.decisionRefused, hid, hactor, hevidence, Bool.not_true,
          Bool.false_or]
      rw [serve, ApprovalService.decide_eq, hcaller]
      simp only [hhuman, hrefused, Bool.false_eq_true, if_false]
      cases validReason reason with
      | true => exact iff_of_true (fun heq => by cases heq) rfl
      | false => exact iff_of_false (fun hne => hne rfl) Bool.false_ne_true
  | @cancel context caller body hcaller hid hactor =>
      have hrefused :
          ApprovalService.cancellationRefused { body with reason } = !validReason reason := by
        simp only [ApprovalService.cancellationRefused, hid, hactor, Bool.not_true, Bool.false_or]
      rw [serve, ApprovalService.cancel_eq, hcaller]
      simp only [hrefused]
      cases validReason reason with
      | true => exact iff_of_true (fun heq => by cases heq) rfl
      | false => exact iff_of_false (fun hne => hne rfl) Bool.false_ne_true

theorem GivesReason.accepts_null (h : GivesReason deps config schema call refusal) :
    Accepts deps config call refusal none :=
  (h.accepts_iff none).mpr rfl

/-- **The check keeps the promise of the schemas** just for the reasons that have at most
1000 bytes, and for those that have more than 1000 characters. -/
theorem accepts_as_published_iff (h : GivesReason deps config schema call refusal) {s : String}
    (hs : Printable s) :
    Accepts deps config call refusal none
      ∧ ((Accepts deps config call refusal (some s) ↔ schema.Admits (some s))
        ↔ s.utf8ByteSize ≤ 1000 ∨ 1000 < s.length) := by
  have hsize := length_le_utf8ByteSize s
  refine ⟨h.accepts_null, ?_⟩
  rw [h.accepts_iff, hs.validReason_iff, NullableSchema.Admits, h.maxLength_eq]
  constructor
  · intro hagree
    rcases Nat.lt_or_ge 1000 s.length with hlong | hshort
    · exact Or.inr hlong
    · exact Or.inl (hagree.mpr hshort)
  · rintro (hbytes | hlong)
    · exact iff_of_true hbytes (hsize.trans hbytes)
    · exact iff_of_false (Nat.not_le.mpr (hlong.trans_le hsize)) (Nat.not_le.mpr hlong)

end Calls

/-! ## Reasons that are refused for their bytes -/

/-- A decision that lacks only its reason. -/
theorem Standard.givesReason : GivesReason Standard.deps Standard.policy DecideSchema.reason
    (fun reason => .decide Standard.console ⟨"apr_expense", .approved, "usr_decider",
      "evidence:42", reason⟩) (.decide (.error (.domain .invalidRequest))) :=
  @GivesReason.decide _ _ _ Standard.console "approval-console"
    ⟨"apr_expense", .approved, "usr_decider", "evidence:42", none⟩ rfl rfl
    (by decide +kernel) (by decide +kernel) (by decide +kernel)

/-- As many characters `é`, of two bytes each. -/
def acutes (n : Nat) : String := String.ofList (List.replicate n 'é')

theorem acutes_printable {n : Nat} (hn : n ≠ 0) : Printable (acutes n) where
  visible := ⟨'é', by simp [acutes, hn], by decide⟩
  uncontrolled c hc := by
    rw [acutes, String.toList_ofList] at hc
    rw [List.eq_of_mem_replicate hc]
    decide

theorem acutes_size (n : Nat) : (acutes n).utf8ByteSize = 2 * n := by
  rw [acutes, String.utf8ByteSize_ofList]
  induction n with
  | zero => rfl
  | succ n ih =>
      rw [List.replicate_succ, String.utf8Len_cons, ih]
      rfl

theorem acutes_length (n : Nat) : (acutes n).length = n := by
  rw [acutes, String.length_ofList, List.length_replicate]

theorem accepts_as_published_acutes :
    Accepts Standard.deps Standard.policy (fun reason => .decide Standard.console
        ⟨"apr_expense", .approved, "usr_decider", "evidence:42", reason⟩)
        (.decide (.error (.domain .invalidRequest))) none
      ∧ ((Accepts Standard.deps Standard.policy (fun reason => .decide Standard.console
            ⟨"apr_expense", .approved, "usr_decider", "evidence:42", reason⟩)
            (.decide (.error (.domain .invalidRequest))) (some (acutes 500))
          ↔ DecideSchema.reason.Admits (some (acutes 500)))
        ↔ (acutes 500).utf8ByteSize ≤ 1000 ∨ 1000 < (acutes 500).length) :=
  accepts_as_published_iff Standard.givesReason (acutes_printable (by decide))

/-- 501 characters, in 1002 bytes. -/
theorem not_reasonsAsPublished : ¬ ReasonsAsPublished Standard.deps Standard.policy := by
  intro hpublished
  have hs : Printable (acutes 501) := acutes_printable (by decide)
  have hadmits : DecideSchema.reason.Admits (some (acutes 501)) := by
    change (acutes 501).length ≤ 1000
    rw [acutes_length]
    decide
  have haccepts := (hpublished.text Standard.givesReason _ hs).mpr hadmits
  rw [Standard.givesReason.accepts_iff, hs.validReason_iff, acutes_size] at haccepts
  exact absurd haccepts (by decide)

end BusinessApproval
