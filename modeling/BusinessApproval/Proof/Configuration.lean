import BusinessApproval.Lib.Path
import BusinessApproval.Lib.Segments
import BusinessApproval.Model.Config
import BusinessApproval.Proof.Fields

/-!
# What a configuration can contain

A caller of a list, and a secret reference, are accepted by splitting them and looking
at the segments. Here they are described the other way round, as what is put together
from segments, and the two descriptions are shown to be the same. What a reference
cannot do follows from its segments being names.
-/

namespace BusinessApproval

open Regex

/-! ## Segments -/

/-- A nonempty string of ASCII letters, digits, `.`, `_`, `-` and `:`. -/
structure Segment (s : String) : Prop where
  nonempty : s ≠ ""
  chars : ∀ c ∈ s.toList, identifierClass.test c = true

theorem slash_notMem {s : String} (h : Segment s) : '/' ∉ s.toList := by
  intro hmem
  have hslash := h.chars '/' hmem
  revert hslash
  decide

/-- What is split is put together again from its segments, which hold no separator. -/
theorem split_eq_iff {s : String} {ws : List String} :
    split s '/' = ws ↔ ws ≠ [] ∧ (∀ w ∈ ws, '/' ∉ w.toList) ∧ "/".intercalate ws = s := by
  have hws : split s '/' = ws ↔ s.toList.splitOn '/' = ws.map String.toList := by
    rw [split]
    constructor
    · rintro rfl
      rw [List.map_map]
      exact (List.map_id'' (fun _ => String.toList_ofList) _).symm
    · intro h
      rw [h, List.map_map]
      exact List.map_id'' (fun _ => String.ofList_toList) _
  rw [hws, Segments.splitOn_eq_iff, ← String.toList_inj, String.toList_intercalate]
  simp only [ne_eq, List.map_eq_nil_iff, List.forall_mem_map]
  rfl

theorem split_segments {ws : List String} (hne : ws ≠ []) (h : ∀ w ∈ ws, Segment w) :
    split ("/".intercalate ws) '/' = ws :=
  split_eq_iff.mpr ⟨hne, fun w hw => slash_notMem (h w hw), rfl⟩

/-- The owner's check of one segment, within a string that is short enough. -/
theorem validIdentifier_iff {s : String} {maximum : Nat} :
    validIdentifier s maximum = true ↔ Segment s ∧ s.utf8ByteSize ≤ maximum := by
  simp only [validIdentifier, Bool.and_eq_true, decide_eq_true_eq, tests_identifier.all_iff,
    not_isEmpty_iff]
  constructor
  · rintro ⟨⟨hne, hsize⟩, hall⟩
    refine ⟨⟨?_, hall⟩, hsize⟩
    rintro rfl
    cases hne
  · rintro ⟨⟨hne, hall⟩, hsize⟩
    refine ⟨⟨?_, hsize⟩, hall⟩
    rw [Nat.one_le_iff_ne_zero, ne_eq, ← String.length_toList, List.length_eq_zero_iff,
      String.toList_eq_nil_iff]
    exact hne

/-! ## Callers -/

/-- One segment, or two with a slash between, in at most 256 bytes. -/
structure InstanceKey (s : String) : Prop where
  size : s.utf8ByteSize ≤ 256
  form : Segment s ∨ ∃ package name, Segment package ∧ Segment name ∧ s = package ++ "/" ++ name

/-- A segment of a string is no longer than the string. -/
theorem utf8ByteSize_le_of_pair (u v : String) :
    u.utf8ByteSize ≤ (u ++ "/" ++ v).utf8ByteSize
      ∧ v.utf8ByteSize ≤ (u ++ "/" ++ v).utf8ByteSize := by
  rw [String.utf8ByteSize_append, String.utf8ByteSize_append]
  omega

theorem intercalate_pair (u v : String) : "/".intercalate [u, v] = u ++ "/" ++ v := by
  rw [String.intercalate_cons_cons, String.intercalate_singleton]

/-- **An instance key is what the owner's check accepts.** -/
theorem validInstance_iff {s : String} : validInstance s = true ↔ InstanceKey s := by
  simp only [validInstance, Bool.and_eq_true, decide_eq_true_eq, List.all_eq_true,
    validIdentifier_iff]
  constructor
  · rintro ⟨⟨⟨hsize, hone⟩, htwo⟩, hall⟩
    refine ⟨hsize, ?_⟩
    generalize hsplit : split s '/' = ws at hone htwo hall
    obtain ⟨-, -, rfl⟩ := split_eq_iff.mp hsplit
    -- between one and two segments
    match ws with
    | [w] =>
        rw [String.intercalate_singleton]
        exact Or.inl (hall w (List.mem_singleton_self w)).1
    | [u, v] =>
        rw [intercalate_pair]
        exact Or.inr ⟨u, v, (hall u (by simp)).1, (hall v (by simp)).1, rfl⟩
  · rintro ⟨hsize, hsegment | ⟨u, v, hu, hv, rfl⟩⟩
    · have hsplit := split_segments (List.cons_ne_nil s []) fun w hw =>
        List.mem_singleton.mp hw ▸ hsegment
      rw [String.intercalate_singleton] at hsplit
      rw [hsplit]
      refine ⟨⟨⟨hsize, Nat.le_refl 1⟩, Nat.le_succ 1⟩, fun w hw => ?_⟩
      rw [List.mem_singleton.mp hw]
      exact ⟨hsegment, hsize⟩
    · have hboth : ∀ w ∈ [u, v], Segment w := by
        rintro w (_ | ⟨_, _ | ⟨_, hw⟩⟩)
        · exact hu
        · exact hv
        · cases hw
      have hsplit := split_segments (List.cons_ne_nil u [v]) hboth
      rw [intercalate_pair] at hsplit
      rw [hsplit]
      obtain ⟨hleft, hright⟩ := utf8ByteSize_le_of_pair u v
      refine ⟨⟨⟨hsize, Nat.le_succ 1⟩, Nat.le_refl 2⟩, fun w hw => ⟨hboth w hw, ?_⟩⟩
      rcases List.mem_cons.mp hw with rfl | hw
      · exact hleft.trans hsize
      · rw [List.mem_singleton.mp hw]
        exact hright.trans hsize

/-- Between one and 64 callers. -/
def SizeInRange (callers : List String) : Prop := 1 ≤ callers.length ∧ callers.length ≤ 64

/-- A list of callers that is in order. -/
structure CallersInOrder (callers : List String) : Prop where
  size : SizeInRange callers
  form : ∀ caller ∈ callers, InstanceKey caller
  distinct : callers.Nodup

/-- What `validate_callers` answers: the first of its three conditions that fails. -/
structure CallersChecked (callers : List String) : Prop where
  accepted : validateCallers callers = .ok () ↔ CallersInOrder callers
  size : validateCallers callers = .error .emptyOrTooLarge ↔ ¬ SizeInRange callers
  form : validateCallers callers = .error .invalidInstance
    ↔ SizeInRange callers ∧ ¬ ∀ caller ∈ callers, InstanceKey caller
  distinct : validateCallers callers = .error .duplicateInstance
    ↔ SizeInRange callers ∧ (∀ caller ∈ callers, InstanceKey caller) ∧ ¬ callers.Nodup

/-- A set is as large as the list it is made from when the list has no duplicates. -/
theorem card_toFinset_eq_iff {callers : List String} :
    callers.toFinset.card = callers.length ↔ callers.Nodup := by
  refine ⟨fun h => ?_, List.toFinset_card_of_nodup⟩
  rw [List.card_toFinset] at h
  exact List.dedup_eq_self.mp ((List.dedup_sublist callers).eq_of_length h)

theorem size_test_iff {callers : List String} :
    (callers.isEmpty || decide (callers.length > maxCallers)) = true ↔ ¬ SizeInRange callers := by
  rw [SizeInRange, Bool.or_eq_true, List.isEmpty_iff_length_eq_zero, decide_eq_true_eq, maxCallers]
  omega

/-- How the checks of a list can end. -/
inductive CallersEnd (callers : List String) : Except CallerListError Unit → Prop
  | size (h : ¬ SizeInRange callers) : CallersEnd callers (.error .emptyOrTooLarge)
  | form (hsize : SizeInRange callers) (h : ¬ ∀ caller ∈ callers, InstanceKey caller) :
      CallersEnd callers (.error .invalidInstance)
  | distinct (hsize : SizeInRange callers) (hform : ∀ caller ∈ callers, InstanceKey caller)
      (h : ¬ callers.Nodup) : CallersEnd callers (.error .duplicateInstance)
  | accepted (hsize : SizeInRange callers) (hform : ∀ caller ∈ callers, InstanceKey caller)
      (h : callers.Nodup) : CallersEnd callers (.ok ())

theorem validateCallers_end (callers : List String) :
    CallersEnd callers (validateCallers callers) := by
  unfold validateCallers
  split
  next hsize => exact .size (size_test_iff.mp hsize)
  next hsize =>
    replace hsize := not_not.mp (mt size_test_iff.mpr hsize)
    split
    next hform =>
      obtain ⟨caller, hmem, hinvalid⟩ := List.any_eq_true.mp hform
      refine .form hsize fun hall => ?_
      rw [validInstance_iff.mpr (hall caller hmem)] at hinvalid
      cases hinvalid
    next hform =>
      have hall : ∀ caller ∈ callers, InstanceKey caller := by
        intro caller hmem
        rw [← validInstance_iff]
        by_contra hinvalid
        exact hform (List.any_eq_true.mpr ⟨caller, hmem, by simpa using hinvalid⟩)
      split
      next hcard =>
        exact .distinct hsize hall (mt card_toFinset_eq_iff.mpr (bne_iff_ne.mp hcard))
      next hcard =>
        rw [bne_iff_ne, not_not, card_toFinset_eq_iff] at hcard
        exact .accepted hsize hall hcard

theorem callersInOrder_iff {callers : List String} : CallersInOrder callers ↔
    SizeInRange callers ∧ (∀ caller ∈ callers, InstanceKey caller) ∧ callers.Nodup :=
  ⟨fun h => ⟨h.size, h.form, h.distinct⟩, fun h => ⟨h.1, h.2.1, h.2.2⟩⟩

theorem validateCallers_ok_iff {callers : List String} :
    validateCallers callers = .ok () ↔ CallersInOrder callers := by
  rw [callersInOrder_iff]
  have hend := validateCallers_end callers
  generalize validateCallers callers = result at hend ⊢
  cases hend with
  | size h => exact iff_of_false (fun h => by cases h) fun h' => h h'.1
  | form hsize h => exact iff_of_false (fun h => by cases h) fun h' => h h'.2.1
  | distinct hsize hform h => exact iff_of_false (fun h => by cases h) fun h' => h h'.2.2
  | accepted hsize hform h => exact iff_of_true rfl ⟨hsize, hform, h⟩

/-- **A list of callers is accepted exactly when it is well formed.** -/
theorem callers_checked (callers : List String) : CallersChecked callers := by
  have hend := validateCallers_end callers
  refine ⟨validateCallers_ok_iff, ?_, ?_, ?_⟩ <;>
    -- each end excludes the conditions of the three others
    (generalize validateCallers callers = result at hend ⊢; cases hend <;> simp_all)

/-! ## The policy -/

/-- Two checks in a row pass when each of them does. -/
theorem bind_eq_ok {ε : Type} {first : Except ε Unit} {next : Unit → Except ε Unit} :
    (first >>= next) = .ok () ↔ first = .ok () ∧ next () = .ok () := by
  cases first with
  | ok u => exact (and_iff_right rfl).symm
  | error e => exact iff_of_false (fun h => by cases h) fun h => by cases h.1

/-- A loop of checks passes when every one of them does. -/
theorem forM_eq_ok {ε α : Type} {check : α → Except ε Unit} {xs : List α} :
    xs.forM check = .ok () ↔ ∀ x ∈ xs, check x = .ok () := by
  induction xs with
  | nil => exact iff_of_true rfl fun _ hx => absurd hx List.not_mem_nil
  | cons x xs ih =>
      rw [List.forall_mem_cons, ← ih]
      exact bind_eq_ok

/-- **A policy is accepted when its three lists are well formed.** -/
theorem policy_accepted {config : ApprovalPolicy} : config.validate = .ok () ↔
    CallersInOrder config.requesterInstances ∧ CallersInOrder config.deciderInstances
      ∧ CallersInOrder config.expirationExecutorInstances := by
  have hcheck : ∀ callers, (if (validateCallers callers).isOk then (.ok () : Except _ Unit)
      else .error (RuntimeFailure.invalidResolvedPlan
        "invalid Business Approval exact caller policy")) = .ok () ↔ CallersInOrder callers := by
    intro callers
    rw [← validateCallers_ok_iff]
    cases validateCallers callers with
    | ok u => exact iff_of_true rfl rfl
    | error e => exact iff_of_false (fun h => by cases h) fun h => by cases h
  rw [ApprovalPolicy.validate, forM_eq_ok]
  simp only [hcheck, List.forall_mem_cons, List.not_mem_nil, false_imp_iff, implies_true, and_true]

/-! ## Secret references -/

/-- The segment of a reference: neither the directory it is in nor the one above. -/
structure PathSegment (s : String) : Prop where
  segment : Segment s
  notSelf : s ≠ "."
  notParent : s ≠ ".."

theorem PathSegment.plain {s : String} (h : PathSegment s) : Path.Plain s :=
  ⟨h.segment.nonempty, h.notSelf, h.notParent⟩

/-- Path segments with slashes between them, in at most 256 bytes. -/
structure CleanPath (s : String) : Prop where
  size : s.utf8ByteSize ≤ 256
  form : ∃ segments, segments ≠ [] ∧ (∀ segment ∈ segments, PathSegment segment)
    ∧ s = "/".intercalate segments

/-- What `valid_secret_reference` answers, and what that says of the path. -/
structure ReferenceChecked (s : String) : Prop where
  accepted : Postgres.validSecretReference s = true ↔ CleanPath s
  /-- Its components stay in the base, each of them and all together, and lead below it. -/
  confined : Postgres.validSecretReference s = true → ∀ base : Path.Place,
    (∀ n, base <+: Path.resolve base ((split s '/').take n))
      ∧ Path.resolve base (split s '/') ≠ base

/-- A character of a reference is a slash or belongs to a segment. -/
theorem referenceClass_test {c : Char} :
    referenceClass.test c = true ↔ c = '/' ∨ identifierClass.test c = true := by
  have hslash : (ClassItem.char '/').test c = true ↔ c = '/' := beq_iff_eq
  rw [← hslash, CharClass.test, CharClass.test, referenceClass, identifierClass]
  simp only [List.any_cons, List.any_nil, Bool.or_false, Bool.or_eq_true]
  -- the slash stands before the hyphen
  tauto

theorem split_forall_iff {p : String → Prop} {s : String} :
    (∀ w ∈ split s '/', p w) ↔ ∀ cs ∈ s.toList.splitOn '/', p (String.ofList cs) := by
  rw [split, List.forall_mem_map]

/-- The byte test of a whole reference is the character test of its segments. -/
theorem bytes_reference_iff {s : String} :
    (bytes s).all (fun byte => isAsciiAlphanumeric byte
        || matchesByte ['.', '_', '-', ':', '/'] byte) = true
      ↔ ∀ w ∈ split s '/', ∀ c ∈ w.toList, identifierClass.test c = true := by
  rw [tests_reference.all_iff, split_forall_iff]
  simp only [String.toList_ofList, Segments.forall_splitOn_iff, referenceClass_test]

/-- The three tests for slashes say together that no segment is empty. -/
theorem no_empty_segment_iff {s : String} :
    (s ≠ "" ∧ s.toList.head? ≠ some '/' ∧ s.toList.getLast? ≠ some '/'
        ∧ ¬ ['/', '/'] <:+: s.toList)
      ↔ ∀ w ∈ split s '/', w ≠ "" := by
  rw [ne_eq, ← String.toList_eq_nil_iff, ← ne_eq, ← Segments.nil_notMem_splitOn_iff,
    split_forall_iff]
  constructor
  · intro hnil cs hcs hempty
    rw [← String.toList_eq_nil_iff, String.toList_ofList] at hempty
    exact hnil (hempty ▸ hcs)
  · exact fun hall hnil => hall [] hnil rfl

/-- A string is accepted when its segments are those of a path. -/
theorem validSecretReference_iff {s : String} : Postgres.validSecretReference s = true ↔
    s.utf8ByteSize ≤ 256 ∧ ∀ w ∈ split s '/', PathSegment w := by
  have hnames : (∀ w ∈ split s '/', PathSegment w) ↔
      (∀ w ∈ split s '/', w ≠ "")
        ∧ (∀ w ∈ split s '/', w ≠ "." ∧ w ≠ "..")
        ∧ ∀ w ∈ split s '/', ∀ c ∈ w.toList, identifierClass.test c = true := by
    constructor
    · exact fun h => ⟨fun w hw => (h w hw).segment.nonempty,
        fun w hw => ⟨(h w hw).notSelf, (h w hw).notParent⟩, fun w hw => (h w hw).segment.chars⟩
    · exact fun ⟨hne, hdots, hchars⟩ w hw =>
        ⟨⟨hne w hw, hchars w hw⟩, (hdots w hw).1, (hdots w hw).2⟩
  have hempty : s.isEmpty = true ↔ s = "" := String.isEmpty_iff
  rw [hnames, ← no_empty_segment_iff, ← bytes_reference_iff, Postgres.validSecretReference]
  simp only [Bool.and_eq_true, decide_eq_true_eq, Bool.not_eq_true', ← Bool.not_eq_true, hempty,
    beq_iff_eq, List.all_eq_true, bne_iff_ne, ne_eq]
  tauto

theorem cleanPath_iff {s : String} : CleanPath s ↔
    s.utf8ByteSize ≤ 256 ∧ ∀ w ∈ split s '/', PathSegment w := by
  constructor
  · rintro ⟨hsize, segments, hne, hall, rfl⟩
    rw [split_segments hne fun w hw => (hall w hw).segment]
    exact ⟨hsize, hall⟩
  · rintro ⟨hsize, hall⟩
    obtain ⟨hne, -, hjoin⟩ := split_eq_iff.mp (rfl : split s '/' = _)
    exact ⟨hsize, split s '/', hne, hall, hjoin.symm⟩

/-- **A secret reference is accepted exactly when it is a clean relative path**, and then
it names something strictly below any base. -/
theorem reference_checked (s : String) : ReferenceChecked s where
  accepted := validSecretReference_iff.trans cleanPath_iff.symm
  confined := by
    intro hvalid base
    have hplain : ∀ w ∈ split s '/', Path.Plain w :=
      fun w hw => ((validSecretReference_iff.mp hvalid).2 w hw).plain
    have hne : split s '/' ≠ [] := (split_eq_iff.mp rfl).1
    exact ⟨Path.base_prefix_resolve hplain, Path.resolve_ne_base hplain hne⟩

/-! ## The whole configuration -/

theorem mapError_eq_ok {ε δ : Type} {check : Except ε Unit} {f : ε → δ} :
    check.mapError f = .ok () ↔ check = .ok () := by
  cases check with
  | ok u => exact iff_of_true rfl rfl
  | error e => exact iff_of_false (fun h => by cases h) fun h => by cases h

/-- A check that throws unless its condition holds. -/
theorem unless_throw_eq_ok {ε : Type} {condition : Bool} {error : ε} {rest : Except ε Unit} :
    (if (!condition) = true then (throw error : Except ε PUnit) >>= fun _ => rest else rest)
      = .ok () ↔ condition = true ∧ rest = .ok () := by
  cases condition with
  | true => exact (and_iff_right rfl).symm
  | false => exact iff_of_false (fun h => by cases h) fun h => by cases h.1

/-- **What the PostgreSQL plugin starts with**: a schema that makes a plan, a clean path and
three lists in order. -/
theorem config_accepted {schemaPlan : String → Bool}
    {config : Postgres.BusinessApprovalConfig} : Postgres.validateConfig schemaPlan config = .ok ()
      ↔ schemaPlan config.schema = true ∧ CleanPath config.databaseUrlSecret
        ∧ config.policy.validate = .ok () := by
  rw [Postgres.validateConfig, mapError_eq_ok, policy_accepted, cleanPath_iff,
    ← validSecretReference_iff, Postgres.BusinessApprovalConfig.validate]
  simp only [unless_throw_eq_ok, bind_eq_ok, mapError_eq_ok, validateCallers_ok_iff]
  rfl

end BusinessApproval
