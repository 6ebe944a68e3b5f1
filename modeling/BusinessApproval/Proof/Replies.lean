import BusinessApproval.Lib.Damage
import BusinessApproval.Proof.D1Ledger

/-!
# Damaged replies

The reply to a batch that has changed a row can come back damaged: with properties,
elements or whole rows missing, or with values of another type in place of what was
there. `reading` lists what is then concluded from it. Mostly that it is damaged; but a
request takes a reply without rows for a conflict, and an array in place of the row's
text can be read as an approval.
-/

namespace BusinessApproval.D1

/-! ## What is left of a reply -/

theorem isArray_iff {value : Option Json} :
    isArray value = true ↔ ∃ elems, value = some (.arr elems) := by
  constructor
  · intro h
    unfold isArray at h
    split at h
    next elems => exact ⟨elems, rfl⟩
    next => cases h
  · rintro ⟨elems, rfl⟩
    rfl

/-- A statement's changes are damaged beyond recognition, or what they were. -/
theorem changes_of_damaged {changes : Nat} {rows : List D1Row} {e : Json} {n : Int}
    (h : Json.Damaged (statementResult changes rows) e) (hn : changesOf (some e) = some n) :
    n = changes := by
  unfold changesOf safeInteger at hn
  obtain ⟨hn, -⟩ := Option.filter_eq_some_iff.mp hn
  obtain ⟨c, hc, hnum⟩ := Option.bind_eq_some_iff.mp hn
  rw [Option.bind_some] at hc
  obtain ⟨m, hm, hc⟩ := Option.bind_eq_some_iff.mp hc
  obtain ⟨v, hv, hdamaged⟩ := h.get hm
  obtain rfl : v = .obj [("changes", .num changes)] := by simpa using hv
  obtain ⟨v, hv, hdamaged⟩ := hdamaged.get hc
  obtain rfl : v = .num changes := by simpa using hv
  cases c with
  | num n' =>
      obtain rfl : n' = n := Option.some.inj hnum
      cases hdamaged with
      | kept => rfl
      | retyped h => exact absurd rfl h
  | _ => cases hnum

/-- Of a statement's rows some may be missing, and the others damaged. -/
theorem results_of_damaged {changes : Nat} {rows : List D1Row} {e : Json} {ws : List Json}
    (h : Json.Damaged (statementResult changes rows) e)
    (hw : e.get "results" = some (.arr ws)) :
    Json.DamagedElems (rows.map D1Row.toJson) ws := by
  obtain ⟨v, hv, hdamaged⟩ := h.get hw
  obtain rfl : v = .arr (rows.map D1Row.toJson) := by simpa using hv
  exact hdamaged.elems

/-- A damaged reply that passes for a batch's says that a row has changed, and shows it at most. -/
theorem passes_of_damaged {row : D1Row} {d : Json} (h : Json.Damaged (batchReply 1 [row]) d)
    (hpasses : assertBatch d = .ok ()) : changedOne d = true
      ∧ (resultsOf d = [] ∨ ∃ w, resultsOf d = [w] ∧ Json.Damaged row.toJson w) := by
  unfold assertBatch at hpasses
  split at hpasses
  next => cases hpasses
  next hchecks =>
    simp only [Bool.or_eq_true, not_or, Bool.not_eq_true, Bool.not_eq_false',
      bne_eq_false_iff_eq, List.any_eq_false] at hchecks
    obtain ⟨⟨⟨harray, hlen⟩, hstatements⟩, hchanges⟩ := hchecks
    obtain ⟨elems, helems⟩ := isArray_iff.mp harray
    obtain rfl := Option.some.inj helems
    have hboth := Json.Damaged.elems h
    obtain ⟨first, rest, rfl, hfirst, hrest⟩ := hboth.of_length hlen
    obtain ⟨second, none, rfl, hsecond, hnone⟩ := hrest.of_length (Nat.succ.inj hlen)
    obtain rfl := hnone.of_nil
    refine ⟨?_, ?_⟩
    · obtain ⟨n, hn, -⟩ := (Option.any_eq_true _ _).mp hchanges
      have hone := changes_of_damaged hfirst hn
      unfold changedOne
      rw [hn, hone]
      rfl
    · obtain ⟨-, hresults⟩ := hstatements second (by simp [elements, Json.asArr])
      obtain ⟨ws, hws⟩ := isArray_iff.mp hresults
      have hof : resultsOf (.arr [first, second]) = ws := by
        change elements (second.get "results") = ws
        rw [hws]
        rfl
      rw [hof]
      exact (results_of_damaged hsecond hws).of_singleton

/-! ## What the row of a reply is read as -/

/-- What an array in place of the row's text is read as. -/
def misread (d : Json) : Option Json :=
  match resultsOf d with
  | [row] => ((row.get "record_json").filter fun value => isArray (some value)).bind Json.parse
  | _ => none

/--
The reply passes for a batch's, but instead of its text the row has an array, which
`JSON.parse` reads as an approval with consistent evidence.
-/
structure Misread (time : TimeCrate) (d : Json) (a : StoredApproval) : Prop where
  passes : assertBatch d = .ok ()
  record : (misread d).bind (StoredApproval.ofJson time) = some a
  consistent : evidenceConsistent a = true

/-- The reply passes for a batch's, and shows no row. -/
structure Emptied (d : Json) : Prop where
  passes : assertBatch d = .ok ()
  noRow : resultsOf d = []

theorem isObj_of_ofJson {time : TimeCrate} {value : Json} {a : StoredApproval}
    (h : StoredApproval.ofJson time value = some a) : value.IsObj := by
  cases value with
  | obj fields => exact ⟨fields, rfl⟩
  | _ => cases h

/-- A damaged row gives its record, no record, or what an array spells. -/
theorem decode_damaged {row : D1Row} {w v : Json} (h : Json.Damaged row.toJson w)
    (hv : decode (some w) = .ok v) : v = row.recordJson ∨ ¬ v.IsObj
      ∨ ((w.get "record_json").filter fun value => isArray (some value)).bind Json.parse
        = some v := by
  unfold decode at hv
  simp only at hv
  split at hv
  next =>
    split at hv
    next value hparse =>
      cases hv
      obtain ⟨x, hx, hparse⟩ := Option.bind_eq_some_iff.mp hparse
      obtain ⟨v', hmem, hdamaged⟩ := h.get hx
      obtain rfl : v' = .text row.recordJson := by simpa using hmem
      cases x with
      | text u =>
          rw [Json.parse_text] at hparse
          obtain rfl := Option.some.inj hparse
          cases hdamaged with
          | kept => exact Or.inl rfl
          | retyped h => exact absurd rfl h
      | arr elems => exact Or.inr (Or.inr (by rw [hx]; exact hparse))
      | null | bool | num =>
          obtain rfl := Option.some.inj hparse
          exact Or.inr (Or.inl fun hobj => by obtain ⟨_, hobj⟩ := hobj; cases hobj)
      | frac spelling =>
          rw [Json.parse] at hparse
          split at hparse
          next =>
            obtain rfl := Option.some.inj hparse
            exact Or.inr (Or.inl fun hobj => by obtain ⟨_, hobj⟩ := hobj; cases hobj)
          next => cases hparse
      -- another text would be of the same type, and so is not what damage leaves
      | str s =>
          cases hdamaged with
          | retyped h => exact absurd rfl h
      | obj => cases hparse
    next => cases hv
  next =>
    cases hv
    exact Or.inr (Or.inl fun hobj => by obtain ⟨_, hobj⟩ := hobj; cases hobj)

section Conclusions

variable {time : TimeCrate} {d : Json}

/-- From a reply whose one row gives a value. -/
theorem transitionValue_row {w v : Json} (hpasses : assertBatch d = .ok ())
    (hchanged : changedOne d = true) (hrow : resultsOf d = [w]) (hv : decode (some w) = .ok v) :
    transitionValue d = .ok (.obj [("changed", .bool true), ("approval", v)]) := by
  unfold transitionValue
  rw [hpasses, hrow, hchanged]
  change (decode (some w)).bind _ = _
  rw [hv]
  rfl

theorem requestValue_row {w v : Json} (hpasses : assertBatch d = .ok ())
    (hchanged : changedOne d = true) (hrow : resultsOf d = [w]) (hv : decode (some w) = .ok v) :
    requestValue d = .ok (.obj [("created", .bool true), ("rows", .arr [v])]) := by
  unfold requestValue
  rw [hpasses, hrow, hchanged]
  change Except.bind ((decode (some w)).bind _) _ = _
  rw [hv]
  rfl

/-- What is concluded from a reply whose one row gives an approval. -/
theorem conclude_row {w v : Json} {a : StoredApproval} (hpasses : assertBatch d = .ok ())
    (hchanged : changedOne d = true) (hrow : resultsOf d = [w]) (hv : decode (some w) = .ok v)
    (ha : StoredApproval.ofJson time v = some a) (hc : evidenceConsistent a = true) :
    (∀ kind caller, concludeTransition time kind caller (.ok d) = .ok (.ok a))
      ∧ ∀ intent, concludeRequest time intent (.ok d)
        = .ok (if sameIntent a intent then .ok ⟨true, a⟩ else .error .idempotencyConflict) := by
  constructor
  · intro kind caller
    have hvalue : (Except.ok d >>= transitionValue) = _ :=
      transitionValue_row hpasses hchanged hrow hv
    -- a record that decodes is an object, not the null of a missing row
    have happroval : optionalApproval time (some v) = some (some a) := by
      obtain ⟨fields, rfl⟩ := isObj_of_ofJson ha
      change (StoredApproval.ofJson time _).map some = _
      rw [ha]
      rfl
    have hresult : TransitionResult.ofJson time
        (.obj [("changed", .bool true), ("approval", v)]) = some ⟨true, some a⟩ := by
      unfold TransitionResult.ofJson
      change (do
        let approval ← optionalApproval time (some v)
        some (TransitionResult.mk true approval)) = _
      rw [happroval]
      rfl
    unfold concludeTransition
    simp only [hvalue, hresult]
    exact classify_changed kind caller hc
  · intro intent
    have hvalue : (Except.ok d >>= requestValue) = _ := requestValue_row hpasses hchanged hrow hv
    have hresult : ResultRows.ofJson time (.obj [("created", .bool true), ("rows", .arr [v])])
        = some ⟨true, [a]⟩ := by
      unfold ResultRows.ofJson
      change (do
        let rows ← [v].mapM (StoredApproval.ofJson time)
        some (ResultRows.mk true rows)) = _
      rw [List.mapM_cons, ha]
      rfl
    unfold concludeRequest
    simp only [hvalue, hresult]
    unfold resolve
    simp only [validateEvidence, hc, if_true]
    cases sameIntent a intent with
    | true => rfl
    | false => rfl

/-- What an array spells is what the row gives. -/
theorem Misread.conclude {a : StoredApproval} (h : Misread time d a)
    (hchanged : changedOne d = true) :
    (∀ kind caller, concludeTransition time kind caller (.ok d) = .ok (.ok a))
      ∧ ∀ intent, concludeRequest time intent (.ok d)
        = .ok (if sameIntent a intent then .ok ⟨true, a⟩ else .error .idempotencyConflict) := by
  obtain ⟨v, hv, ha⟩ := Option.bind_eq_some_iff.mp h.record
  unfold misread at hv
  split at hv
  next w hrow =>
    obtain ⟨x, hx, hparse⟩ := Option.bind_eq_some_iff.mp hv
    obtain ⟨hx, -⟩ := Option.filter_eq_some_iff.mp hx
    refine conclude_row h.passes hchanged hrow ?_ ha h.consistent
    have htruthy : w.truthy = true := by
      cases w with
      | obj fields => rfl
      | _ => cases hx
    simp only [decode, htruthy, if_true, hx, Option.bind_some, hparse]
  next => cases hv

/-- A request takes a reply without rows for a conflict. -/
theorem Emptied.conclude (h : Emptied d) (hchanged : changedOne d = true)
    (intent : RequestIntent) :
    concludeRequest time intent (.ok d) = .ok (.error .idempotencyConflict) := by
  have hvalue : (Except.ok d >>= requestValue)
      = .ok (.obj [("created", .bool true), ("rows", .arr [])]) := by
    change requestValue d = _
    unfold requestValue
    rw [h.passes, h.noRow, hchanged]
    rfl
  unfold concludeRequest
  simp only [hvalue]
  rfl

/-- What a damaged reply comes to, for the approval of the row it showed. -/
inductive Reading (time : TimeCrate) (a : StoredApproval) (d : Json) : Prop
  /-- Somewhere on the way it is found to be damaged. -/
  | failed
      (htransition : ∀ kind caller, ∃ e, concludeTransition time kind caller (.ok d) = .error e)
      (hrequest : ∀ intent, ∃ e, concludeRequest time intent (.ok d) = .error e)
  /-- Only a transition misses the row. -/
  | emptied (h : Emptied d)
      (htransition : ∀ kind caller, ∃ e, concludeTransition time kind caller (.ok d) = .error e)
      (hrequest : ∀ intent, concludeRequest time intent (.ok d)
        = .ok (.error .idempotencyConflict))
  | shown {b : StoredApproval} (hb : b = a ∨ Misread time d b) (hc : evidenceConsistent b = true)
      (htransition : ∀ kind caller, concludeTransition time kind caller (.ok d) = .ok (.ok b))
      (hrequest : ∀ intent, concludeRequest time intent (.ok d)
        = .ok (if sameIntent b intent then .ok ⟨true, b⟩ else .error .idempotencyConflict))

/-- A transition fails when no approval comes out of what it is given. -/
theorem concludeTransition_error {v : Json}
    (hvalue : transitionValue d = .ok (.obj [("changed", .bool true), ("approval", v)]))
    (hnone : ∀ a, StoredApproval.ofJson time v = some a → evidenceConsistent a = false)
    (kind : Kind) (caller : String) :
    ∃ e, concludeTransition time kind caller (.ok d) = .error e := by
  have hvalue' : (Except.ok d >>= transitionValue) = _ := hvalue
  unfold concludeTransition
  simp only [hvalue']
  cases hresult : TransitionResult.ofJson time (.obj [("changed", .bool true), ("approval", v)]) with
  | none => exact ⟨_, rfl⟩
  | some result =>
      unfold TransitionResult.ofJson at hresult
      obtain ⟨changed, hchanged, hresult⟩ := Option.bind_eq_some_iff.mp hresult
      obtain ⟨approval, happroval, hresult⟩ := Option.bind_eq_some_iff.mp hresult
      cases hchanged
      cases hresult
      cases approval with
      | none => exact ⟨_, rfl⟩
      | some a =>
          have ha : StoredApproval.ofJson time v = some a := by
            change optionalApproval time (some v) = some (some a) at happroval
            unfold optionalApproval at happroval
            split at happroval
            next => cases happroval
            next => cases happroval
            next value hv =>
              cases hv
              obtain ⟨b, hb, heq⟩ := Option.map_eq_some_iff.mp happroval
              rw [hb, Option.some.inj heq]
          refine ⟨.invalidEvidence, ?_⟩
          unfold classify
          simp only [validateEvidence, hnone a ha, Bool.false_eq_true, if_false]
          rfl

theorem concludeRequest_error {v : Json}
    (hvalue : requestValue d = .ok (.obj [("created", .bool true), ("rows", .arr [v])]))
    (hnone : ∀ a, StoredApproval.ofJson time v = some a → evidenceConsistent a = false)
    (intent : RequestIntent) : ∃ e, concludeRequest time intent (.ok d) = .error e := by
  have hvalue' : (Except.ok d >>= requestValue) = _ := hvalue
  unfold concludeRequest
  simp only [hvalue']
  cases hresult : ResultRows.ofJson time (.obj [("created", .bool true), ("rows", .arr [v])]) with
  | none => exact ⟨_, rfl⟩
  | some result =>
      unfold ResultRows.ofJson at hresult
      obtain ⟨created, hcreated, hresult⟩ := Option.bind_eq_some_iff.mp hresult
      obtain ⟨rows, hrows, hresult⟩ := Option.bind_eq_some_iff.mp hresult
      cases hcreated
      cases hresult
      change [v].mapM (StoredApproval.ofJson time) = some rows at hrows
      rw [List.mapM_cons] at hrows
      obtain ⟨a, ha, hrows⟩ := Option.bind_eq_some_iff.mp hrows
      obtain rfl : [a] = rows := Option.some.inj hrows
      refine ⟨.invalidEvidence, ?_⟩
      unfold resolve
      simp only [validateEvidence, hnone a ha, Bool.false_eq_true, if_false]
      rfl

/-- A reply that does not give a value at all. -/
theorem Reading.thrown {a : StoredApproval} {m : String}
    (htransition : transitionValue d = .error m) (hrequest : requestValue d = .error m) :
    Reading time a d := by
  have ht : (Except.ok d >>= transitionValue) = _ := htransition
  have hr : (Except.ok d >>= requestValue) = _ := hrequest
  refine .failed (fun kind caller => ?_) fun intent => ?_
  · unfold concludeTransition
    simp only [ht]
    exact ⟨_, rfl⟩
  · unfold concludeRequest
    simp only [hr]
    exact ⟨_, rfl⟩

/-- **What a damaged reply can come to.** -/
theorem reading {row : D1Row} {a : StoredApproval} (h : Json.Damaged (batchReply 1 [row]) d)
    (hrow : StandsFor time row a) : Reading time a d := by
  cases hpasses : assertBatch d with
  | error message =>
      exact .thrown (by unfold transitionValue; rw [hpasses]; rfl)
        (by unfold requestValue; rw [hpasses]; rfl)
  | ok u =>
      obtain ⟨hchanged, hnone | ⟨w, hw, hdamaged⟩⟩ := passes_of_damaged h hpasses
      · -- the reply has lost its row: a transition fails, a request takes it for a conflict
        have hempty : Emptied d := ⟨hpasses, hnone⟩
        refine .emptied hempty ?_ (hempty.conclude hchanged)
        refine concludeTransition_error (v := .null) ?_ fun a ha => by cases ha
        unfold transitionValue
        rw [hpasses, hnone, hchanged]
        rfl
      · cases hv : decode (some w) with
        | error message =>
            refine Reading.thrown (m := message) ?_ ?_
            · unfold transitionValue
              rw [hpasses, hw]
              change (decode (some w)).bind _ = _
              rw [hv]
              rfl
            · unfold requestValue
              rw [hpasses, hw]
              change Except.bind ((decode (some w)).bind _) _ = _
              rw [hv]
              rfl
        | ok v =>
            -- does the row that is left still decode to a consistent record?
            by_cases hnone : ∀ b, StoredApproval.ofJson time v = some b →
                evidenceConsistent b = false
            · exact .failed
                (concludeTransition_error (transitionValue_row hpasses hchanged hw hv) hnone)
                (concludeRequest_error (requestValue_row hpasses hchanged hw hv) hnone)
            · obtain ⟨b, hb, hc⟩ : ∃ b, StoredApproval.ofJson time v = some b
                  ∧ evidenceConsistent b = true := by simpa using hnone
              obtain ⟨ht, hr⟩ := conclude_row hpasses hchanged hw hv hb hc
              refine .shown ?_ hc ht hr
              rcases decode_damaged hdamaged hv with rfl | hobj | hspelled
              · exact Or.inl (Option.some.inj (hb.symm.trans hrow.decodes))
              · exact absurd (isObj_of_ofJson hb) hobj
              · refine Or.inr ⟨hpasses, ?_, hc⟩
                unfold misread
                rw [hw]
                simp only [hspelled, Option.bind_some, hb]

end Conclusions

end BusinessApproval.D1
