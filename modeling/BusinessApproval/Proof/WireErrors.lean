import BusinessApproval.Proof.Wire

/-!
# Domain errors on the wire

A declared error is the string of its variant, and nothing else is read as one: the string
of another variant, and an object whatever its code, are `Unknown`. An unknown error is
written as an object of the code, the payload and the extra members, where the extra members
come last. They can hide the code and the payload, so an error is read back as it was
written exactly if they do not; and what has been read never has such members.
-/

namespace BusinessApproval

open JsonSchema

/-! ## The entries of an unknown error -/

namespace UnknownDomainError

/-- No extra member has the name of the code or of the payload. -/
def Plain (error : UnknownDomainError) : Prop :=
  error.extra["code"]? = none ∧ error.extra["payload"]? = none

/-- The error that the members of an object make up, with this code. -/
def ofMembers (object : Std.ExtTreeMap String Json compare) (code : String) :
    UnknownDomainError :=
  ⟨code, object["payload"]?, (object.erase "code").erase "payload"⟩

theorem ofMembers_plain (object : Std.ExtTreeMap String Json compare) (code : String) :
    (ofMembers object code).Plain := by
  constructor <;> simp [ofMembers]

theorem getElem?_entries (error : UnknownDomainError) (name : String) :
    (Std.ExtTreeMap.ofList error.entries compare)[name]?
      = error.extra[name]?.or (if name = "payload" then error.payload
        else if name = "code" then some (.str error.code) else none) := by
  rw [entries, Std.ExtTreeMap.ofList_eq_insertMany_empty, Std.ExtTreeMap.insertMany_append,
    Serde.getElem?_insertMany_toList, Std.ExtTreeMap.insertMany_cons]
  congr 1
  cases error.payload with
  | none =>
      simp only [Option.toList_none, List.map_nil, Std.ExtTreeMap.insertMany_nil,
        Std.ExtTreeMap.getElem?_insert, Std.compare_eq_iff_eq, Std.ExtTreeMap.getElem?_empty]
      by_cases hcode : name = "code"
      · simp [hcode]
      · simp [hcode, Ne.symm hcode]
  | some payload =>
      simp only [Option.toList_some, List.map_cons, List.map_nil, Std.ExtTreeMap.insertMany_cons,
        Std.ExtTreeMap.insertMany_nil, Std.ExtTreeMap.getElem?_insert, Std.compare_eq_iff_eq,
        Std.ExtTreeMap.getElem?_empty]
      by_cases hpayload : name = "payload"
      · simp [hpayload]
      · by_cases hcode : name = "code"
        · simp [hcode]
        · simp [hcode, hpayload, Ne.symm hcode, Ne.symm hpayload]

/-- The entries of an error make it up again, if no extra member hides another. -/
theorem ofMembers_entries {error : UnknownDomainError} (h : error.Plain) :
    ofMembers (Std.ExtTreeMap.ofList error.entries compare) error.code = error := by
  obtain ⟨hcode, hpayload⟩ := h
  obtain ⟨code, payload, extra⟩ := error
  simp only [ofMembers, mk.injEq, true_and]
  constructor
  · rw [getElem?_entries, hpayload, Option.none_or, if_pos rfl]
  · refine Std.ExtTreeMap.ext_getElem? fun name => ?_
    rw [Std.ExtTreeMap.getElem?_erase, Std.ExtTreeMap.getElem?_erase, getElem?_entries]
    by_cases hc : name = "code"
    · subst hc
      simp [hcode]
    · by_cases hp : name = "payload"
      · subst hp
        simp [hpayload]
      · simp [hc, hp, Ne.symm hc, Ne.symm hp]

end UnknownDomainError

/-! ## Errors -/

/-- The variants of a generated error type are listed, each with its own string. -/
structure ErrorCodes.Lawful (E : Type) [ErrorCodes E] : Prop where
  lookup : ∀ error : E, codes.lookup (code error) = some error
  named : ∀ variant ∈ codes (E := E), variant.1 = code variant.2

namespace DomainError

section

variable {E : Type} [ErrorCodes E] {v : Json} {error : E} {e : DomainError E}

/-- No extra member of the error hides its code or its payload. -/
def Plain : DomainError E → Prop
  | declared _ => True
  | unknown error => error.Plain

theorem lookup_iff (h : ErrorCodes.Lawful E) {name : String} :
    (ErrorCodes.codes (E := E)).lookup name = some error ↔ name = ErrorCodes.code error := by
  constructor
  · intro hname
    obtain ⟨before, after, heq, -⟩ := List.lookup_eq_some_iff.mp hname
    exact h.named (name, error) (heq ▸ List.mem_append_right before List.mem_cons_self)
  · rintro rfl
    exact h.lookup error

/-- An object is an unknown error, if it has a code. -/
theorem deserialize_obj {fields : List (String × Json)} : deserialize (.obj fields) = some e
    ↔ ∃ code, (Std.ExtTreeMap.ofList fields compare)["code"]? = some (.str code)
      ∧ unknown (.ofMembers (Std.ExtTreeMap.ofList fields compare) code) = e := by
  have hpayload (object : Std.ExtTreeMap String Json compare) :
      (object.erase "code")["payload"]? = object["payload"]? := by
    simp [Std.ExtTreeMap.getElem?_erase]
  simp only [deserialize]
  generalize Std.ExtTreeMap.ofList fields compare = object
  cases hcode : object["code"]? with
  | none => simp
  | some w => cases w <;> simp [Json.asStr, UnknownDomainError.ofMembers, hpayload]

/-- The error of a string is that of its variant, or has it as its code. -/
theorem deserialize_str (h : ErrorCodes.Lawful E) {s : String} :
    deserialize (.str s) = some e ↔ (∃ error : E, s = ErrorCodes.code error ∧ declared error = e)
      ∨ (∀ error : E, s ≠ ErrorCodes.code error) ∧ unknown ⟨s, none, ∅⟩ = e := by
  cases hs : (ErrorCodes.codes (E := E)).lookup s with
  | some error =>
      obtain rfl := (lookup_iff h).mp hs
      have hread : deserialize (E := E) (.str (ErrorCodes.code error)) = some (declared error) := by
        simp only [deserialize, hs]
      rw [hread]
      constructor
      · intro he
        exact Or.inl ⟨error, rfl, Option.some.inj he⟩
      · rintro (⟨error', heq, rfl⟩ | ⟨hnot, -⟩)
        · cases hs.symm.trans ((lookup_iff h).mpr heq)
          rfl
        · exact absurd rfl (hnot error)
  | none =>
      have hread : deserialize (E := E) (.str s) = some (unknown ⟨s, none, ∅⟩) := by
        simp only [deserialize, hs]
      have hnot : ∀ error : E, s ≠ ErrorCodes.code error := by
        intro error heq
        cases hs.symm.trans ((lookup_iff h).mpr heq)
      rw [hread]
      constructor
      · intro he
        exact Or.inr ⟨hnot, Option.some.inj he⟩
      · rintro (⟨error, heq, -⟩ | ⟨-, rfl⟩)
        · exact absurd heq (hnot error)
        · rfl

theorem deserialize_declared (h : ErrorCodes.Lawful E) :
    deserialize v = some (declared error) ↔ v = .str (ErrorCodes.code error) := by
  constructor
  · intro he
    cases v with
    | str s =>
        rcases (deserialize_str h).mp he with ⟨error', rfl, heq⟩ | ⟨-, heq⟩
        · cases heq
          rfl
        · cases heq
    | obj fields =>
        obtain ⟨code, -, heq⟩ := deserialize_obj.mp he
        cases heq
    | _ => cases he
  · rintro rfl
    exact (deserialize_str h).mpr (Or.inl ⟨error, rfl, rfl⟩)

/-- An error that has been read hides nothing. -/
theorem deserialize_plain (h : ErrorCodes.Lawful E) (he : deserialize v = some e) : e.Plain := by
  cases v with
  | str s =>
      rcases (deserialize_str h).mp he with ⟨error, -, rfl⟩ | ⟨-, rfl⟩
      · exact trivial
      · exact ⟨Std.ExtTreeMap.getElem?_empty, Std.ExtTreeMap.getElem?_empty⟩
  | obj fields =>
      obtain ⟨code, -, rfl⟩ := deserialize_obj.mp he
      exact UnknownDomainError.ofMembers_plain _ code
  | _ => cases he

theorem roundTrip_iff (h : ErrorCodes.Lawful E) (e : DomainError E) :
    deserialize e.serialize = some e ↔ e.Plain := by
  refine ⟨deserialize_plain h, fun hplain => ?_⟩
  cases e with
  | declared error => exact (deserialize_declared h).mpr rfl
  | unknown error =>
      have hplain : error.Plain := hplain
      refine deserialize_obj.mpr ⟨error.code, ?_, ?_⟩
      · rw [UnknownDomainError.getElem?_entries, hplain.1]
        rfl
      · rw [UnknownDomainError.ofMembers_entries hplain]

end

end DomainError

/-! ## The five error types -/

theorem cancelError_lawful : ErrorCodes.Lawful CancelError :=
  ⟨fun error => by cases error <;> rfl, by decide⟩

theorem decideError_lawful : ErrorCodes.Lawful DecideError :=
  ⟨fun error => by cases error <;> rfl, by decide⟩

theorem expireError_lawful : ErrorCodes.Lawful ExpireError :=
  ⟨fun error => by cases error <;> rfl, by decide⟩

theorem readError_lawful : ErrorCodes.Lawful ReadError :=
  ⟨fun error => by cases error <;> rfl, by decide⟩

theorem requestError_lawful : ErrorCodes.Lawful RequestError :=
  ⟨fun error => by cases error <;> rfl, by decide⟩

/-- How the serde form of an error type and its schema fit together. -/
structure ErrorsAgree (E : Type) [ErrorCodes E] (schema : JsonSchema) : Prop where
  /-- What is valid is read as a declared error, and nothing else is. -/
  valid : ∀ v, schema v ↔ ∃ error : E, DomainError.deserialize v = some (.declared error)
  /-- A declared error is written in one way, which is valid. -/
  declared : ∀ v (error : E), DomainError.deserialize v = some (.declared error)
    ↔ v = (DomainError.declared error).serialize
  unknown : ∀ error, ¬ schema (DomainError.unknown (E := E) error).serialize
  roundTrip : ∀ e : DomainError E, DomainError.deserialize e.serialize = some e ↔ e.Plain
  /-- What has been read can be passed on. -/
  relayed : ∀ v (e : DomainError E), DomainError.deserialize v = some e →
    DomainError.deserialize e.serialize = some e

theorem errorsAgree {E : Type} [ErrorCodes E] (h : ErrorCodes.Lawful E) (names : List String)
    (hnames : names.Perm ((ErrorCodes.codes (E := E)).map Prod.fst)) (hnodup : names.Nodup) :
    ErrorsAgree E (oneOf (names.map const)) := by
  have hvalid : ∀ v, oneOf (names.map const) v ↔ ∃ error : E, v = .str (ErrorCodes.code error) := by
    intro v
    rw [oneOf_const_iff hnodup]
    constructor
    · rintro ⟨name, hmem, rfl⟩
      obtain ⟨⟨_, error⟩, hvariant, rfl⟩ := List.mem_map.mp (hnames.mem_iff.mp hmem)
      exact ⟨error, congrArg Json.str (h.named _ hvariant)⟩
    · rintro ⟨error, rfl⟩
      obtain ⟨before, after, heq, -⟩ := List.lookup_eq_some_iff.mp (h.lookup error)
      have hmem : (ErrorCodes.code error, error) ∈ ErrorCodes.codes :=
        heq ▸ List.mem_append_right before List.mem_cons_self
      exact ⟨_, hnames.mem_iff.mpr (List.mem_map.mpr ⟨_, hmem, rfl⟩), rfl⟩
  refine ⟨fun v => ?_, fun v error => ?_, fun error hschema => ?_, DomainError.roundTrip_iff h,
    fun v e he => ?_⟩
  · rw [hvalid]
    exact exists_congr fun error => (DomainError.deserialize_declared h).symm
  · exact DomainError.deserialize_declared h
  · obtain ⟨_, heq⟩ := (hvalid _).mp hschema
    cases heq
  · exact (DomainError.roundTrip_iff h e).mpr (DomainError.deserialize_plain h he)

theorem CancelError.agree : ErrorsAgree CancelError Published.cancelError :=
  errorsAgree cancelError_lawful ["forbidden", "invalid_request", "request_not_found",
    "not_requester", "already_terminal"] (by decide) (by decide)

theorem DecideError.agree : ErrorsAgree DecideError Published.decideError :=
  errorsAgree decideError_lawful ["forbidden", "invalid_request", "request_not_found",
    "already_terminal"] (by decide) (by decide)

theorem ExpireError.agree : ErrorsAgree ExpireError Published.expireError :=
  errorsAgree expireError_lawful ["forbidden", "invalid_request", "request_not_found",
    "already_terminal", "not_due"] (by decide) (by decide)

theorem ReadError.agree : ErrorsAgree ReadError Published.readError :=
  errorsAgree readError_lawful ["forbidden", "invalid_request", "request_not_found"] (by decide)
    (by decide)

theorem RequestError.agree : ErrorsAgree RequestError Published.requestError :=
  errorsAgree requestError_lawful ["forbidden", "invalid_request", "idempotency_conflict"]
    (by decide) (by decide)

/-- The error types agree with the schemas of their operations. -/
structure AllErrorsAgree : Prop where
  cancel : ErrorsAgree CancelError Published.cancelError
  decide : ErrorsAgree DecideError Published.decideError
  expire : ErrorsAgree ExpireError Published.expireError
  read : ErrorsAgree ReadError Published.readError
  request : ErrorsAgree RequestError Published.requestError

/-- **Domain errors on the wire** are the strings of their schemas, and others are passed on. -/
theorem domain_errors_agree : AllErrorsAgree where
  cancel := CancelError.agree
  decide := DecideError.agree
  expire := ExpireError.agree
  read := ReadError.agree
  request := RequestError.agree

end BusinessApproval
