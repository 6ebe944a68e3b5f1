import BusinessApproval.Model.ConfigWire
import BusinessApproval.Proof.Configuration
import BusinessApproval.Proof.ReasonLimit
import BusinessApproval.Proof.Wire

/-!
# A configuration and its schema

The schema of a configuration knows how many callers a list may have and how long they may
be; the plugin knows their form, and checks them again when it starts. An object that the
schema rejects is never one the plugin starts with, and one that it accepts lacks only the
form of the names in it.
-/

namespace BusinessApproval

open JsonSchema

/-! ## Lists of callers -/

theorem string_length {s : String} {minimum maximum : Nat} :
    string [minLength minimum, maxLength maximum] (.str s)
      ↔ minimum ≤ s.length ∧ s.length ≤ maximum := by
  simp [minLength, maxLength]

theorem one_le_length {s : String} (h : s ≠ "") : 1 ≤ s.length := by
  rwa [Nat.one_le_iff_ne_zero, ne_eq, ← String.length_toList, List.length_eq_zero_iff,
    String.toList_eq_nil_iff]

/-- A list of callers as the schemas have it. -/
structure Listable (callers : List String) : Prop where
  size : SizeInRange callers
  length : ∀ caller ∈ callers, 1 ≤ caller.length ∧ caller.length ≤ 256
  distinct : callers.Nodup

theorem callers_str {callers : List String} :
    Published.callers (serializeCallers callers) ↔ Listable callers := by
  have hinjective : Function.Injective Json.str := fun _ _ h => Json.str.inj h
  constructor
  · rintro ⟨elems, heq, hmin, hmax, hdistinct, hitems⟩
    cases heq
    rw [List.length_map] at hmin hmax
    exact ⟨⟨hmin, hmax⟩, fun caller hmem => string_length.mp (hitems _ (List.mem_map_of_mem hmem)),
      (List.nodup_map_iff hinjective).mp hdistinct⟩
  · rintro ⟨⟨hmin, hmax⟩, hlength, hdistinct⟩
    refine ⟨_, rfl, by rwa [List.length_map], by rwa [List.length_map],
      (List.nodup_map_iff hinjective).mpr hdistinct, fun elem hmem => ?_⟩
    obtain ⟨caller, hcaller, rfl⟩ := List.mem_map.mp hmem
    exact string_length.mpr (hlength caller hcaller)

theorem callers_iff {v : Json} :
    Published.callers v ↔ ∃ callers, v = serializeCallers callers ∧ Listable callers := by
  constructor
  · intro h
    obtain ⟨elems, rfl, -, -, -, hitems⟩ := id h
    have hstrings : ∃ callers : List String, elems = callers.map .str := by
      clear h
      induction elems with
      | nil => exact ⟨[], rfl⟩
      | cons elem elems ih =>
          obtain ⟨callers, rfl⟩ := ih fun e he => hitems e (List.mem_cons_of_mem _ he)
          obtain ⟨caller, rfl, -⟩ := hitems elem List.mem_cons_self
          exact ⟨caller :: callers, rfl⟩
    obtain ⟨callers, rfl⟩ := hstrings
    exact ⟨callers, rfl, callers_str.mp h⟩
  · rintro ⟨callers, rfl, h⟩
    exact callers_str.mpr h

/-- A list of callers that must be there. -/
theorem meets_callers {required : List String} {fields : List (String × Json)} {name : String}
    (h : name ∈ required) : Meets required fields (name, Published.callers)
      ↔ ∃ callers, Json.getField name fields = some (serializeCallers callers)
        ∧ Listable callers := by
  rw [meets_required h]
  constructor
  · rintro ⟨_, hget, hv⟩
    obtain ⟨callers, rfl, hlist⟩ := callers_iff.mp hv
    exact ⟨callers, hget, hlist⟩
  · rintro ⟨callers, hget, hlist⟩
    exact ⟨_, hget, callers_str.mpr hlist⟩

theorem asStr_eq_some {v : Json} {s : String} : v.asStr = some s ↔ v = .str s := by
  cases v <;> simp [Json.asStr]

/-- How a list of callers is read. -/
theorem field_callers {fields : List (String × Json)} {position : Nat} {name : String}
    {callers : List String} :
    Serde.field (.obj fields) position (Serde.present name (Serde.vec Json.asStr)) = some callers
      ↔ Json.getField name fields = some (serializeCallers callers) := by
  have hread : ∀ v, Serde.vec Json.asStr v = some callers ↔ v = serializeCallers callers :=
    fun _ => Serde.vec_eq_some fun _ _ => asStr_eq_some
  simp only [Serde.field_present_eq_some, hread, exists_eq_right]

/-- How a text is read. -/
theorem field_text {fields : List (String × Json)} {position : Nat} {name s : String} :
    Serde.field (.obj fields) position (Serde.present name Json.asStr) = some s
      ↔ Json.getField name fields = some (.str s) := by
  simp only [Serde.field_present_eq_some, asStr_eq_some, exists_eq_right]

/-- An instance key is neither empty nor too long for the schema. -/
theorem InstanceKey.length {s : String} (h : InstanceKey s) : 1 ≤ s.length ∧ s.length ≤ 256 := by
  refine ⟨one_le_length ?_, (length_le_utf8ByteSize s).trans h.size⟩
  rcases h.form with hsegment | ⟨u, v, -, -, rfl⟩
  · exact hsegment.nonempty
  · intro heq
    have hslash : '/' ∈ (u ++ "/" ++ v).toList := by simp
    rw [heq] at hslash
    cases hslash

/-- Neither is a path. -/
theorem CleanPath.length {s : String} (h : CleanPath s) : 1 ≤ s.length ∧ s.length ≤ 256 := by
  obtain ⟨hsize, hsegments⟩ := cleanPath_iff.mp h
  have hne := (no_empty_segment_iff.mpr fun w hw => (hsegments w hw).segment.nonempty).1
  exact ⟨one_le_length hne, (length_le_utf8ByteSize s).trans hsize⟩

/-- **What the plugin asks of a list** is what the schema does, and the form of the keys. -/
theorem callersInOrder_iff_listable {callers : List String} : CallersInOrder callers
    ↔ Listable callers ∧ ∀ caller ∈ callers, InstanceKey caller := by
  constructor
  · rintro ⟨hsize, hform, hdistinct⟩
    exact ⟨⟨hsize, fun caller hmem => (hform caller hmem).length, hdistinct⟩, hform⟩
  · rintro ⟨⟨hsize, -, hdistinct⟩, hform⟩
    exact ⟨hsize, hform, hdistinct⟩

/-! ## Objects -/

/-- A configuration as a schema has it, as serde does and as the plugin does. -/
structure Configures {α : Type} (serialize : α → Json) (deserialize : Json → Option α)
    (schema : JsonSchema) (Admits Accepted Formed : α → Prop) : Prop where
  roundTrip : ∀ config, deserialize (serialize config) = some config
  /-- The schema is that of the objects that are read, but for what it admits. -/
  objects : ∀ fields, schema (.obj fields)
    ↔ ∃ config, deserialize (.obj fields) = some config ∧ Admits config
  onlyObjects : ∀ v, schema v → ∃ fields, v = .obj fields
  /-- What the plugin starts with is admitted, and lacks no form either. -/
  accepted : ∀ config, Accepted config ↔ Admits config ∧ Formed config

namespace ApprovalPolicy

/-- What the schema asks of a policy. -/
structure Admits (config : ApprovalPolicy) : Prop where
  requesterInstances : Listable config.requesterInstances
  deciderInstances : Listable config.deciderInstances
  expirationExecutorInstances : Listable config.expirationExecutorInstances

/-- What only the plugin asks of a policy. -/
structure Formed (config : ApprovalPolicy) : Prop where
  requesterInstances : ∀ caller ∈ config.requesterInstances, InstanceKey caller
  deciderInstances : ∀ caller ∈ config.deciderInstances, InstanceKey caller
  expirationExecutorInstances : ∀ caller ∈ config.expirationExecutorInstances, InstanceKey caller

/-- The members of an object that a policy is read from. -/
structure Members (config : ApprovalPolicy) (fields : List (String × Json)) : Prop where
  requesterInstances : Json.getField "requester_instances" fields
    = some (serializeCallers config.requesterInstances)
  deciderInstances : Json.getField "decider_instances" fields
    = some (serializeCallers config.deciderInstances)
  expirationExecutorInstances : Json.getField "expiration_executor_instances" fields
    = some (serializeCallers config.expirationExecutorInstances)

theorem deserialize_obj {config : ApprovalPolicy} {fields : List (String × Json)} :
    deserialize (.obj fields) = some config ↔ ((fields.map Prod.fst).Nodup
      ∧ fields.map Prod.fst
        ⊆ ["requester_instances", "decider_instances", "expiration_executor_instances"])
      ∧ config.Members fields := by
  unfold deserialize
  simp only [bind, Option.bind_eq_some_iff, Option.guard_eq_some', Serde.isStrictStruct_obj,
    field_callers, pure, Option.some.injEq]
  constructor
  · rintro ⟨-, hshape, requesters, hrequesters, deciders, hdeciders, executors, hexecutors, rfl⟩
    exact ⟨hshape, hrequesters, hdeciders, hexecutors⟩
  · rintro ⟨hshape, hm⟩
    exact ⟨(), hshape, _, hm.requesterInstances, _, hm.deciderInstances, _,
      hm.expirationExecutorInstances, rfl⟩

theorem schema_obj {fields : List (String × Json)} : Published.d1Configuration (.obj fields)
    ↔ ∃ config, deserialize (.obj fields) = some config ∧ config.Admits := by
  rw [Published.d1Configuration, object_iff (by simp) (by simp)]
  simp (disch := simp) only [List.forall_mem_cons, List.not_mem_nil, false_implies,
    implies_true, and_true, meets_callers]
  constructor
  · rintro ⟨hnodup, hclosed, ⟨requesters, hr, hr'⟩, ⟨deciders, hd, hd'⟩, executors, he, he'⟩
    exact ⟨⟨requesters, deciders, executors⟩,
      deserialize_obj.mpr ⟨⟨hnodup, hclosed⟩, ⟨hr, hd, he⟩⟩, ⟨hr', hd', he'⟩⟩
  · rintro ⟨config, hread, hadmits⟩
    obtain ⟨⟨hnodup, hclosed⟩, hm⟩ := deserialize_obj.mp hread
    exact ⟨hnodup, hclosed, ⟨_, hm.requesterInstances, hadmits.requesterInstances⟩,
      ⟨_, hm.deciderInstances, hadmits.deciderInstances⟩, _, hm.expirationExecutorInstances,
      hadmits.expirationExecutorInstances⟩

theorem validate_iff {config : ApprovalPolicy} :
    config.validate = .ok () ↔ config.Admits ∧ config.Formed := by
  rw [policy_accepted]
  simp only [callersInOrder_iff_listable]
  constructor
  · rintro ⟨⟨hr, hr'⟩, ⟨hd, hd'⟩, he, he'⟩
    exact ⟨⟨hr, hd, he⟩, hr', hd', he'⟩
  · rintro ⟨⟨hr, hd, he⟩, hr', hd', he'⟩
    exact ⟨⟨hr, hr'⟩, ⟨hd, hd'⟩, he, he'⟩

theorem configures : Configures serialize deserialize Published.d1Configuration Admits
    (fun config => config.validate = .ok ()) Formed where
  roundTrip := fun config =>
    deserialize_obj.mpr ⟨⟨by simp, by simp⟩, rfl, rfl, rfl⟩
  objects := fun _ => schema_obj
  onlyObjects := fun _ ⟨fields, h, _⟩ => ⟨fields, h⟩
  accepted := fun _ => validate_iff

end ApprovalPolicy

namespace Postgres.BusinessApprovalConfig

/-- What the schema asks of a configuration. -/
structure Admits (config : BusinessApprovalConfig) : Prop where
  schema : 1 ≤ config.schema.length ∧ config.schema.length ≤ 63
  databaseUrlSecret : 1 ≤ config.databaseUrlSecret.length ∧ config.databaseUrlSecret.length ≤ 256
  policy : config.policy.Admits

/-- What only the plugin asks of a configuration. -/
structure Formed (schemaPlan : String → Bool) (config : BusinessApprovalConfig) : Prop where
  schema : schemaPlan config.schema = true
  databaseUrlSecret : CleanPath config.databaseUrlSecret
  policy : config.policy.Formed

/-- The members of an object that a configuration is read from. -/
structure Members (config : BusinessApprovalConfig) (fields : List (String × Json)) : Prop where
  schema : Json.getField "schema" fields = some (.str config.schema)
  databaseUrlSecret : Json.getField "database_url_secret" fields
    = some (.str config.databaseUrlSecret)
  policy : config.policy.Members fields

theorem deserialize_obj {config : BusinessApprovalConfig} {fields : List (String × Json)} :
    deserialize (.obj fields) = some config ↔ ((fields.map Prod.fst).Nodup
      ∧ fields.map Prod.fst ⊆ ["schema", "database_url_secret", "requester_instances",
        "decider_instances", "expiration_executor_instances"])
      ∧ config.Members fields := by
  unfold deserialize
  simp only [bind, Option.bind_eq_some_iff, Option.guard_eq_some', Serde.isStrictStruct_obj,
    field_callers, field_text, pure, Option.some.injEq]
  constructor
  · rintro ⟨-, hshape, schema, hschema, secret, hsecret, requesters, hrequesters, deciders,
      hdeciders, executors, hexecutors, rfl⟩
    exact ⟨hshape, hschema, hsecret, hrequesters, hdeciders, hexecutors⟩
  · rintro ⟨hshape, hm⟩
    exact ⟨(), hshape, _, hm.schema, _, hm.databaseUrlSecret, _, hm.policy.requesterInstances, _,
      hm.policy.deciderInstances, _, hm.policy.expirationExecutorInstances, rfl⟩

theorem schema_obj {fields : List (String × Json)} : Published.postgresConfiguration (.obj fields)
    ↔ ∃ config, deserialize (.obj fields) = some config ∧ config.Admits := by
  rw [Published.postgresConfiguration, object_iff (by simp) (by simp)]
  simp (disch := simp) only [List.forall_mem_cons, List.not_mem_nil, false_implies,
    implies_true, and_true, meets_callers]
  simp (disch := simp) only [meets_required]
  constructor
  · rintro ⟨hnodup, hclosed, ⟨_, hs, schema, rfl, hs'⟩, ⟨_, hu, secret, rfl, hu'⟩,
      ⟨requesters, hr, hr'⟩, ⟨deciders, hd, hd'⟩, executors, he, he'⟩
    exact ⟨⟨schema, secret, requesters, deciders, executors⟩,
      deserialize_obj.mpr ⟨⟨hnodup, hclosed⟩, hs, hu, hr, hd, he⟩,
      string_length.mp (string_str.mpr hs'), string_length.mp (string_str.mpr hu'), hr', hd', he'⟩
  · rintro ⟨config, hread, hadmits⟩
    obtain ⟨⟨hnodup, hclosed⟩, hs, hu, hr, hd, he⟩ := deserialize_obj.mp hread
    obtain ⟨hs', hu', hr', hd', he'⟩ := hadmits
    exact ⟨hnodup, hclosed, ⟨_, hs, string_length.mpr hs'⟩, ⟨_, hu, string_length.mpr hu'⟩,
      ⟨_, hr, hr'⟩, ⟨_, hd, hd'⟩, _, he, he'⟩

/-- A name that a plan is made of may still be too long for the schema. -/
theorem validateConfig_iff {schemaPlan : String → Bool} {config : BusinessApprovalConfig} :
    (validateConfig schemaPlan config = .ok ()
        ∧ 1 ≤ config.schema.length ∧ config.schema.length ≤ 63)
      ↔ config.Admits ∧ config.Formed schemaPlan := by
  rw [config_accepted, ApprovalPolicy.validate_iff]
  constructor
  · rintro ⟨⟨hplan, hpath, hadmits, hformed⟩, hlength⟩
    exact ⟨⟨hlength, hpath.length, hadmits⟩, hplan, hpath, hformed⟩
  · rintro ⟨⟨hlength, -, hadmits⟩, hplan, hpath, hformed⟩
    exact ⟨⟨hplan, hpath, hadmits, hformed⟩, hlength⟩

theorem configures (schemaPlan : String → Bool) :
    Configures serialize deserialize Published.postgresConfiguration Admits
      (fun config => validateConfig schemaPlan config = .ok ()
        ∧ 1 ≤ config.schema.length ∧ config.schema.length ≤ 63) (Formed schemaPlan) where
  roundTrip := fun config =>
    deserialize_obj.mpr ⟨⟨by simp, by simp⟩, rfl, rfl, rfl, rfl, rfl⟩
  objects := fun _ => schema_obj
  onlyObjects := fun _ ⟨fields, h, _⟩ => ⟨fields, h⟩
  accepted := fun _ => validateConfig_iff

end Postgres.BusinessApprovalConfig

/-- The configurations of the two plugins, for whatever makes plans of schema names. -/
structure ConfigurationsAgree (schemaPlan : String → Bool) : Prop where
  d1 : Configures ApprovalPolicy.serialize ApprovalPolicy.deserialize Published.d1Configuration
    ApprovalPolicy.Admits (fun config => config.validate = .ok ()) ApprovalPolicy.Formed
  postgres : Configures Postgres.BusinessApprovalConfig.serialize
    Postgres.BusinessApprovalConfig.deserialize Published.postgresConfiguration
    Postgres.BusinessApprovalConfig.Admits
    (fun config => Postgres.validateConfig schemaPlan config = .ok ()
      ∧ 1 ≤ config.schema.length ∧ config.schema.length ≤ 63)
    (Postgres.BusinessApprovalConfig.Formed schemaPlan)

/-- **A plugin starts with what its schema admits and its own checks add**: the schema is that
of the objects that are read, and nothing that it rejects is started with. -/
theorem configurations_agree (schemaPlan : String → Bool) : ConfigurationsAgree schemaPlan :=
  ⟨ApprovalPolicy.configures, Postgres.BusinessApprovalConfig.configures schemaPlan⟩

end BusinessApproval
