import Mathlib.Data.List.Nodup
import Mathlib.Data.List.Perm.Subperm
import Mathlib.Logic.Function.Basic

/-!
# Tables with a primary and an alternate key

A table is a list of rows. `key` is its primary key and `alt` an alternate unique
key; `Unique` says neither repeats. Rows are found with `lookup` and written with
`put`, which replaces the row with the same key or appends a new one. Under
`Unique` a table is, for every purpose, the function `lookup` of its keys, and
the lemmas below say how that function changes.
-/

namespace Keyed

variable {ρ κ κ₂ : Type} [DecidableEq κ] [DecidableEq κ₂] {key : ρ → κ} {alt : ρ → κ₂}

/-- The row with key `k`. -/
def lookup (key : ρ → κ) (T : List ρ) (k : κ) : Option ρ := T.find? (fun r => key r == k)

/-- Write a row: over the one with its key, or at the end. -/
def put (key : ρ → κ) (T : List ρ) (r : ρ) : List ρ :=
  if T.any (fun s => key s == key r) then T.map (fun s => if key s == key r then r else s)
  else T ++ [r]

/-- Some row of the table has one of the keys of `r`. -/
def taken (key : ρ → κ) (alt : ρ → κ₂) (T : List ρ) (r : ρ) : Bool :=
  T.any (fun s => key s == key r || alt s == alt r)

/-- No two rows share a key of either kind. -/
structure Unique (key : ρ → κ) (alt : ρ → κ₂) (T : List ρ) : Prop where
  keys : (T.map key).Nodup
  alts : (T.map alt).Nodup

omit [DecidableEq κ] [DecidableEq κ₂] in
theorem unique_nil : Unique key alt ([] : List ρ) := ⟨List.nodup_nil, List.nodup_nil⟩

/-! ## Lookup -/

@[simp] theorem lookup_nil (k : κ) : lookup key ([] : List ρ) k = none := rfl

theorem lookup_cons (r : ρ) (T : List ρ) (k : κ) :
    lookup key (r :: T) k = if key r = k then some r else lookup key T k := by
  unfold lookup
  by_cases h : key r = k
  · simp [h]
  · simp [h]

theorem mem_of_lookup {T : List ρ} {k : κ} {r : ρ} (h : lookup key T k = some r) : r ∈ T :=
  List.mem_of_find?_eq_some h

theorem key_of_lookup {T : List ρ} {k : κ} {r : ρ} (h : lookup key T k = some r) : key r = k := by
  have := List.find?_some h
  simpa using this

theorem lookup_eq_none {T : List ρ} {k : κ} :
    lookup key T k = none ↔ ∀ r ∈ T, key r ≠ k := by
  unfold lookup
  rw [List.find?_eq_none]
  simp

theorem lookup_of_mem {T : List ρ} (h : (T.map key).Nodup) {r : ρ} (hr : r ∈ T) :
    lookup key T (key r) = some r := by
  induction T with
  | nil => exact absurd hr (by simp)
  | cons s T ih =>
      rw [List.map_cons, List.nodup_cons] at h
      rw [lookup_cons]
      rcases List.mem_cons.mp hr with heq | hmem
      · rw [if_pos (by rw [heq]), heq]
      · have hne : key s ≠ key r := fun he => h.1 (he ▸ List.mem_map_of_mem hmem)
        rw [if_neg hne]
        exact ih h.2 hmem

omit [DecidableEq κ₂] in
theorem eq_of_alt {T : List ρ} (h : (T.map alt).Nodup) {r s : ρ} (hr : r ∈ T) (hs : s ∈ T)
    (he : alt r = alt s) : r = s :=
  List.inj_on_of_nodup_map h hr hs he

theorem filter_key {T : List ρ} (h : (T.map key).Nodup) (k : κ) :
    T.filter (fun r => key r == k) = (lookup key T k).toList := by
  induction T with
  | nil => rfl
  | cons s T ih =>
      rw [List.map_cons, List.nodup_cons] at h
      rw [List.filter_cons, lookup_cons]
      by_cases hk : key s = k
      · have hnone : lookup key T k = none :=
          lookup_eq_none.mpr (fun r hr he => h.1 (hk ▸ he ▸ List.mem_map_of_mem hr))
        rw [if_pos (by simpa using hk), if_pos hk, ih h.2, hnone]
        rfl
      · rw [if_neg (by simpa using hk), if_neg hk, ih h.2]

/-- A condition that fixes the key selects the row with that key, if it meets the condition. -/
theorem filter_of_key {T : List ρ} (h : (T.map key).Nodup) {k : κ} {p : ρ → Bool}
    (hp : ∀ r, p r = true → key r = k) : T.filter p = ((lookup key T k).filter p).toList := by
  -- the condition contains the test of the key
  have hboth : T.filter p = (T.filter (fun r => key r == k)).filter p := by
    rw [List.filter_filter]
    refine List.filter_congr (fun r _ => ?_)
    cases hr : p r with
    | false => rfl
    | true => rw [hp r hr, beq_self_eq_true]; rfl
  rw [hboth, filter_key h]
  cases lookup key T k with
  | none => rfl
  | some r =>
      rw [Option.filter_some, Option.toList_some, List.filter_cons, List.filter_nil]
      split <;> rfl

/-- A condition that only one row of the table meets selects that row. -/
theorem filter_eq_singleton {T : List ρ} (h : (T.map key).Nodup) {r : ρ} (hr : r ∈ T)
    {p : ρ → Bool} (hp : p r = true) (hone : ∀ s ∈ T, p s = true → s = r) : T.filter p = [r] := by
  -- on this table the condition is the test of the row's key
  have hkey : T.filter p = T.filter (fun s => key s == key r) := by
    refine List.filter_congr (fun s hs => ?_)
    by_cases hk : key s = key r
    · have hsr : s = r := List.inj_on_of_nodup_map h hs hr hk
      rw [hsr, hp, beq_self_eq_true]
    · have hns : p s = false := by
        by_contra hps
        rw [Bool.not_eq_false] at hps
        exact hk (by rw [hone s hs hps])
      rw [hns, beq_eq_false_iff_ne.mpr hk]
  rw [hkey, filter_key h, lookup_of_mem h hr, Option.toList_some]

/-- At most two rows have one of two keys. -/
theorem length_filter_le_two {T : List ρ} (h : Unique key alt T) {p : ρ → Bool} {k : κ} {a : κ₂}
    (hp : ∀ r, p r = true → key r = k ∨ alt r = a) : (T.filter p).length ≤ 2 := by
  have hsub : T.filter p ⊆ (lookup key T k).toList ++ (lookup alt T a).toList := by
    intro r hr
    obtain ⟨hmem, hpr⟩ := List.mem_filter.mp hr
    rw [← filter_key h.keys, ← filter_key h.alts]
    rcases hp r hpr with hk | ha
    · exact List.mem_append_left _ (List.mem_filter.mpr ⟨hmem, by simpa using hk⟩)
    · exact List.mem_append_right _ (List.mem_filter.mpr ⟨hmem, by simpa using ha⟩)
  have hle := (((List.Nodup.of_map key h.keys).filter p).subperm hsub).length_le
  rw [List.length_append] at hle
  have hkey : (lookup key T k).toList.length ≤ 1 := by cases lookup key T k <;> simp
  have halt : (lookup alt T a).toList.length ≤ 1 := by cases lookup alt T a <;> simp
  omega

/-! ## Writing -/

theorem put_of_fresh {T : List ρ} {r : ρ} (h : lookup key T (key r) = none) :
    put key T r = T ++ [r] := by
  unfold put
  rw [if_neg]
  simp only [List.any_eq_true, beq_iff_eq, not_exists, not_and]
  exact lookup_eq_none.mp h

theorem put_of_old {T : List ρ} {r s : ρ} (h : lookup key T (key r) = some s) :
    put key T r = T.map (fun s => if key s == key r then r else s) := by
  unfold put
  rw [if_pos]
  rw [List.any_eq_true]
  exact ⟨s, mem_of_lookup h, by simpa using key_of_lookup h⟩

theorem map_key_put_of_old {T : List ρ} {r s : ρ} (h : lookup key T (key r) = some s) :
    (put key T r).map key = T.map key := by
  rw [put_of_old h, List.map_map]
  refine List.map_congr_left (fun x _ => ?_)
  by_cases hx : key x = key r
  · simp [hx]
  · simp [hx]

private theorem lookup_replace (T : List ρ) (r : ρ) (k : κ) :
    lookup key (T.map (fun s => if key s == key r then r else s)) k
      = if k = key r then (lookup key T k).map (fun _ => r) else lookup key T k := by
  induction T with
  | nil => simp
  | cons s T ih =>
      rw [List.map_cons, lookup_cons, lookup_cons, ih]
      by_cases hs : key s = key r
      · by_cases hk : k = key r
        · simp [hs, hk]
        · have hk' : ¬ key r = k := fun he => hk he.symm
          simp [hs, hk, hk']
      · by_cases hk : k = key r
        · simp [hs, hk]
        · by_cases hsk : key s = k
          · simp [hk, hsk]
          · simp [hs, hk, hsk]

/-- After a write, the key of the row finds it and every other key finds what it found. -/
theorem lookup_put (T : List ρ) (r : ρ) (k : κ) :
    lookup key (put key T r) k = if k = key r then some r else lookup key T k := by
  cases h : lookup key T (key r) with
  | none =>
      rw [put_of_fresh h]
      unfold lookup
      rw [List.find?_append]
      by_cases hk : k = key r
      · subst hk
        have : T.find? (fun s => key s == key r) = none := h
        simp [this]
      · have hk' : ¬ key r = k := fun he => hk he.symm
        cases hf : T.find? (fun s => key s == k) with
        | none => simp [hk, hk']
        | some s => simp [hk]
  | some s =>
      rw [put_of_old h, lookup_replace]
      by_cases hk : k = key r
      · simp [hk, h]
      · simp [hk]

@[simp] theorem lookup_put_self (T : List ρ) (r : ρ) :
    lookup key (put key T r) (key r) = some r := by
  rw [lookup_put, if_pos rfl]

theorem lookup_put_ne {T : List ρ} {r : ρ} {k : κ} (h : k ≠ key r) :
    lookup key (put key T r) k = lookup key T k := by
  rw [lookup_put, if_neg h]

omit [DecidableEq κ₂] in
/-- Writing keeps the primary keys apart, whether the row is new or not. -/
theorem nodup_put {T : List ρ} (h : (T.map key).Nodup) (r : ρ) :
    ((put key T r).map key).Nodup := by
  cases hr : lookup key T (key r) with
  | some s =>
      rw [map_key_put_of_old hr]
      exact h
  | none =>
      rw [put_of_fresh hr, List.map_append, List.map_singleton, ← List.concat_eq_append]
      refine h.concat fun hmem => ?_
      obtain ⟨s, hs, hkey⟩ := List.mem_map.mp hmem
      exact lookup_eq_none.mp hr s hs hkey

/-- Writing a row that is there changes nothing. -/
theorem put_self {T : List ρ} (h : (T.map key).Nodup) {r : ρ}
    (hr : lookup key T (key r) = some r) : put key T r = T := by
  rw [put_of_old hr]
  refine (List.map_congr_left fun s hs => ?_).trans (List.map_id T)
  by_cases hk : key s = key r
  · have hsr := lookup_of_mem h hs
    rw [hk, hr] at hsr
    rw [if_pos (beq_iff_eq.mpr hk), Option.some.inj hsr]
    rfl
  · rw [if_neg (by simpa using hk)]
    rfl

/-- Writing a row keeps the rows with other keys. -/
theorem mem_put_of_ne {T : List ρ} {r s : ρ} (hs : s ∈ T) (hne : key s ≠ key r) :
    s ∈ put key T r := by
  unfold put
  split
  · exact List.mem_map.mpr ⟨s, hs, if_neg (by simpa using hne)⟩
  · exact List.mem_append_left _ hs

/-- Changing the rows that meet a condition that fixes the key is one write, or none. -/
theorem map_of_key {T : List ρ} (h : (T.map key).Nodup) {k : κ} {p : ρ → Bool}
    (hp : ∀ r, p r = true → key r = k) {f : ρ → ρ} (hf : ∀ r, key (f r) = key r) :
    T.map (fun r => if p r then f r else r)
      = ((lookup key T k).filter p).elim T (fun r => put key T (f r)) := by
  cases hl : (lookup key T k).filter p with
  | none =>
      refine (List.map_congr_left (fun r hr => ?_)).trans (List.map_id _)
      have hpr : ¬ p r = true := by
        intro hpr
        have hfind := lookup_of_mem h hr
        rw [hp r hpr] at hfind
        rw [hfind, Option.filter_some, if_pos hpr] at hl
        cases hl
      rw [if_neg hpr]
      rfl
  | some r =>
      obtain ⟨hfind, hpr⟩ := Option.filter_eq_some_iff.mp hl
      have hkey : key r = k := key_of_lookup hfind
      have hold : lookup key T (key (f r)) = some r := by rw [hf, hkey, hfind]
      rw [Option.elim_some, put_of_old hold]
      refine List.map_congr_left (fun s hs => ?_)
      by_cases hks : key s = k
      · have hsr : s = r := List.inj_on_of_nodup_map h hs (mem_of_lookup hfind) (hks.trans hkey.symm)
        rw [hsr, if_pos hpr, if_pos (by rw [hf, beq_self_eq_true])]
      · have hns : ¬ p s = true := fun hps => hks (hp s hps)
        rw [if_neg hns, if_neg (by rw [hf, hkey]; simpa using hks)]

theorem mem_put {T : List ρ} {r x : ρ} (h : x ∈ put key T r) : x = r ∨ x ∈ T := by
  unfold put at h
  split at h
  · obtain ⟨s, hs, hx⟩ := List.mem_map.mp h
    by_cases hk : key s = key r
    · left; rw [if_pos (by simpa using hk)] at hx; exact hx.symm
    · right; rw [if_neg (by simpa using hk)] at hx; exact hx ▸ hs
  · rcases List.mem_append.mp h with h | h
    · exact Or.inr h
    · exact Or.inl (List.mem_singleton.mp h)

theorem taken_eq_false {T : List ρ} {r : ρ} :
    taken key alt T r = false ↔ (∀ s ∈ T, key s ≠ key r) ∧ (∀ s ∈ T, alt s ≠ alt r) := by
  simp only [taken, List.any_eq_false, Bool.or_eq_true, beq_iff_eq, not_or]
  exact ⟨fun h => ⟨fun s hs => (h s hs).1, fun s hs => (h s hs).2⟩,
    fun h s hs => ⟨h.1 s hs, h.2 s hs⟩⟩

/-- Appending a row whose keys are both free keeps the keys unique. -/
theorem Unique.put_fresh {T : List ρ} (h : Unique key alt T) {r : ρ}
    (hr : taken key alt T r = false) : Unique key alt (put key T r) := by
  obtain ⟨hk, ha⟩ := taken_eq_false.mp hr
  rw [put_of_fresh (lookup_eq_none.mpr hk)]
  refine ⟨?_, ?_⟩
  · rw [List.map_append, List.map_singleton, List.nodup_append]
    refine ⟨h.keys, List.nodup_singleton _, ?_⟩
    intro x hx y hy
    obtain ⟨s, hs, rfl⟩ := List.mem_map.mp hx
    rw [List.mem_singleton] at hy
    exact hy ▸ hk s hs
  · rw [List.map_append, List.map_singleton, List.nodup_append]
    refine ⟨h.alts, List.nodup_singleton _, ?_⟩
    intro x hx y hy
    obtain ⟨s, hs, rfl⟩ := List.mem_map.mp hx
    rw [List.mem_singleton] at hy
    exact hy ▸ ha s hs

omit [DecidableEq κ₂] in
/-- Replacing a row by one with the same keys keeps the keys unique. -/
theorem Unique.put_same {T : List ρ} (h : Unique key alt T) {r s : ρ}
    (hs : lookup key T (key r) = some s) (ha : alt r = alt s) : Unique key alt (put key T r) := by
  refine ⟨by rw [map_key_put_of_old hs]; exact h.keys, ?_⟩
  have halt : (put key T r).map alt = T.map alt := by
    rw [put_of_old hs, List.map_map]
    refine List.map_congr_left (fun x hx => ?_)
    by_cases hk : key x = key r
    · have hxs : x = s := by
        have := lookup_of_mem h.keys hx
        rw [hk, hs] at this
        exact (Option.some.inj this).symm
      rw [Function.comp_apply, if_pos (by simpa using hk), ha, hxs]
    · simp [hk]
  rw [halt]
  exact h.alts

end Keyed
