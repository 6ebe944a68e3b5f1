import BusinessApproval.Lib.Concurrent
import Mathlib.Data.List.Nodup

/-!
# Linearization

A history of concurrent calls is linearized by an order of the calls in which, run
one at a time, they give the answers the history records, and which does not go
against real time. The order is built up along the run: a call is put at its end at
one moment between its beginning and its end, its linearization point. `invoke`,
`respond` and `point` say what each of the three needs.

Some calls fail and may or may not have had their effect; only a call whose answer
is one that `completes` has to be in the order.

Like the history, an order has its newest entry first.

An order in which the calls do what they do under a simpler specification linearizes the
history under that one too (`Linearizes.refines`).
-/

namespace Concurrent

variable {ι α κ τ : Type}

/-- A call of a client, with what else its run alone depends on. -/
structure Entry (ι κ : Type) where
  client : Nat
  stamp : κ
  call : ι

section Serial

variable (spec : κ → ι → τ → α × τ) (s₀ : τ)

/-- The state after the calls of an order, run one at a time. -/
def serial : List (Entry ι κ) → τ
  | [] => s₀
  | e :: earlier => (spec e.stamp e.call (serial earlier)).2

/-- The answer a client's call gets when the calls run one at a time. -/
def answerIn : List (Entry ι κ) → Nat → Option α
  | [], _ => none
  | e :: earlier, t =>
      if e.client = t then some (spec e.stamp e.call (serial spec s₀ earlier)).1
      else answerIn earlier t

@[simp] theorem serial_nil : serial spec s₀ [] = s₀ := rfl

@[simp] theorem serial_cons (e : Entry ι κ) (earlier : List (Entry ι κ)) :
    serial spec s₀ (e :: earlier) = (spec e.stamp e.call (serial spec s₀ earlier)).2 := rfl

@[simp] theorem answerIn_nil (t : Nat) : answerIn spec s₀ [] t = none := rfl

theorem answerIn_cons (e : Entry ι κ) (earlier : List (Entry ι κ)) (t : Nat) :
    answerIn spec s₀ (e :: earlier) t
      = if e.client = t then some (spec e.stamp e.call (serial spec s₀ earlier)).1
        else answerIn spec s₀ earlier t := rfl

theorem answerIn_eq_none {order : List (Entry ι κ)} {t : Nat} :
    answerIn spec s₀ order t = none ↔ t ∉ order.map Entry.client := by
  induction order with
  | nil => simp
  | cons e earlier ih =>
      rw [answerIn_cons, List.map_cons, List.mem_cons, not_or, ← ih]
      by_cases he : e.client = t
      · simp [he]
      · simp [he, Ne.symm he]

/-- A client with an answer has one entry, and it is the entry's. -/
theorem exists_of_answerIn {order : List (Entry ι κ)} {t : Nat} {a : α}
    (h : answerIn spec s₀ order t = some a) : ∃ e earlier, e :: earlier <:+ order
      ∧ e.client = t ∧ (spec e.stamp e.call (serial spec s₀ earlier)).1 = a := by
  induction order with
  | nil => cases h
  | cons e earlier ih =>
      rw [answerIn_cons] at h
      by_cases he : e.client = t
      · rw [if_pos he] at h
        exact ⟨e, earlier, List.suffix_rfl, he, Option.some.inj h⟩
      · rw [if_neg he] at h
        obtain ⟨e', earlier', hsuffix, hclient, hanswer⟩ := ih h
        exact ⟨e', earlier', hsuffix.trans (List.suffix_cons e earlier), hclient, hanswer⟩

end Serial

/-! ## Real time -/

section RealTime

variable (completes : α → Prop)

/-- The call of `t` had completed before the call of `u` was made. -/
inductive Precedes (t u : Nat) : List (Event ι α) → Prop
  | invoked {call call' : ι} {a : α} {history : List (Event ι α)}
      (h : .responded t call a ∈ history) (ha : completes a) :
      Precedes t u (.invoked u call' :: history)
  | older {event : Event ι α} {history : List (Event ι α)} (h : Precedes t u history) :
      Precedes t u (event :: history)

theorem Precedes.completed {t u : Nat} {history : List (Event ι α)}
    (h : Precedes completes t u history) :
    ∃ call a, .responded t call a ∈ history ∧ completes a := by
  induction h with
  | invoked hr ha => exact ⟨_, _, List.mem_cons_of_mem _ hr, ha⟩
  | older h ih =>
      obtain ⟨call, a, hr, ha⟩ := ih
      exact ⟨call, a, List.mem_cons_of_mem _ hr, ha⟩

theorem Precedes.imp {completes' : α → Prop} {t u : Nat} {history : List (Event ι α)}
    (himp : ∀ a, completes a → completes' a) (h : Precedes completes t u history) :
    Precedes completes' t u history := by
  induction h with
  | invoked hr ha => exact .invoked hr (himp _ ha)
  | older h ih => exact .older ih

/-- An order of the calls of a history in which they give the answers it records. -/
structure Linearizes (spec : κ → ι → τ → α × τ) (s₀ : τ) (history : List (Event ι α))
    (order : List (Entry ι κ)) : Prop where
  /-- A client's call comes at most once. -/
  unique : (order.map Entry.client).Nodup
  invoked : ∀ e ∈ order, .invoked e.client e.call ∈ history
  /-- Every completed call has the answer it gets in the order. -/
  completed : ∀ t call a, .responded t call a ∈ history → completes a →
    answerIn spec s₀ order t = some a
  /-- A call that had completed before another was made comes before it. -/
  realTime : ∀ t u, Precedes completes t u history → ∀ e earlier, e :: earlier <:+ order →
    e.client = u → t ∈ earlier.map Entry.client

namespace Linearizes

variable {completes} {spec : κ → ι → τ → α × τ} {s₀ : τ} {history : List (Event ι α)}
  {order : List (Entry ι κ)}

theorem initial : Linearizes completes spec s₀ ([] : List (Event ι α)) [] where
  unique := List.nodup_nil
  invoked := fun _ h => by cases h
  completed := fun _ _ _ h => by cases h
  realTime := fun _ _ h => by cases h

theorem mem_of_completed (h : Linearizes completes spec s₀ history order) {t : Nat} {call : ι}
    {a : α} (hr : .responded t call a ∈ history) (ha : completes a) :
    t ∈ order.map Entry.client := by
  by_contra hn
  rw [← answerIn_eq_none spec s₀, h.completed t call a hr ha] at hn
  cases hn

/-- A call begins. -/
theorem invoke (h : Linearizes completes spec s₀ history order) {t : Nat} (call : ι)
    (hfresh : t ∉ order.map Entry.client) :
    Linearizes completes spec s₀ (.invoked t call :: history) order where
  unique := h.unique
  invoked := fun e he => List.mem_cons_of_mem _ (h.invoked e he)
  completed := fun u c a hr ha => by
    rcases List.mem_cons.mp hr with heq | hr
    · cases heq
    · exact h.completed u c a hr ha
  realTime := fun u v hp e earlier hsuffix he => by
    cases hp with
    | invoked hr ha =>
        -- the new call is not in the order yet
        have hmem : e ∈ order := hsuffix.subset List.mem_cons_self
        exact absurd (he ▸ List.mem_map_of_mem hmem) hfresh
    | older hp => exact h.realTime u v hp e earlier hsuffix he

/-- A call ends; when it completes, it is with the answer it has in the order. -/
theorem respond (h : Linearizes completes spec s₀ history order) {t : Nat} (call : ι) {a : α}
    (ha : completes a → answerIn spec s₀ order t = some a) :
    Linearizes completes spec s₀ (.responded t call a :: history) order where
  unique := h.unique
  invoked := fun e he => List.mem_cons_of_mem _ (h.invoked e he)
  completed := fun u c b hr hb => by
    rcases List.mem_cons.mp hr with heq | hr
    · cases heq
      exact ha hb
    · exact h.completed u c b hr hb
  realTime := fun u v hp e earlier hsuffix he => by
    cases hp with
    | older hp => exact h.realTime u v hp e earlier hsuffix he

/-- A call under way takes effect. -/
theorem point (h : Linearizes completes spec s₀ history order) {t : Nat} {call : ι} (stamp : κ)
    (hfresh : t ∉ order.map Entry.client) (hinvoked : .invoked t call ∈ history) :
    Linearizes completes spec s₀ history (⟨t, stamp, call⟩ :: order) where
  unique := List.nodup_cons.mpr ⟨hfresh, h.unique⟩
  invoked := fun e he => by
    rcases List.mem_cons.mp he with rfl | he
    · exact hinvoked
    · exact h.invoked e he
  completed := fun u c a hr ha => by
    have hmem := h.mem_of_completed hr ha
    have hne : t ≠ u := fun heq => hfresh (heq ▸ hmem)
    rw [answerIn_cons, if_neg hne]
    exact h.completed u c a hr ha
  realTime := fun u v hp e earlier hsuffix he => by
    rcases List.suffix_cons_iff.mp hsuffix with heq | hsuffix
    · -- everything that has completed is in the order before the new entry
      obtain ⟨c, a, hr, ha⟩ := hp.completed
      rw [(List.cons.inj heq).2]
      exact h.mem_of_completed hr ha
    · exact h.realTime u v hp e earlier hsuffix he

end Linearizes

end RealTime

/-! ## Refinement -/

section Refinement

variable {κ' τ' : Type} {f : κ → κ'} {R : τ → τ' → Prop} {spec : κ → ι → τ → α × τ}
  {spec' : κ' → ι → τ' → α × τ'} {s₀ : τ} {t₀ : τ'} {order : List (Entry ι κ)}

/-- The same call, whose run alone depends on something else. -/
def Entry.restamp (f : κ → κ') (e : Entry ι κ) : Entry ι κ' := ⟨e.client, f e.stamp, e.call⟩

/-- Every call of an order does in related states what it does under the other specification. -/
def Refines (f : κ → κ') (R : τ → τ' → Prop) (spec : κ → ι → τ → α × τ)
    (spec' : κ' → ι → τ' → α × τ') (order : List (Entry ι κ)) : Prop :=
  ∀ e ∈ order, ∀ s t, R s t → (spec e.stamp e.call s).1 = (spec' (f e.stamp) e.call t).1
    ∧ R (spec e.stamp e.call s).2 (spec' (f e.stamp) e.call t).2

theorem Refines.tail {e : Entry ι κ} (h : Refines f R spec spec' (e :: order)) :
    Refines f R spec spec' order := fun e' he' => h e' (List.mem_cons_of_mem e he')

/-- An order leads to related states. -/
theorem Refines.serial (h : Refines f R spec spec' order) (hR : R s₀ t₀) :
    R (serial spec s₀ order) (serial spec' t₀ (order.map (Entry.restamp f))) := by
  induction order with
  | nil => exact hR
  | cons e earlier ih => exact (h e List.mem_cons_self _ _ (ih h.tail)).2

/-- Its calls are answered alike. -/
theorem Refines.answerIn (h : Refines f R spec spec' order) (hR : R s₀ t₀) (t : Nat) :
    answerIn spec' t₀ (order.map (Entry.restamp f)) t = answerIn spec s₀ order t := by
  induction order with
  | nil => rfl
  | cons e earlier ih =>
      rw [List.map_cons, answerIn_cons, answerIn_cons, ih h.tail,
        (h e List.mem_cons_self _ _ (h.tail.serial hR)).1]
      rfl

theorem map_client_restamp (order : List (Entry ι κ)) :
    (order.map (Entry.restamp f)).map Entry.client = order.map Entry.client := by
  rw [List.map_map]
  rfl

/-- **What linearizes over one specification does over any that it refines.** -/
theorem Linearizes.refines {completes : α → Prop} {history : List (Event ι α)}
    (hlinear : Linearizes completes spec s₀ history order) (h : Refines f R spec spec' order)
    (hR : R s₀ t₀) :
    Linearizes completes spec' t₀ history (order.map (Entry.restamp f)) where
  unique := by
    rw [map_client_restamp]
    exact hlinear.unique
  invoked e he := by
    obtain ⟨e', he', rfl⟩ := List.mem_map.mp he
    exact hlinear.invoked e' he'
  completed t call a hr ha := (h.answerIn hR t).trans (hlinear.completed t call a hr ha)
  realTime t u hp e earlier hsuffix he := by
    obtain ⟨suffix, horder, heq⟩ := List.suffix_map_iff.mp hsuffix
    cases suffix with
    | nil => cases heq
    | cons e' earlier' =>
        obtain ⟨rfl, rfl⟩ := List.cons.inj heq
        rw [map_client_restamp]
        exact hlinear.realTime t u hp e' earlier' horder he

end Refinement

end Concurrent
