import Mathlib.Logic.Function.Basic

/-!
# Effectful programs

A program over a signature of operations either returns, or performs one
operation and goes on with its answer. The signature says which operations there
are and what each answers with; what an operation *does* is left to a handler, so
one program can be run alone, run with faults injected, or interleaved with
others, and it is the same program each time.

Three rules carry the proofs that use this file:

* `run_bind`: running a sequence is running its parts;
* `run_sim`: handlers that agree on every operation a program may issue give the
  program the same answer, and keep any relation the single operations keep;
* `all_of_inv`: what holds of every operation from a state satisfying an
  invariant holds along the whole run.
-/

/-- A program over the signature `Res`, returning an `α`. -/
inductive Prog {Op : Type} (Res : Op → Type) (α : Type) : Type where
  | ret (a : α)
  | call (o : Op) (k : Res o → Prog Res α)

namespace Prog

variable {Op Op₂ : Type} {Res : Op → Type} {Res₂ : Op₂ → Type} {α β γ σ τ : Type}

/-- Run `p`, then go on with what it returned. -/
def bind (p : Prog Res α) (f : α → Prog Res β) : Prog Res β :=
  match p with
  | ret a => f a
  | call o k => call o (fun r => (k r).bind f)

instance : Monad (Prog Res) where
  pure := ret
  bind := bind

/-- The program that performs one operation and returns its answer. -/
def perform (o : Op) : Prog Res (Res o) := call o ret

/-- A result already at hand, where a program that may fail is expected. -/
def ofExcept {ε : Type} (result : Except ε α) : ExceptT ε (Prog Res) α :=
  ExceptT.mk (ret result)

@[simp] theorem pure_eq (a : α) : (pure a : Prog Res α) = ret a := rfl

@[simp] theorem ret_bind (a : α) (f : α → Prog Res β) : (ret a >>= f) = f a := rfl

@[simp] theorem call_bind (o : Op) (k : Res o → Prog Res α) (f : α → Prog Res β) :
    (call o k >>= f) = call o (fun r => k r >>= f) := rfl

@[simp] theorem perform_bind (o : Op) (f : Res o → Prog Res β) :
    (perform o >>= f) = call o f := rfl

theorem bind_assoc (p : Prog Res α) (f : α → Prog Res β) (g : β → Prog Res γ) :
    p >>= f >>= g = p >>= fun a => f a >>= g := by
  induction p with
  | ret a => rfl
  | call o k ih => exact congrArg (call o) (funext ih)

theorem ofExcept_bind {ε : Type} (result : Except ε α) (f : α → ExceptT ε (Prog Res) β) :
    (ofExcept result >>= f) = match result with
      | .error e => ExceptT.mk (ret (.error e))
      | .ok a => f a := by
  cases result with
  | error e => rfl
  | ok a => rfl

/-! ## Handlers and runs -/

/-- What each operation does to a state, and what it answers. -/
abbrev Handler (Res : Op → Type) (σ : Type) := (o : Op) → σ → Res o × σ

/-- Run a program to its end, one operation after another. -/
def run (h : Handler Res σ) : Prog Res α → σ → α × σ
  | ret a, s => (a, s)
  | call o k, s => run h (k (h o s).1) (h o s).2

@[simp] theorem run_ret (h : Handler Res σ) (a : α) (s : σ) : run h (ret a) s = (a, s) := rfl

@[simp] theorem run_call (h : Handler Res σ) (o : Op) (k : Res o → Prog Res α) (s : σ) :
    run h (call o k) s = run h (k (h o s).1) (h o s).2 := rfl

theorem run_bind (h : Handler Res σ) (p : Prog Res α) (f : α → Prog Res β) (s : σ) :
    run h (p >>= f) s = run h (f (run h p s).1) (run h p s).2 := by
  induction p generalizing s with
  | ret a => rfl
  | call o k ih => exact ih (h o s).1 (h o s).2

/-! ## Implementing one signature in another -/

/-- Replace every operation by the program that implements it. -/
def subst (impl : (o : Op) → Prog Res₂ (Res o)) : Prog Res α → Prog Res₂ α
  | ret a => ret a
  | call o k => impl o >>= fun r => subst impl (k r)

/-- The handler an implementation gives over a handler of the lower signature. -/
def Handler.through (h : Handler Res₂ σ) (impl : (o : Op) → Prog Res₂ (Res o)) :
    Handler Res σ := fun o s => run h (impl o) s

theorem run_subst (h : Handler Res₂ σ) (impl : (o : Op) → Prog Res₂ (Res o))
    (p : Prog Res α) (s : σ) : run h (subst impl p) s = run (h.through impl) p s := by
  induction p generalizing s with
  | ret a => rfl
  | call o k ih =>
      rw [subst, run_bind, ih]
      rfl

/-! ## Families of states -/

section Families

variable {ι : Type} [DecidableEq ι]

/-- A handler for one member of a family of states. -/
def Handler.at (h : Handler Res σ) (i : ι) : Handler Res (ι → σ) :=
  fun o s => ((h o (s i)).1, Function.update s i (h o (s i)).2)

/-- A program with such a handler runs on that member. -/
theorem run_at (h : Handler Res σ) (i : ι) (p : Prog Res α) (s : ι → σ) :
    run (h.at i) p s = ((run h p (s i)).1, Function.update s i (run h p (s i)).2) := by
  induction p generalizing s with
  | ret a => rw [run_ret, run_ret, Function.update_eq_self]
  | call o k ih =>
      rw [run_call, run_call, ih]
      simp only [Handler.at, Function.update_self, Function.update_idem]

end Families

/-! ## What a program may issue -/

/-- Every operation `p` issues satisfies `P`, as long as the answers satisfy `Q`. -/
def Emits (P : Op → Prop) (Q : (o : Op) → Res o → Prop) : Prog Res α → Prop
  | ret _ => True
  | call o k => P o ∧ ∀ r, Q o r → Emits P Q (k r)

theorem emits_bind {P : Op → Prop} {Q : (o : Op) → Res o → Prop} {p : Prog Res α}
    {f : α → Prog Res β} (hp : Emits P Q p) (hf : ∀ a, Emits P Q (f a)) :
    Emits P Q (p >>= f) := by
  induction p with
  | ret a => exact hf a
  | call o k ih => exact ⟨hp.1, fun r hr => ih r (hp.2 r hr)⟩

/-- Nothing is asked of the operations here. -/
theorem emits_all (p : Prog Res α) : Emits (fun _ => True) (fun _ _ => True) p := by
  induction p with
  | ret a => trivial
  | call o k ih => exact ⟨trivial, fun r _ => ih r⟩

/-- A program that may stop at an error, and goes on only when it has not. -/
theorem emits_run_bind {ε : Type} {P : Op → Prop} {Q : (o : Op) → Res o → Prop}
    {p : ExceptT ε (Prog Res) α} {f : α → ExceptT ε (Prog Res) β} (hp : Emits P Q p.run)
    (hf : ∀ a, Emits P Q (f a).run) : Emits P Q (p >>= f).run := by
  refine emits_bind hp fun result => ?_
  cases result with
  | error e => trivial
  | ok a => exact hf a

theorem emits_ofExcept {ε : Type} {P : Op → Prop} {Q : (o : Op) → Res o → Prop}
    (result : Except ε α) : Emits P Q (ofExcept result : ExceptT ε (Prog Res) α).run := trivial

/--
**Two handlers that agree on the operations a program issues.**

If, on operations satisfying `P` and from related states, the two handlers give
one and the same answer, which satisfies `Q`, and lead to related states again,
then the whole program answers the same under both.
-/
theorem run_sim {h₁ : Handler Res σ} {h₂ : Handler Res τ} {R : σ → τ → Prop}
    {P : Op → Prop} {Q : (o : Op) → Res o → Prop}
    (hstep : ∀ o s t, P o → R s t →
      (h₁ o s).1 = (h₂ o t).1 ∧ Q o (h₁ o s).1 ∧ R (h₁ o s).2 (h₂ o t).2)
    {p : Prog Res α} (hp : Emits P Q p) {s : σ} {t : τ} (hR : R s t) :
    (run h₁ p s).1 = (run h₂ p t).1 ∧ R (run h₁ p s).2 (run h₂ p t).2 := by
  induction p generalizing s t with
  | ret a => exact ⟨rfl, hR⟩
  | call o k ih =>
      obtain ⟨heq, hQ, hR'⟩ := hstep o s t hp.1 hR
      rw [run_call, run_call, ← heq]
      exact ih _ (hp.2 _ hQ) hR'

/-! ## Runs of many programs -/

/-- Run programs one after another, each with its own handler. -/
def runAll {κ ι : Type} (h : κ → Handler Res σ) (body : ι → Prog Res α) :
    List (κ × ι) → σ → List α × σ
  | [], s => ([], s)
  | (c, i) :: rest, s =>
      ((run (h c) (body i) s).1 :: (runAll h body rest (run (h c) (body i) s).2).1,
        (runAll h body rest (run (h c) (body i) s).2).2)

section RunAll

variable {κ κ₂ ι : Type} {h : κ → Handler Res σ} {body : ι → Prog Res α}

@[simp] theorem runAll_nil (s : σ) : runAll h body [] s = ([], s) := rfl

theorem runAll_cons (c : κ) (i : ι) (rest : List (κ × ι)) (s : σ) :
    runAll h body ((c, i) :: rest) s
      = ((run (h c) (body i) s).1 :: (runAll h body rest (run (h c) (body i) s).2).1,
        (runAll h body rest (run (h c) (body i) s).2).2) := rfl

theorem runAll_append (first second : List (κ × ι)) (s : σ) :
    runAll h body (first ++ second) s
      = ((runAll h body first s).1 ++ (runAll h body second (runAll h body first s).2).1,
        (runAll h body second (runAll h body first s).2).2) := by
  induction first generalizing s with
  | nil => rfl
  | cons ci first ih =>
      obtain ⟨c, i⟩ := ci
      rw [List.cons_append, runAll_cons, runAll_cons, ih]
      rfl

/-- The state a call of a run meets. -/
def before (h : κ → Handler Res σ) (body : ι → Prog Res α) (calls : List (κ × ι)) (s : σ)
    (n : Nat) : σ := (runAll h body (calls.take n) s).2

theorem before_length (calls : List (κ × ι)) (s : σ) :
    before h body calls s calls.length = (runAll h body calls s).2 := by
  rw [before, List.take_length]

/-- Each call goes on from the state the calls before it leave. -/
theorem before_succ {calls : List (κ × ι)} {s : σ} {n : Nat} {c : κ} {i : ι}
    (hn : calls[n]? = some (c, i)) :
    before h body calls s (n + 1) = (run (h c) (body i) (before h body calls s n)).2 := by
  rw [before, List.take_add_one, hn, runAll_append]
  rfl

/-- Each answer of a run is the call's answer in the state it meets. -/
theorem runAll_getElem? {calls : List (κ × ι)} {s : σ} {n : Nat} :
    (runAll h body calls s).1[n]?
      = calls[n]?.map fun ci => (run (h ci.1) (body ci.2) (before h body calls s n)).1 := by
  induction calls generalizing s n with
  | nil => simp
  | cons ci calls ih =>
      obtain ⟨c, i⟩ := ci
      rw [runAll_cons]
      cases n with
      | zero => rfl
      | succ n =>
          rw [List.getElem?_cons_succ, List.getElem?_cons_succ, ih]
          rfl

/-- Runs over two kinds of state answer the same when every single program does. -/
theorem runAll_sim {h₂ : κ₂ → Handler Res τ} {f : κ → κ₂} {R : σ → τ → Prop}
    {calls : List (κ × ι)}
    (hstep : ∀ ci ∈ calls, ∀ s t, R s t →
      (run (h ci.1) (body ci.2) s).1 = (run (h₂ (f ci.1)) (body ci.2) t).1
        ∧ R (run (h ci.1) (body ci.2) s).2 (run (h₂ (f ci.1)) (body ci.2) t).2)
    {s : σ} {t : τ} (hR : R s t) :
    (runAll h body calls s).1
        = (runAll h₂ body (calls.map fun ci => (f ci.1, ci.2)) t).1
      ∧ R (runAll h body calls s).2
        (runAll h₂ body (calls.map fun ci => (f ci.1, ci.2)) t).2 := by
  induction calls generalizing s t with
  | nil => exact ⟨rfl, hR⟩
  | cons ci calls ih =>
      obtain ⟨c, i⟩ := ci
      obtain ⟨heq, hR'⟩ := hstep (c, i) List.mem_cons_self s t hR
      obtain ⟨hrest, hend⟩ := ih (fun ci hci => hstep ci (List.mem_cons_of_mem _ hci)) hR'
      rw [List.map_cons, runAll_cons, runAll_cons, heq, hrest]
      exact ⟨rfl, hend⟩

/-- What every single program keeps, a run keeps. -/
theorem runAll_inv {I : σ → Prop} {calls : List (κ × ι)}
    (hstep : ∀ ci ∈ calls, ∀ s, I s → I (run (h ci.1) (body ci.2) s).2) {s : σ} (hs : I s) :
    I (runAll h body calls s).2 := by
  induction calls generalizing s with
  | nil => exact hs
  | cons ci calls ih =>
      obtain ⟨c, i⟩ := ci
      rw [runAll_cons]
      exact ih (fun ci hci => hstep ci (List.mem_cons_of_mem _ hci))
        (hstep (c, i) List.mem_cons_self s hs)

end RunAll

/-- Every operation performed while running `p` from `s` satisfies `P` in the state it meets. -/
def All (h : Handler Res σ) (P : Op → σ → Prop) : Prog Res α → σ → Prop
  | ret _, _ => True
  | call o k, s => P o s ∧ All h P (k (h o s).1) (h o s).2

/-- What every admissible operation guarantees in a good state holds along the run. -/
theorem all_of_inv {h : Handler Res σ} {I : σ → Prop} {P : Op → Prop}
    {Q : (o : Op) → Res o → Prop} {G : Op → σ → Prop}
    (hstep : ∀ o s, P o → I s → G o s ∧ Q o (h o s).1 ∧ I (h o s).2)
    {p : Prog Res α} (hp : Emits P Q p) {s : σ} (hs : I s) :
    All h G p s ∧ I (run h p s).2 := by
  induction p generalizing s with
  | ret a => exact ⟨trivial, hs⟩
  | call o k ih =>
      obtain ⟨hG, hQ, hI⟩ := hstep o s hp.1 hs
      obtain ⟨hall, hend⟩ := ih _ (hp.2 _ hQ) hI
      exact ⟨⟨hG, hall⟩, hend⟩

/-- What every admissible operation keeps, a run keeps. -/
theorem run_inv {h : Handler Res σ} {I : σ → Prop} {P : Op → Prop}
    {Q : (o : Op) → Res o → Prop} (hstep : ∀ o s, P o → I s → Q o (h o s).1 ∧ I (h o s).2)
    {p : Prog Res α} (hp : Emits P Q p) {s : σ} (hs : I s) : I (run h p s).2 :=
  (all_of_inv (G := fun _ _ => True) (fun o s ho hI => ⟨trivial, hstep o s ho hI⟩) hp hs).2

end Prog
