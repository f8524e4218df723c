import Mathlib.Tactic.Common

/-!
# CoreTex.Lib.Except

Fallible code as a sequence of refusals. `refuseIf c e` throws `e` when `c` holds. The
lemmas take a successful run apart one line at a time, and put one together.
-/

namespace CoreTex.Lib

variable {ε α β : Type}

/-- Throw `e` if `c` holds. -/
def refuseIf (c : Prop) [Decidable c] (e : ε) : Except ε Unit :=
  if c then .error e else .ok ()

@[simp] theorem refuseIf_eq_ok {c : Prop} [Decidable c] {e : ε} {u : Unit} :
    refuseIf c e = .ok u ↔ ¬ c := by
  unfold refuseIf
  by_cases h : c <;> simp [h]

theorem refuseIf_of_not {c : Prop} [Decidable c] (h : ¬ c) (e : ε) :
    refuseIf c e = .ok () := by
  rw [refuseIf, if_neg h]

theorem refuseIf_of {c : Prop} [Decidable c] (h : c) (e : ε) :
    refuseIf c e = .error e := by
  rw [refuseIf, if_pos h]

/-- A sequence succeeds when its first part does and the rest succeeds on its value. -/
theorem bind_eq_ok {x : Except ε α} {f : α → Except ε β} {b : β} :
    x >>= f = .ok b ↔ ∃ a, x = .ok a ∧ f a = .ok b := by
  cases x with
  | error e => exact ⟨fun h => (nomatch h), fun ⟨_, h, _⟩ => (nomatch h)⟩
  | ok a => exact ⟨fun h => ⟨a, rfl, h⟩, fun ⟨_, h, hf⟩ => by cases h; exact hf⟩

/-- The line `if c: raise e` is passed exactly when `c` fails. -/
theorem refuseIf_bind_eq_ok {c : Prop} [Decidable c] {e : ε} {f : Unit → Except ε β} {b : β} :
    refuseIf c e >>= f = .ok b ↔ ¬ c ∧ f () = .ok b := by
  rw [bind_eq_ok]
  exact ⟨fun ⟨(), h, hf⟩ => ⟨refuseIf_eq_ok.mp h, hf⟩, fun ⟨h, hf⟩ => ⟨(), refuseIf_eq_ok.mpr h, hf⟩⟩

/-- A loop of checks is passed exactly when every item passes. -/
theorem forM_eq_ok {xs : List α} {f : α → Except ε Unit} :
    xs.forM f = .ok () ↔ ∀ x ∈ xs, f x = .ok () := by
  induction xs with
  | nil => simp [pure, Except.pure]
  | cons x xs ih =>
      rw [List.forM, bind_eq_ok, List.forall_mem_cons, ← ih]
      exact ⟨fun ⟨(), hx, hxs⟩ => ⟨hx, hxs⟩, fun ⟨hx, hxs⟩ => ⟨(), hx, hxs⟩⟩

@[simp] theorem pure_eq_ok {a b : α} : (pure a : Except ε α) = .ok b ↔ a = b := by
  simp [pure, Except.pure]

@[simp] theorem throw_ne_ok {e : ε} {b : α} : (throw e : Except ε α) ≠ .ok b := by
  simp [throw, throwThe, MonadExceptOf.throw]

@[simp] theorem ok_bind {a : α} {f : α → Except ε β} : (Except.ok a >>= f) = f a := rfl

@[simp] theorem error_bind {e : ε} {f : α → Except ε β} :
    ((Except.error e : Except ε α) >>= f) = .error e := rfl

theorem toOption_eq_some {x : Except ε α} {a : α} : x.toOption = some a ↔ x = .ok a := by
  cases x <;> simp [Except.toOption]

/-! ### What a failure can be -/

/-- A sequence fails in its first part or, after it, in the rest. -/
theorem bind_eq_error {x : Except ε α} {f : α → Except ε β} {e : ε} :
    x >>= f = .error e ↔ x = .error e ∨ ∃ a, x = .ok a ∧ f a = .error e := by
  cases x with
  | error e' => simp
  | ok a => simp

/-- The line `if c: raise e'` is left with `e` when it raises that, or is passed first. -/
theorem refuseIf_bind_eq_error {c : Prop} [Decidable c] {e e' : ε} {f : Unit → Except ε β} :
    refuseIf c e' >>= f = .error e ↔ c ∧ e' = e ∨ ¬ c ∧ f () = .error e := by
  by_cases hc : c
  · rw [refuseIf_of hc, error_bind, Except.error.injEq]
    simp [hc]
  · rw [refuseIf_of_not hc, ok_bind]
    simp [hc]

/-- Every error `x` can end with satisfies `P`. -/
def FailsWith (P : ε → Prop) (x : Except ε α) : Prop :=
  ∀ e, x = .error e → P e

theorem FailsWith.pure {P : ε → Prop} (a : α) : FailsWith P (pure a : Except ε α) :=
  fun _ h => nomatch h

theorem FailsWith.throw {P : ε → Prop} {e : ε} (h : P e) :
    FailsWith P (throw e : Except ε α) := by
  intro e' he
  cases he
  exact h

theorem FailsWith.refuseIf {P : ε → Prop} {c : Prop} [Decidable c] {e : ε} (h : P e) :
    FailsWith P (refuseIf c e) := by
  intro e' he
  by_cases hc : c
  · rw [refuseIf_of hc, Except.error.injEq] at he
    exact he ▸ h
  · rw [refuseIf_of_not hc] at he
    exact nomatch he

theorem FailsWith.bind {P : ε → Prop} {x : Except ε α} {f : α → Except ε β}
    (hx : FailsWith P x) (hf : ∀ a, x = .ok a → FailsWith P (f a)) : FailsWith P (x >>= f) := by
  cases x with
  | error e => exact fun e' he => hx e' (by cases he; rfl)
  | ok a => exact hf a rfl

/-- What a sequence can end with, part by part. -/
theorem failsWith_bind_iff {P : ε → Prop} {x : Except ε α} {f : α → Except ε β} :
    FailsWith P (x >>= f) ↔ FailsWith P x ∧ ∀ a, x = .ok a → FailsWith P (f a) := by
  refine ⟨fun h => ⟨fun e he => h e (by rw [he]; rfl), fun a ha e he => h e (by rw [ha]; exact he)⟩,
    fun h => h.1.bind h.2⟩

/-- A loop over `xs` that fails with `e` fails so at one of them. -/
theorem foldlM_eq_error {f : β → α → Except ε β} {xs : List α} {b : β} {e : ε} :
    xs.foldlM f b = .error e ↔ ∃ pre x post b', xs = pre ++ x :: post ∧
      pre.foldlM f b = .ok b' ∧ f b' x = .error e := by
  induction xs generalizing b with
  | nil => simp [Pure.pure, Except.pure]
  | cons x xs ih =>
      rw [List.foldlM_cons]
      constructor
      · intro h
        cases hx : f b x with
        | error e' =>
            rw [hx] at h
            cases h
            exact ⟨[], x, xs, b, rfl, rfl, hx⟩
        | ok b₁ =>
            rw [hx] at h
            obtain ⟨pre, y, post, b', rfl, hpre, hy⟩ := ih.mp h
            refine ⟨x :: pre, y, post, b', rfl, ?_, hy⟩
            rw [List.foldlM_cons, hx]
            exact hpre
      · intro ⟨pre, y, post, b', heq, hpre, hy⟩
        cases pre with
        | nil =>
            rw [List.nil_append, List.cons.injEq] at heq
            obtain ⟨rfl, rfl⟩ := heq
            cases hpre
            rw [hy]
            rfl
        | cons z pre =>
            rw [List.cons_append, List.cons.injEq] at heq
            obtain ⟨rfl, rfl⟩ := heq
            rw [List.foldlM_cons, bind_eq_ok] at hpre
            obtain ⟨b₁, hx, hpre⟩ := hpre
            rw [hx]
            exact ih.mpr ⟨pre, y, post, b', rfl, hpre, hy⟩

/-- A loop that collects succeeds when every item does, each with its own result. -/
theorem mapM_eq_ok {f : α → Except ε β} {xs : List α} {ys : List β} :
    xs.mapM f = .ok ys ↔ List.Forall₂ (fun x y => f x = .ok y) xs ys := by
  induction xs generalizing ys with
  | nil =>
      constructor
      · intro h
        cases h
        exact .nil
      · intro h
        cases h
        rfl
  | cons x xs ih =>
      rw [List.mapM_cons, bind_eq_ok]
      constructor
      · intro h
        obtain ⟨y, hy, h⟩ := h
        obtain ⟨ys, hys, h⟩ := bind_eq_ok.mp h
        cases h
        exact .cons hy (ih.mp hys)
      · intro h
        cases h with
        | cons hy hys => exact ⟨_, hy, bind_eq_ok.mpr ⟨_, ih.mpr hys, rfl⟩⟩

theorem exists_mapM_eq_ok {f : α → Except ε β} {xs : List α} (h : ∀ x ∈ xs, ∃ y, f x = .ok y) :
    ∃ ys, xs.mapM f = .ok ys := by
  induction xs with
  | nil => exact ⟨[], rfl⟩
  | cons x xs ih =>
      obtain ⟨⟨y, hy⟩, hrest⟩ := List.forall_mem_cons.mp h
      obtain ⟨ys, hys⟩ := ih hrest
      exact ⟨y :: ys, mapM_eq_ok.mpr (.cons hy (mapM_eq_ok.mp hys))⟩

/-- Is a result a success? -/
def isOk : Except ε α → Bool
  | .ok _ => true
  | .error _ => false

theorem isOk_iff {x : Except ε α} : isOk x = true ↔ ∃ a, x = .ok a := by
  cases x <;> simp [isOk]

end CoreTex.Lib
