import Mathlib.Data.List.Basic
import Mathlib.Data.List.Infix

/-!
# CoreTex.Lib.ReplayLog

A state that is built by applying events one after the other, and a window of checkpoints
over the last of them.

`Logged step s₀ log s` is a log of the applied events, each with the state it led to. A
window is a suffix of the log that is empty only when the log is (`Window`); it survives
applying an event, dropping the oldest checkpoint of a long window, and rolling back to any
checkpoint in it.
-/

namespace CoreTex.Lib

variable {σ ε : Type}

/-- The log of the events applied from `s₀`, each with the state after it. -/
inductive Logged (step : σ → ε → Option σ) (s₀ : σ) : List (ε × σ) → σ → Prop
  | start : Logged step s₀ [] s₀
  | next {log s e t} : Logged step s₀ log s → step s e = some t →
      Logged step s₀ (log ++ [(e, t)]) t

/-- The state a log ends in. -/
def lastState (s₀ : σ) (log : List (ε × σ)) : σ :=
  (log.getLast?.map Prod.snd).getD s₀

variable {step : σ → ε → Option σ} {s₀ s : σ} {log : List (ε × σ)}

theorem Logged.lastState_eq (h : Logged step s₀ log s) : lastState s₀ log = s := by
  cases h with
  | start => rfl
  | next h hstep => simp [lastState]

/-- Two replays of one log end alike. -/
theorem Logged.unique {t : σ} (h : Logged step s₀ log s) (h' : Logged step s₀ log t) : s = t := by
  rw [← h.lastState_eq, ← h'.lastState_eq]

theorem replays_append_singleton {e : ε} {t u : σ} :
    Logged step s₀ (log ++ [(e, t)]) u ↔
      ∃ s, Logged step s₀ log s ∧ step s e = some t ∧ u = t := by
  constructor
  · intro h
    generalize hlog : log ++ [(e, t)] = whole at h
    cases h with
    | start => simp at hlog
    | next h hstep =>
        obtain ⟨rfl, heq⟩ := List.append_inj' hlog rfl
        obtain ⟨rfl, rfl⟩ : e = _ ∧ t = _ := by simpa using heq
        exact ⟨_, h, hstep, rfl⟩
  · rintro ⟨s, h, hstep, rfl⟩
    exact .next h hstep

/-- Any front part of a log is a log. -/
theorem Logged.of_append {front back : List (ε × σ)} (h : Logged step s₀ (front ++ back) s) :
    Logged step s₀ front (lastState s₀ front) := by
  induction back using List.reverseRecOn generalizing s with
  | nil =>
      rw [List.append_nil] at h
      rw [h.lastState_eq]
      exact h
  | append_singleton back e ih =>
      rw [← List.append_assoc] at h
      obtain ⟨_, h, -, -⟩ := replays_append_singleton.mp h
      exact ih h

/-! ### A window over the end of a log -/

/-- The checkpoints that are kept: a suffix of all of them, empty only at the start. -/
structure Window {κ : Type} (checkpoint : ε × σ → κ) (log : List (ε × σ)) (window : List κ) :
    Prop where
  suffix : window <:+ log.map checkpoint
  kept : window = [] → log = []

variable {κ : Type} {checkpoint : ε × σ → κ} {window : List κ}

theorem Window.start : Window checkpoint ([] : List (ε × σ)) [] :=
  ⟨List.suffix_refl _, fun _ => rfl⟩

theorem Window.push (h : Window checkpoint log window) (entry : ε × σ) :
    Window checkpoint (log ++ [entry]) (window ++ [checkpoint entry]) := by
  refine ⟨?_, fun hnil => by simp at hnil⟩
  obtain ⟨front, hfront⟩ := h.suffix
  exact ⟨front, by rw [← List.append_assoc, hfront, List.map_append]; rfl⟩

/-- Dropping the oldest checkpoint of a window of at least two. -/
theorem Window.tail (h : Window checkpoint log window) (hlen : 1 < window.length) :
    Window checkpoint log window.tail := by
  refine ⟨(List.tail_suffix window).trans h.suffix, fun hnil => ?_⟩
  have := congrArg List.length hnil
  rw [List.length_tail, List.length_nil] at this
  omega

/-- A checkpoint of the window, and the log up to it. -/
theorem Window.rollback (h : Window checkpoint log window) {k : Nat} {c : κ}
    (hc : window[k]? = some c) :
    ∃ front entry back, log = front ++ [entry] ++ back ∧ checkpoint entry = c ∧
      Window checkpoint (front ++ [entry]) (window.take (k + 1)) ∧
      window.drop (k + 1) = back.map checkpoint := by
  obtain ⟨older, hwhole⟩ := h.suffix
  have hk : k < window.length := (List.getElem?_eq_some_iff.mp hc).1
  have hlen : older.length + window.length = log.length := by
    rw [← List.length_append, hwhole, List.length_map]
  have hi : older.length + k < log.length := by omega
  refine ⟨log.take (older.length + k), log[older.length + k], log.drop (older.length + k + 1), ?_, ?_,
    ⟨?_, fun hnil => ?_⟩, ?_⟩
  · rw [← List.take_succ_eq_append_getElem hi, List.take_append_drop]
  · have hget : (log.map checkpoint)[older.length + k]? = some c := by
      rw [← hwhole, List.getElem?_append_right (by omega), Nat.add_sub_cancel_left, hc]
    rw [List.getElem?_map, List.getElem?_eq_getElem hi] at hget
    simpa using hget
  · rw [← List.take_succ_eq_append_getElem hi, List.map_take, ← hwhole]
    refine ⟨older, ?_⟩
    rw [show older.length + k + 1 = older.length + (k + 1) from rfl, List.take_length_add_append]
  · have := congrArg List.length hnil
    rw [List.length_take, List.length_nil] at this
    omega
  · rw [List.map_drop, ← hwhole,
      show older.length + k + 1 = older.length + (k + 1) from rfl, List.drop_length_add_append]

/-- The last checkpoint is that of the last entry. -/
theorem Window.getLast?_eq (h : Window checkpoint log window) :
    window.getLast? = log.getLast?.map checkpoint := by
  cases hw : window with
  | nil => rw [h.kept hw]; rfl
  | cons c w =>
      obtain ⟨older, hwhole⟩ := h.suffix
      rw [← List.getLast?_map, ← hwhole, hw, List.getLast?_append_of_ne_nil _ (by simp)]

/-! ### Entries by height -/

section Height

variable {α : Type} (height : α → Int)

/-- The entries up to a height. -/
def upTo (b : Int) (l : List α) : List α :=
  l.filter fun a => height a ≤ b

variable {height} {l : List α} {a b : Int}

theorem mem_upTo {x : α} : x ∈ upTo height b l ↔ x ∈ l ∧ height x ≤ b := by
  simp [upTo]

theorem upTo_upTo (h : a ≤ b) : upTo height a (upTo height b l) = upTo height a l := by
  rw [upTo, upTo, List.filter_filter]
  refine List.filter_congr fun x _ => ?_
  simp only [Bool.and_eq_left_iff_imp, decide_eq_true_eq]
  omega

theorem upTo_eq_self (h : ∀ x ∈ l, height x ≤ b) : upTo height b l = l :=
  List.filter_eq_self.mpr fun x hx => decide_eq_true (h x hx)

theorem upTo_eq_nil (h : ∀ x ∈ l, b < height x) : upTo height b l = [] := by
  refine List.filter_eq_nil_iff.mpr fun x hx => ?_
  have := h x hx
  simp only [decide_eq_true_eq]
  omega

/-- In an ordered list the entries up to a height come first. -/
theorem upTo_append_after (hl : l.Pairwise fun x y => height x ≤ height y) :
    l = upTo height b l ++ l.filter fun x => b < height x := by
  induction l with
  | nil => rfl
  | cons x l ih =>
      rw [List.pairwise_cons] at hl
      by_cases hx : height x ≤ b
      · have hnot : ¬ b < height x := by omega
        rw [upTo, List.filter_cons_of_pos (by simpa using hx),
          List.filter_cons_of_neg (by simpa using hnot), List.cons_append]
        exact congrArg (x :: ·) (ih hl.2)
      · have hall : ∀ y ∈ x :: l, b < height y := by
          intro y hy
          rcases List.mem_cons.mp hy with rfl | hy
          · omega
          · have := hl.1 y hy
            omega
        rw [upTo_eq_nil hall, List.nil_append]
        exact (List.filter_eq_self.mpr fun y hy => decide_eq_true (hall y hy)).symm

/-- Between two heights stand the entries of the one and not of the other. -/
theorem upTo_eq_append (hl : l.Pairwise fun x y => height x ≤ height y) (h : a ≤ b) :
    upTo height b l = upTo height a l ++ l.filter fun x => a < height x ∧ height x ≤ b := by
  have hsplit := @upTo_append_after α height (upTo height b l) a (hl.filter _)
  rw [upTo_upTo h] at hsplit
  rw [hsplit]
  congr 1
  rw [upTo, List.filter_filter]
  refine List.filter_congr fun x _ => ?_
  simp [Bool.and_comm]

/-- A front part below a height, with the rest above it. -/
theorem upTo_of_append {front back : List α} (hwhole : upTo height b l = front ++ back)
    (hfront : ∀ x ∈ front, height x ≤ a) (hback : ∀ x ∈ back, a < height x) (h : a ≤ b) :
    upTo height a l = front := by
  rw [← upTo_upTo h, hwhole]
  show (front ++ back).filter _ = _
  rw [List.filter_append]
  have hnil : back.filter (fun x => decide (height x ≤ a)) = [] := upTo_eq_nil hback
  rw [hnil, List.append_nil]
  exact upTo_eq_self hfront

end Height

end CoreTex.Lib
