import Mathlib.Data.List.Basic

/-!
# CoreTex.Lib.JsMap

A JavaScript `Map`: entries in insertion order. `set` on a key that is there keeps its
place, `delete` drops it. `get_set` and `get_filter_key` are all that a reader of a map needs.
-/

namespace CoreTex.Lib

/-- The entries of a `Map`, in insertion order. -/
abbrev JsMap (κ α : Type) := List (κ × α)

namespace JsMap

variable {κ α : Type} [DecidableEq κ]

def get (m : JsMap κ α) (key : κ) : Option α :=
  (m.find? fun e => e.1 = key).map Prod.snd

def has (m : JsMap κ α) (key : κ) : Bool :=
  (m.get key).isSome

def set : JsMap κ α → κ → α → JsMap κ α
  | [], key, value => [(key, value)]
  | e :: m, key, value => if e.1 = key then (key, value) :: m else e :: JsMap.set m key value

def delete (m : JsMap κ α) (key : κ) : JsMap κ α :=
  m.filter fun e => e.1 ≠ key

def values (m : JsMap κ α) : List α :=
  m.map Prod.snd

@[simp] theorem get_nil (key : κ) : JsMap.get ([] : JsMap κ α) key = none := rfl

theorem get_cons (e : κ × α) (m : JsMap κ α) (key : κ) :
    JsMap.get (e :: m) key = if e.1 = key then some e.2 else JsMap.get m key := by
  unfold get
  by_cases h : e.1 = key
  · simp [h]
  · simp [h]

theorem get_set (m : JsMap κ α) (key key' : κ) (value : α) :
    (m.set key value).get key' = if key = key' then some value else m.get key' := by
  induction m with
  | nil => simp [JsMap.set, get_cons]
  | cons e m ih =>
      by_cases h : e.1 = key
      · rw [JsMap.set, if_pos h, get_cons, get_cons, h]
        by_cases hkey : key = key' <;> simp [hkey]
      · rw [JsMap.set, if_neg h, get_cons, get_cons, ih]
        by_cases hkey : key = key'
        · subst hkey
          simp [h]
        · simp [hkey]

/-- Reading after a filter on the keys. -/
theorem get_filter_key (m : JsMap κ α) (p : κ → Bool) (key : κ) :
    JsMap.get (m.filter fun e => p e.1) key = if p key then m.get key else none := by
  induction m with
  | nil => simp
  | cons e m ih =>
      by_cases he : p e.1
      · rw [List.filter_cons, if_pos he, get_cons, get_cons, ih]
        by_cases hkey : e.1 = key
        · subst hkey
          simp [he]
        · simp [hkey]
      · rw [List.filter_cons, if_neg he, get_cons, ih]
        by_cases hkey : e.1 = key
        · subst hkey
          simp [he]
        · simp [hkey]

/-- Every entry of a map after `set` is the new one or an old one. -/
theorem mem_set {m : JsMap κ α} {key : κ} {value : α} {e : κ × α} (h : e ∈ m.set key value) :
    e = (key, value) ∨ e ∈ m := by
  induction m with
  | nil => exact .inl (by simpa [JsMap.set] using h)
  | cons e' m ih =>
      rw [JsMap.set] at h
      by_cases hkey : e'.1 = key
      · rw [if_pos hkey, List.mem_cons] at h
        exact h.imp id (List.mem_cons_of_mem _)
      · rw [if_neg hkey, List.mem_cons] at h
        rcases h with rfl | h
        · exact .inr (by simp)
        · exact (ih h).imp id (List.mem_cons_of_mem _)

/-- What is read is an entry. -/
theorem mem_of_get {m : JsMap κ α} {key : κ} {value : α} (h : m.get key = some value) :
    (key, value) ∈ m := by
  induction m with
  | nil => cases h
  | cons e m ih =>
      rw [get_cons] at h
      split at h
      next hkey =>
        obtain rfl := Option.some.inj h
        subst hkey
        exact List.mem_cons_self
      next => exact List.mem_cons_of_mem _ (ih h)

theorem mem_keys_set {m : JsMap κ α} {key key' : κ} {value : α} :
    key' ∈ (m.set key value).map Prod.fst ↔ key' = key ∨ key' ∈ m.map Prod.fst := by
  induction m with
  | nil => simp [JsMap.set]
  | cons e m ih =>
      rw [JsMap.set]
      split
      next hkey =>
        rw [List.map_cons, List.map_cons, List.mem_cons, List.mem_cons, hkey]
        tauto
      next =>
        rw [List.map_cons, List.map_cons, List.mem_cons, List.mem_cons, ih]
        tauto

theorem length_set_le (m : JsMap κ α) (key : κ) (value : α) :
    (m.set key value).length ≤ m.length + 1 := by
  induction m with
  | nil => exact Nat.le_refl _
  | cons e m ih =>
      rw [JsMap.set]
      split
      next => exact Nat.le_succ _
      next => exact Nat.succ_le_succ ih

@[simp] theorem has_iff {m : JsMap κ α} {key : κ} :
    m.has key = true ↔ ∃ value, m.get key = some value := by
  rw [has, Option.isSome_iff_exists]

/-! ### Keys -/

/-- `set` keeps the keys of a map distinct. -/
theorem nodup_keys_set {m : JsMap κ α} (h : (m.map Prod.fst).Nodup) (key : κ) (value : α) :
    ((m.set key value).map Prod.fst).Nodup := by
  induction m with
  | nil => simp [JsMap.set]
  | cons e m ih =>
      rw [List.map_cons, List.nodup_cons] at h
      rw [JsMap.set]
      split
      next hkey =>
        rw [List.map_cons, List.nodup_cons, ← hkey]
        exact h
      next hkey =>
        rw [List.map_cons, List.nodup_cons]
        refine ⟨fun hmem => ?_, ih h.2⟩
        obtain ⟨e', he', hfst⟩ := List.mem_map.mp hmem
        rcases mem_set he' with heq | he'
        · rw [heq] at hfst
          exact hkey hfst.symm
        · exact h.1 (List.mem_map.mpr ⟨e', he', hfst⟩)

theorem get_eq_some_iff {m : JsMap κ α} (h : (m.map Prod.fst).Nodup) {key : κ} {value : α} :
    m.get key = some value ↔ (key, value) ∈ m := by
  induction m with
  | nil => simp
  | cons e m ih =>
      rw [List.map_cons, List.nodup_cons] at h
      rw [get_cons, List.mem_cons]
      split
      next hkey =>
        subst hkey
        refine ⟨fun heq => .inl (Prod.ext rfl (Option.some.inj heq).symm), fun hmem => ?_⟩
        rcases hmem with hmem | hmem
        · rw [← hmem]
        · exact absurd (List.mem_map.mpr ⟨_, hmem, rfl⟩) h.1
      next hkey =>
        rw [ih h.2]
        refine ⟨.inr, fun hmem => hmem.resolve_left fun heq => hkey ?_⟩
        rw [← heq]

/-- A map reads the same in any order of its entries. -/
theorem get_perm {m m' : JsMap κ α} (hperm : m.Perm m') (h : (m'.map Prod.fst).Nodup) (key : κ) :
    m.get key = m'.get key := by
  have h' : (m.map Prod.fst).Nodup := (hperm.map Prod.fst).nodup_iff.mpr h
  refine Option.ext fun value => ?_
  rw [get_eq_some_iff h', get_eq_some_iff h, hperm.mem_iff]

/-- Entries whose values are computed from their keys and values. -/
theorem get_map_values {β : Type} (m : JsMap κ α) (f : κ → α → β) (key : κ) :
    JsMap.get (m.map fun e => (e.1, f e.1 e.2)) key = (m.get key).map (f key) := by
  induction m with
  | nil => rfl
  | cons e m ih =>
      rw [List.map_cons, get_cons, get_cons, ih]
      split
      next hkey =>
        subst hkey
        rfl
      next => rfl

end JsMap

end CoreTex.Lib
