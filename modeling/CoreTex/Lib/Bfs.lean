import Mathlib.Tactic.Common

/-!
# CoreTex.Lib.Bfs

Breadth-first search by levels, with a budget of steps and an early end at the first answer.

A level is expanded by a scan of the successors of its vertices: `scan` marks a vertex when it is
first seen. `search_iff` says that a search from a closed set of marked vertices finds an answer
exactly when a marked vertex has a path to one within the budget.
-/

namespace CoreTex.Lib.Bfs

variable {α : Type}

/-- A path of `n` edges. -/
inductive Path (next : α → List α) : Nat → α → α → Prop
  | nil (x : α) : Path next 0 x x
  | cons {n : Nat} {x y z : α} (hedge : y ∈ next x) (hpath : Path next n y z) :
      Path next (n + 1) x z

/-- What a scan ends with: an answer, or the vertices marked so far and those of the next level. -/
inductive Level (α : Type)
  | hit
  | more (visited level : List α)

section Search

variable [DecidableEq α] (answers : List α)

/-- The successors of one vertex. -/
def scan : List α → List α → List α → Level α
  | [], visited, level => .more visited level
  | y :: ys, visited, level =>
    if y ∈ visited then scan ys visited level
    else if y ∈ answers then .hit
    else scan ys (visited ++ [y]) (level ++ [y])

variable (next : α → List α)

/-- The vertices of one level. -/
def expand : List α → List α → List α → Level α
  | [], visited, level => .more visited level
  | x :: xs, visited, level =>
    match scan answers (next x) visited level with
    | .hit => .hit
    | .more visited level => expand xs visited level

/-- At most so many levels. -/
def search : Nat → List α → List α → Bool
  | 0, _, _ => false
  | budget + 1, frontier, visited =>
    match expand answers next frontier visited [] with
    | .hit => true
    | .more visited level =>
      if level.isEmpty then false else search budget level visited

/-! ### One level -/

variable {answers next} {frontier visited level visited' level' : List α}

theorem scan_append (xs ys : List α) (visited level : List α) :
    scan answers (xs ++ ys) visited level =
      match scan answers xs visited level with
      | .hit => .hit
      | .more visited level => scan answers ys visited level := by
  induction xs generalizing visited level with
  | nil => rfl
  | cons x xs ih =>
      rw [List.cons_append, scan, scan]
      split
      · exact ih visited level
      · split
        · rfl
        · exact ih _ _

/-- A level is one scan of all its successors. -/
theorem expand_eq_scan (xs visited level : List α) :
    expand answers next xs visited level = scan answers (xs.flatMap next) visited level := by
  induction xs generalizing visited level with
  | nil => rfl
  | cons x xs ih =>
      rw [expand, List.flatMap_cons, scan_append]
      split
      · rfl
      · exact ih _ _

/-- A scan that hits has seen an answer. -/
theorem scan_hit {ys : List α} (h : scan answers ys visited level = .hit) :
    ∃ y ∈ ys, y ∈ answers := by
  induction ys generalizing visited level with
  | nil => cases h
  | cons y ys ih =>
      rw [scan] at h
      split at h
      · obtain ⟨z, hz, hanswer⟩ := ih h
        exact ⟨z, List.mem_cons_of_mem y hz, hanswer⟩
      · split at h
        next hanswer => exact ⟨y, List.mem_cons_self, hanswer⟩
        next =>
          obtain ⟨z, hz, hanswer⟩ := ih h
          exact ⟨z, List.mem_cons_of_mem y hz, hanswer⟩

/-- A scan that goes on has marked what it saw, and no answer. -/
theorem scan_more {ys : List α} (h : scan answers ys visited level = .more visited' level') :
    (∀ z, z ∈ visited' ↔ z ∈ visited ∨ z ∈ ys) ∧
      (∀ z, z ∈ level' ↔ z ∈ level ∨ z ∈ ys ∧ z ∉ visited) ∧
      ((∀ z ∈ visited, z ∉ answers) → ∀ z ∈ visited', z ∉ answers) := by
  induction ys generalizing visited level with
  | nil =>
      obtain ⟨rfl, rfl⟩ := Level.more.inj h
      simp
  | cons y ys ih =>
      rw [scan] at h
      split at h
      next hseen =>
        obtain ⟨hvisited, hlevel, hanswers⟩ := ih h
        refine ⟨fun z => ?_, fun z => ?_, hanswers⟩
        · rw [hvisited, List.mem_cons]
          by_cases hz : z = y
          · simp [hz, hseen]
          · simp [hz]
        · rw [hlevel, List.mem_cons]
          by_cases hz : z = y
          · simp [hz, hseen]
          · simp [hz]
      next hseen =>
        split at h
        · cases h
        next hnot =>
          obtain ⟨hvisited, hlevel, hanswers⟩ := ih h
          refine ⟨fun z => ?_, fun z => ?_, fun hold => hanswers fun z hz => ?_⟩
          · rw [hvisited, List.mem_append, List.mem_singleton, List.mem_cons, or_assoc]
          · rw [hlevel, List.mem_append, List.mem_append, List.mem_singleton, List.mem_cons]
            by_cases hz : z = y
            · simp [hz, hseen]
            · simp [hz]
          · rcases List.mem_append.mp hz with hz | hz
            · exact hold z hz
            · rw [List.mem_singleton.mp hz]
              exact hnot

/-! ### The search -/

/-- Every marked vertex outside the frontier has its successors marked. -/
def Closed (next : α → List α) (frontier visited : List α) : Prop :=
  ∀ x ∈ visited, x ∉ frontier → ∀ y ∈ next x, y ∈ visited

/-- A path out of the marked vertices leaves them by an edge of the frontier. -/
theorem Path.leaves (hclosed : Closed next frontier visited) {n : Nat} {x z : α}
    (hpath : Path next n x z) (hx : x ∈ visited) (hz : z ∉ visited) :
    ∃ y ∈ frontier, ∃ w ∈ next y, ∃ m, m + 1 ≤ n ∧ Path next m w z := by
  induction hpath with
  | nil x => exact absurd hx hz
  | @cons n x w z hedge hpath ih =>
      by_cases hw : w ∈ visited
      · obtain ⟨y, hy, v, hv, m, hm, hrest⟩ := ih hw hz
        exact ⟨y, hy, v, hv, m, Nat.le_succ_of_le hm, hrest⟩
      · -- an edge out of the marked vertices starts in the frontier
        have hfrontier : x ∈ frontier := by
          by_contra hnot
          exact hw (hclosed x hx hnot w hedge)
        exact ⟨x, hfrontier, w, hedge, n, Nat.le_refl _, hpath⟩

theorem search_iff (budget : Nat) (hsub : ∀ x ∈ frontier, x ∈ visited)
    (hclosed : Closed next frontier visited) (hnone : ∀ x ∈ visited, x ∉ answers) :
    search answers next budget frontier visited = true ↔
      ∃ a ∈ answers, ∃ x ∈ visited, ∃ n ≤ budget, Path next n x a := by
  induction budget generalizing frontier visited with
  | zero =>
      refine ⟨fun h => (nomatch h), ?_⟩
      intro ⟨a, ha, x, hx, n, hn, hpath⟩
      obtain rfl := Nat.le_zero.mp hn
      cases hpath
      exact absurd ha (hnone a hx)
  | succ budget ih =>
      rw [search, expand_eq_scan]
      split
      next hhit =>
        refine ⟨fun _ => ?_, fun _ => rfl⟩
        obtain ⟨y, hy, hanswer⟩ := scan_hit hhit
        obtain ⟨x, hx, hedge⟩ := List.mem_flatMap.mp hy
        exact ⟨y, hanswer, x, hsub x hx, 1, by omega, .cons hedge (.nil y)⟩
      next visited' level' hmore =>
        obtain ⟨hvisited, hlevel, hanswers⟩ := scan_more hmore
        have hnone' := hanswers hnone
        have hsub' : ∀ x ∈ level', x ∈ visited' := by
          intro x hx
          rcases (hlevel x).mp hx with hx | hx
          · cases hx
          · exact (hvisited x).mpr (.inr hx.1)
        have hclosed' : Closed next level' visited' := by
          intro x hx hnot y hy
          rw [hvisited]
          by_cases hold : x ∈ visited
          · by_cases hfrontier : x ∈ frontier
            · exact .inr (List.mem_flatMap.mpr ⟨x, hfrontier, hy⟩)
            · exact .inl (hclosed x hold hfrontier y hy)
          · have hnew := ((hvisited x).mp hx).resolve_left hold
            exact absurd ((hlevel x).mpr (.inr ⟨hnew, hold⟩)) hnot
        -- a path within the budget enters the marked vertices of the next round
        have henters : (∃ a ∈ answers, ∃ x ∈ visited, ∃ n ≤ budget + 1, Path next n x a) →
            ∃ a ∈ answers, ∃ x ∈ visited', ∃ n ≤ budget, Path next n x a := by
          intro ⟨a, ha, x, hx, n, hn, hpath⟩
          obtain ⟨y, hy, w, hw, m, hm, hrest⟩ :=
            hpath.leaves hclosed hx fun hmem => hnone a hmem ha
          exact ⟨a, ha, w, (hvisited w).mpr (.inr (List.mem_flatMap.mpr ⟨y, hy, hw⟩)), m,
            by omega, hrest⟩
        have hreturns : (∃ a ∈ answers, ∃ x ∈ visited', ∃ n ≤ budget, Path next n x a) →
            ∃ a ∈ answers, ∃ x ∈ visited, ∃ n ≤ budget + 1, Path next n x a := by
          intro ⟨a, ha, x, hx, n, hn, hpath⟩
          rcases (hvisited x).mp hx with hx | hx
          · exact ⟨a, ha, x, hx, n, by omega, hpath⟩
          · obtain ⟨y, hy, hedge⟩ := List.mem_flatMap.mp hx
            exact ⟨a, ha, y, hsub y hy, n + 1, by omega, .cons hedge hpath⟩
        by_cases hempty : level'.isEmpty = true
        · rw [if_pos hempty]
          refine ⟨fun h => (nomatch h), fun hpath => ?_⟩
          obtain ⟨a, ha, x, hx, n, -, hpath⟩ := henters hpath
          -- nothing is left to leave from
          obtain ⟨y, hy, -⟩ := hpath.leaves hclosed' hx fun hmem => hnone' a hmem ha
          rw [List.isEmpty_iff.mp hempty] at hy
          cases hy
        · rw [if_neg hempty, ih hsub' hclosed' hnone']
          exact ⟨hreturns, henters⟩

end Search

end CoreTex.Lib.Bfs
