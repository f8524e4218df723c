import CoreTex.Lib.JsonRoundTrip

/-!
# CoreTex.Lib.JsonOrder

Documents up to the order of their keys.

`Rearranged` permutes the keys of one object at a time. It keeps what a document says, and
two documents with distinct keys are rearranged exactly when their sorted forms are equal.
-/

namespace CoreTex.Lib

/-- Induction on a document: a container has the property when its parts do. -/
@[elab_as_elim]
theorem Json.induction {P : Json → Prop} (null : P .null) (bool : ∀ b, P (.bool b))
    (int : ∀ n, P (.int n)) (float : ∀ literal, P (.float literal)) (str : ∀ s, P (.str s))
    (arr : ∀ items, (∀ x ∈ items, P x) → P (.arr items))
    (obj : ∀ pairs, (∀ e ∈ pairs, P e.2) → P (.obj pairs)) (d : Json) : P d :=
  @Json.rec P (fun items => ∀ x ∈ items, P x) (fun pairs => ∀ e ∈ pairs, P e.2) (fun e => P e.2)
    null bool int float str arr obj (fun _ h => absurd h List.not_mem_nil)
    (fun _ _ hx hxs => List.forall_mem_cons.mpr ⟨hx, hxs⟩)
    (fun _ h => absurd h List.not_mem_nil)
    (fun _ _ he hes => List.forall_mem_cons.mpr ⟨he, hes⟩) (fun _ _ h => h) d

theorem wfItems_iff {items : List Json} : WFItems items ↔ ∀ x ∈ items, x.WF := by
  induction items with
  | nil => simp [WFItems]
  | cons x items ih => rw [WFItems, ih, List.forall_mem_cons]

theorem wfPairs_iff {pairs : List (PyStr × Json)} : WFPairs pairs ↔ ∀ e ∈ pairs, e.2.WF := by
  induction pairs with
  | nil => simp [WFPairs]
  | cons e pairs ih => rw [WFPairs, ih, List.forall_mem_cons]

theorem plainItems_iff {items : List Json} : PlainItems items ↔ ∀ x ∈ items, x.Plain := by
  induction items with
  | nil => simp [PlainItems]
  | cons x items ih => rw [PlainItems, ih, List.forall_mem_cons]

theorem plainPairs_iff {pairs : List (PyStr × Json)} :
    PlainPairs pairs ↔ ∀ e ∈ pairs, Scalar e.1 ∧ e.2.Plain := by
  induction pairs with
  | nil => simp [PlainPairs]
  | cons e pairs ih => rw [PlainPairs, ih, List.forall_mem_cons, and_assoc]

mutual

/-- No string of the document, and no key, holds a surrogate. -/
def Json.Scalars : Json → Prop
  | .str s => Scalar s
  | .arr items => ScalarsItems items
  | .obj pairs => ScalarsPairs pairs
  | _ => True

def ScalarsItems : List Json → Prop
  | [] => True
  | x :: xs => x.Scalars ∧ ScalarsItems xs

def ScalarsPairs : List (PyStr × Json) → Prop
  | [] => True
  | (k, x) :: xs => Scalar k ∧ x.Scalars ∧ ScalarsPairs xs

end

theorem scalarsItems_iff {items : List Json} :
    ScalarsItems items ↔ ∀ x ∈ items, x.Scalars := by
  induction items with
  | nil => simp [ScalarsItems]
  | cons x items ih => rw [ScalarsItems, ih, List.forall_mem_cons]

theorem scalarsPairs_iff {pairs : List (PyStr × Json)} :
    ScalarsPairs pairs ↔ ∀ e ∈ pairs, Scalar e.1 ∧ e.2.Scalars := by
  induction pairs with
  | nil => simp [ScalarsPairs]
  | cons e pairs ih => rw [ScalarsPairs, ih, List.forall_mem_cons, and_assoc]

theorem sortKeysItems_eq_map (items : List Json) : sortKeysItems items = items.map Json.sortKeys := by
  induction items with
  | nil => rfl
  | cons x items ih => rw [sortKeysItems, ih, List.map_cons]

/-! ### Rearranging keys -/

/-- Documents that differ in the order of their keys. -/
inductive Json.Rearranged : Json → Json → Prop
  | refl (d : Json) : Rearranged d d
  | trans {a b c : Json} (hab : Rearranged a b) (hbc : Rearranged b c) : Rearranged a c
  | keys {pairs pairs' : List (PyStr × Json)} (h : pairs.Perm pairs') :
      Rearranged (.obj pairs) (.obj pairs')
  | item (before after : List Json) {x y : Json} (h : Rearranged x y) :
      Rearranged (.arr (before ++ x :: after)) (.arr (before ++ y :: after))
  | value (before after : List (PyStr × Json)) (key : PyStr) {x y : Json}
      (h : Rearranged x y) :
      Rearranged (.obj (before ++ (key, x) :: after)) (.obj (before ++ (key, y) :: after))

namespace Json.Rearranged

theorem symm {a b : Json} (h : Rearranged a b) : Rearranged b a := by
  induction h with
  | refl d => exact .refl d
  | trans _ _ ihab ihbc => exact ihbc.trans ihab
  | keys h => exact .keys h.symm
  | item before after _ ih => exact .item before after ih
  | value before after key _ ih => exact .value before after key ih

theorem wf {a b : Json} (h : Rearranged a b) (ha : a.WF) : b.WF := by
  induction h with
  | refl d => exact ha
  | trans _ _ ihab ihbc => exact ihbc (ihab ha)
  | keys h =>
      rw [Json.WF, wfPairs_iff] at ha ⊢
      exact ⟨(h.map Prod.fst).nodup_iff.mp ha.1, fun e he => ha.2 e (h.mem_iff.mpr he)⟩
  | item before after _ ih =>
      simp only [Json.WF, wfItems_iff, List.forall_mem_append, List.forall_mem_cons] at ha ⊢
      exact ⟨ha.1, ih ha.2.1, ha.2.2⟩
  | value before after key _ ih =>
      simp only [Json.WF, wfPairs_iff, List.forall_mem_append, List.forall_mem_cons,
        List.map_append, List.map_cons] at ha ⊢
      exact ⟨ha.1, ha.2.1, ih ha.2.2.1, ha.2.2.2⟩

theorem plain {a b : Json} (h : Rearranged a b) (ha : a.Plain) : b.Plain := by
  induction h with
  | refl d => exact ha
  | trans _ _ ihab ihbc => exact ihbc (ihab ha)
  | keys h =>
      rw [Json.Plain, plainPairs_iff] at ha ⊢
      exact ⟨(h.map Prod.fst).nodup_iff.mp ha.1, fun e he => ha.2 e (h.mem_iff.mpr he)⟩
  | item before after _ ih =>
      simp only [Json.Plain, plainItems_iff, List.forall_mem_append, List.forall_mem_cons] at ha ⊢
      exact ⟨ha.1, ih ha.2.1, ha.2.2⟩
  | value before after key _ ih =>
      simp only [Json.Plain, plainPairs_iff, List.forall_mem_append, List.forall_mem_cons,
        List.map_append, List.map_cons] at ha ⊢
      exact ⟨ha.1, ha.2.1, ⟨ha.2.2.1.1, ih ha.2.2.1.2⟩, ha.2.2.2⟩

/-- Rearranged documents have one sorted form. -/
theorem sortKeys_eq {a b : Json} (h : Rearranged a b) (ha : a.WF) : a.sortKeys = b.sortKeys := by
  induction h with
  | refl d => rfl
  | trans hab _ ihab ihbc => exact (ihab ha).trans (ihbc (hab.wf ha))
  | keys h =>
      rw [Json.WF] at ha
      rw [Json.sortKeys, Json.sortKeys, sortKeysPairs_eq_map, sortKeysPairs_eq_map]
      refine congrArg Json.obj (sortPairs_eq_of_perm (h.map _) ?_)
      rw [List.map_map]
      exact ha.1
  | item before after _ ih =>
      simp only [Json.WF, wfItems_iff, List.forall_mem_append, List.forall_mem_cons] at ha
      simp only [Json.sortKeys, sortKeysItems_eq_map, List.map_append, List.map_cons, ih ha.2.1]
  | value before after key _ ih =>
      simp only [Json.WF, wfPairs_iff, List.forall_mem_append, List.forall_mem_cons] at ha
      simp only [Json.sortKeys, sortKeysPairs_eq_map, List.map_append, List.map_cons, ih ha.2.2.1]

/-- The values of an object may be rearranged one by one. -/
theorem values (f : Json → Json) (before pairs : List (PyStr × Json))
    (h : ∀ e ∈ pairs, Rearranged e.2 (f e.2)) :
    Rearranged (.obj (before ++ pairs)) (.obj (before ++ pairs.map fun e => (e.1, f e.2))) := by
  induction pairs generalizing before with
  | nil => exact .refl _
  | cons e pairs ih =>
      rw [List.forall_mem_cons] at h
      have hrest := ih (before ++ [(e.1, f e.2)]) h.2
      rw [List.append_assoc, List.append_assoc] at hrest
      exact (Rearranged.value before pairs e.1 h.1).trans hrest

/-- The items of an array may be rearranged one by one. -/
theorem items (f : Json → Json) (before items : List Json)
    (h : ∀ x ∈ items, Rearranged x (f x)) :
    Rearranged (.arr (before ++ items)) (.arr (before ++ items.map f)) := by
  induction items generalizing before with
  | nil => exact .refl _
  | cons x items ih =>
      rw [List.forall_mem_cons] at h
      have hrest := ih (before ++ [f x]) h.2
      rw [List.append_assoc, List.append_assoc] at hrest
      exact (Rearranged.item before items h.1).trans hrest

/-- A document is rearranged by sorting its keys. -/
theorem sortKeys (d : Json) : Rearranged d d.sortKeys := by
  induction d using Json.induction with
  | null => exact .refl _
  | bool b => exact .refl _
  | int n => exact .refl _
  | float literal => exact .refl _
  | str s => exact .refl _
  | arr xs ih =>
      rw [Json.sortKeys, sortKeysItems_eq_map]
      exact items Json.sortKeys [] xs ih
  | obj pairs ih =>
      rw [Json.sortKeys, sortKeysPairs_eq_map]
      exact (values Json.sortKeys [] pairs ih).trans (.keys (sortPairs_perm _).symm)

/-- **Documents with one sorted form are rearranged.** -/
theorem of_sortKeys_eq {a b : Json} (h : a.sortKeys = b.sortKeys) : Rearranged a b :=
  (sortKeys a).trans (h ▸ (sortKeys b).symm)

end Json.Rearranged

/-! ### ASCII -/

/-- The bytes of ASCII text. -/
def IsAscii (bytes : Bytes) : Prop :=
  ∀ b ∈ bytes, b.toNat < 128

@[simp] theorem isAscii_nil : IsAscii [] := fun _ h => absurd h List.not_mem_nil

@[simp] theorem isAscii_cons {b : UInt8} {bytes : Bytes} :
    IsAscii (b :: bytes) ↔ b.toNat < 128 ∧ IsAscii bytes :=
  List.forall_mem_cons

theorem IsAscii.append {a b : Bytes} (ha : IsAscii a) (hb : IsAscii b) : IsAscii (a ++ b) :=
  List.forall_mem_append.mpr ⟨ha, hb⟩

theorem isAscii_escapeUnit (n : Nat) : IsAscii (escapeUnit n) := by
  have hpoints : ∀ p ∈ points (escapeUnit n), p < 128 := by
    rw [points_escapeUnit]
    simp [toNat_hexDigit_lt]
  exact fun b hb => hpoints b.toNat (List.mem_map_of_mem hb)

theorem isAscii_escapeCodePoint (c : Nat) : IsAscii (escapeCodePoint c) := by
  rw [escapeCodePoint]
  iterate 7
    split
    · simp
  split
  next hplain =>
    intro b hb
    rw [List.mem_singleton.mp hb, UInt8.toNat_ofNat', Nat.mod_eq_of_lt (by omega)]
    omega
  split
  · exact isAscii_escapeUnit c
  · exact (isAscii_escapeUnit _).append (isAscii_escapeUnit _)

theorem isAscii_serString (s : PyStr) : IsAscii (serString s) := by
  refine IsAscii.append (IsAscii.append (by simp) fun b hb => ?_) (by simp)
  obtain ⟨c, -, hb⟩ := List.mem_flatMap.mp hb
  exact isAscii_escapeCodePoint c b hb

theorem isAscii_serItems {items : List Json} (h : ∀ x ∈ items, IsAscii x.ser) :
    IsAscii (serItems items) := by
  induction items with
  | nil => exact fun b hb => absurd hb List.not_mem_nil
  | cons x items ih =>
      rw [List.forall_mem_cons] at h
      cases items with
      | nil => exact h.1
      | cons y items =>
          rw [serItems]
          exact (h.1.append (by simp)).append (ih h.2)

theorem isAscii_serPairs {pairs : List (PyStr × Json)} (h : ∀ e ∈ pairs, IsAscii e.2.ser) :
    IsAscii (serPairs pairs) := by
  induction pairs with
  | nil => exact fun b hb => absurd hb List.not_mem_nil
  | cons e pairs ih =>
      obtain ⟨k, x⟩ := e
      rw [List.forall_mem_cons] at h
      have hmember : IsAscii (serString k ++ [58] ++ x.ser) :=
        ((isAscii_serString k).append (by simp)).append h.1
      cases pairs with
      | nil => exact hmember
      | cons e pairs =>
          rw [serPairs]
          exact (hmember.append (by simp)).append (ih h.2)

/-- A document without floats is written in ASCII. -/
theorem isAscii_ser {d : Json} (h : d.Plain) : IsAscii d.ser := by
  induction d using Json.induction with
  | null =>
      have hword : IsAscii [110, 117, 108, 108] := by simp
      exact hword
  | bool b =>
      cases b
      · have hword : IsAscii [102, 97, 108, 115, 101] := by simp
        exact hword
      · have hword : IsAscii [116, 114, 117, 101] := by simp
        exact hword
  | int n =>
      have hnat : ∀ m : Nat, IsAscii (Json.int m).ser := by
        intro m b hb
        have hpoint : b.toNat ∈ points (Json.int m).ser := List.mem_map_of_mem hb
        rw [points_ser_natCast] at hpoint
        have := of_decide_eq_true (isDigit_of_mem_digits hpoint)
        omega
      cases n with
      | ofNat m => exact hnat m
      | negSucc m =>
          rw [ser_negSucc]
          exact isAscii_cons.mpr ⟨by simp, hnat (m + 1)⟩
  | float literal => exact absurd h (by simp [Json.Plain])
  | str s => exact isAscii_serString s
  | arr items ih =>
      rw [Json.Plain, plainItems_iff] at h
      have hitems := isAscii_serItems fun x hx => ih x hx (h x hx)
      rw [Json.ser]
      exact (IsAscii.append (by simp) hitems).append (by simp)
  | obj pairs ih =>
      rw [Json.Plain, plainPairs_iff] at h
      have hpairs := isAscii_serPairs fun e he => ih e he (h.2 e he).2
      rw [Json.ser]
      exact (IsAscii.append (by simp) hpairs).append (by simp)

/-! ### What the scanner builds -/

section Scan

variable {ε : Type} {hook : List (PyStr × Json) → Except ε Json} {invalid : ε}

/-- The scanner builds documents with distinct keys, with a given amount of fuel. -/
structure BuildsWF (hook : List (PyStr × Json) → Except ε Json) (invalid : ε) (fuel : Nat) :
    Prop where
  value : ∀ s d rest, scanValue hook invalid fuel s = .ok (d, rest) → d.WF
  items : ∀ s xs rest, scanItems hook invalid fuel s = .ok (xs, rest) → WFItems xs
  members : ∀ s pairs rest, scanMembers hook invalid fuel s = .ok (pairs, rest) → WFPairs pairs

theorem scanNumber_wf {s rest : PyStr} {d : Json} (h : scanNumber s = some (d, rest)) : d.WF := by
  obtain ⟨r, -, h⟩ := Option.bind_eq_some_iff.mp h
  dsimp only at h
  split at h
  · cases h
    trivial
  · split at h
    · cases h
      trivial
    · cases h
      trivial

theorem scanAtom_wf {s rest : PyStr} {d : Json} (h : scanAtom s = some (d, rest)) : d.WF := by
  rw [scanAtom, Option.or_eq_some_iff] at h
  rcases h with h | ⟨-, h⟩
  · exact scanNumber_wf h
  · obtain ⟨w, hw, h⟩ := List.exists_of_findSome?_eq_some h
    obtain ⟨_, -, h⟩ := Option.map_eq_some_iff.mp h
    cases h
    have hall : ∀ w ∈ constantWords, w.2.WF := by
      simp [constantWords, Json.WF]
    exact hall w hw

theorem expect_eq_ok {α : Type} {x : Option α} {a : α} : expect invalid x = .ok a ↔ x = some a := by
  cases x <;> simp [expect]

theorem BuildsWF.value_succ {fuel : Nat} (ih : BuildsWF hook invalid fuel)
    (hhook : ∀ pairs d, WFPairs pairs → hook pairs = .ok d → d.WF) {s rest : PyStr} {d : Json}
    (h : scanValue hook invalid (fuel + 1) s = .ok (d, rest)) : d.WF := by
  unfold scanValue at h
  split at h
  · obtain ⟨r, -, h⟩ := bind_eq_ok.mp h
    cases h
    trivial
  · split at h
    · obtain ⟨d', hd, h⟩ := bind_eq_ok.mp h
      cases h
      exact hhook [] _ trivial hd
    · obtain ⟨r, hr, h⟩ := bind_eq_ok.mp h
      obtain ⟨d', hd, h⟩ := bind_eq_ok.mp h
      cases h
      exact hhook _ _ (ih.members _ _ _ hr) hd
  · split at h
    · cases h
      trivial
    · obtain ⟨r, hr, h⟩ := bind_eq_ok.mp h
      cases h
      exact ih.items _ _ _ hr
  · exact scanAtom_wf (expect_eq_ok.mp h)

theorem BuildsWF.items_succ {fuel : Nat} (ih : BuildsWF hook invalid fuel) {s rest : PyStr}
    {xs : List Json} (h : scanItems hook invalid (fuel + 1) s = .ok (xs, rest)) : WFItems xs := by
  rw [scanItems] at h
  obtain ⟨r, hr, h⟩ := bind_eq_ok.mp h
  have hitem := ih.value _ _ _ hr
  dsimp only at h
  split at h
  · cases h
    exact ⟨hitem, trivial⟩
  · obtain ⟨r', hr', h⟩ := bind_eq_ok.mp h
    cases h
    exact ⟨hitem, ih.items _ _ _ hr'⟩
  · cases h

theorem BuildsWF.members_succ {fuel : Nat} (ih : BuildsWF hook invalid fuel) {s rest : PyStr}
    {pairs : List (PyStr × Json)} (h : scanMembers hook invalid (fuel + 1) s = .ok (pairs, rest)) :
    WFPairs pairs := by
  rw [scanMembers] at h
  obtain ⟨_, -, h⟩ := bind_eq_ok.mp h
  obtain ⟨_, -, h⟩ := bind_eq_ok.mp h
  obtain ⟨_, -, h⟩ := bind_eq_ok.mp h
  obtain ⟨r, hr, h⟩ := bind_eq_ok.mp h
  have hvalue := ih.value _ _ _ hr
  dsimp only at h
  split at h
  · cases h
    exact ⟨hvalue, trivial⟩
  · obtain ⟨r', hr', h⟩ := bind_eq_ok.mp h
    cases h
    exact ⟨hvalue, ih.members _ _ _ hr'⟩
  · cases h

theorem buildsWF (hhook : ∀ pairs d, WFPairs pairs → hook pairs = .ok d → d.WF) (fuel : Nat) :
    BuildsWF hook invalid fuel := by
  induction fuel with
  | zero =>
      refine ⟨fun s d rest h => ?_, fun s xs rest h => ?_, fun s pairs rest h => ?_⟩
      · rw [scanValue] at h
        cases h
      · rw [scanItems] at h
        cases h
      · rw [scanMembers] at h
        cases h
  | succ fuel ih =>
      exact ⟨fun _ _ _ => ih.value_succ hhook, fun _ _ _ => ih.items_succ,
        fun _ _ _ => ih.members_succ⟩

/-- `loads` builds documents with distinct keys when its hook does. -/
theorem loads_wf (hhook : ∀ pairs d, WFPairs pairs → hook pairs = .ok d → d.WF) {text : PyStr}
    {d : Json} (h : loads hook invalid text = .ok d) : d.WF := by
  obtain ⟨-, h⟩ := refuseIf_bind_eq_ok.mp h
  obtain ⟨r, hr, h⟩ := bind_eq_ok.mp h
  obtain ⟨-, h⟩ := refuseIf_bind_eq_ok.mp h
  cases h
  exact (buildsWF hhook _).value _ _ _ hr

end Scan

end CoreTex.Lib
