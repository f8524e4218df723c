import CoreTex.Eval.QueryPackVerification

/-!
# CoreTex.Eval.QueryPackSelection

What the selection of a hidden query pack promises (`eval/hidden-query-pack.ts`).

A derived pack has exactly the size of its profile, no event twice, and every quota filled
(`deriveQueryPack_exact`), whatever the order of the corpus (`deriveQueryPack_reordered`). The
live overlay keeps all three: `Overlaid` is its invariant, and `overlayStep_overlaid` its step.
-/

namespace CoreTex.HiddenPack

open CoreTex.Lib CoreTex.EvalReport CoreTex.RigDispatch

/-! ### Sampling -/

section Sampling

/-- No id twice. -/
def Distinct (events : List ProductionCorpusEvent) : Prop :=
  (events.map ProductionCorpusEvent.id).Nodup

instance (events : List ProductionCorpusEvent) : Decidable (Distinct events) :=
  inferInstanceAs (Decidable (events.map ProductionCorpusEvent.id).Nodup)

theorem distinct_nil : Distinct [] :=
  List.nodup_nil

theorem hasId_eq_false {events : List ProductionCorpusEvent} {id : String} :
    hasId events id = false ↔ id ∉ events.map ProductionCorpusEvent.id := by
  simp [hasId, List.any_eq_false]

theorem Distinct.concat {pack : List ProductionCorpusEvent} {cand : ProductionCorpusEvent}
    (h : Distinct pack) (hid : ¬ hasId pack cand.id = true) : Distinct (pack ++ [cand]) := by
  rw [Bool.not_eq_true, hasId_eq_false] at hid
  rw [Distinct, List.map_append, List.nodup_append]
  refine ⟨h, List.nodup_singleton _, fun a ha b hb => ?_⟩
  rw [List.map_singleton, List.mem_singleton] at hb
  subst hb
  exact fun heq => hid (heq ▸ ha)

theorem reserveQuota_distinct {packSize : JsNum} {quota : PackQuota}
    {draw : Nat → ProductionCorpusEvent} (left j : Nat) {pack : List ProductionCorpusEvent}
    (h : Distinct pack) : Distinct (reserveQuota packSize quota draw left j pack) ∧
      pack.IsPrefix (reserveQuota packSize quota draw left j pack) := by
  induction left generalizing j pack with
  | zero => exact ⟨h, List.prefix_rfl⟩
  | succ left ih =>
      rw [reserveQuota]
      split
      · dsimp only
        split
        · exact ih (j + 1) h
        · next hid =>
            split
            · exact ih (j + 1) h
            · split
              · exact ⟨h, List.prefix_rfl⟩
              · obtain ⟨hdistinct, hfront⟩ := ih (j + 1) (h.concat hid)
                exact ⟨hdistinct, (List.prefix_append _ _).trans hfront⟩
      · exact ⟨h, List.prefix_rfl⟩

/-- More events count for no stratum less. -/
theorem stratumCount_mono {events more : List ProductionCorpusEvent} (h : events.Sublist more)
    (stratum : String) : stratumCount events stratum ≤ stratumCount more stratum :=
  (h.filter _).length_le

theorem below_mono {n m : Nat} {x : JsNum} (h : n ≤ m) (hn : below n x = false) :
    below m x = false := by
  cases x with
  | nan => rfl
  | inf negative => exact hn
  | fin q =>
      simp only [below, decide_eq_false_iff_not, not_lt] at hn ⊢
      exact hn.trans (by exact_mod_cast h)

/-- What is reserved for a quota is not lost to those after it. -/
theorem reserveQuotas_met {H : Host} {packSize : JsNum} {draws : Nat}
    {draw : PackQuota → Nat → ProductionCorpusEvent} {quotas : List PackQuota}
    {pack reserved : List ProductionCorpusEvent} (h : Distinct pack)
    (hok : reserveQuotas H packSize draws draw quotas pack = .ok reserved) :
    Distinct reserved ∧ pack.IsPrefix reserved ∧
      ∀ quota ∈ quotas, below (stratumCount reserved quota.stratum) quota.minCount = false := by
  induction quotas generalizing pack with
  | nil =>
      rw [reserveQuotas, pure_eq_ok] at hok
      subst hok
      exact ⟨h, List.prefix_rfl, fun _ hmem => absurd hmem List.not_mem_nil⟩
  | cons quota quotas ih =>
      rw [reserveQuotas] at hok
      split at hok
      · cases hok
      · next hmet =>
          have hquota : Distinct (reserveQuota packSize quota (draw quota) draws 0 pack) ∧
              pack.IsPrefix (reserveQuota packSize quota (draw quota) draws 0 pack) :=
            reserveQuota_distinct draws 0 h
          obtain ⟨hdistinct, hfront⟩ := hquota
          obtain ⟨hreserved, hkept, hquotas⟩ := ih hdistinct hok
          refine ⟨hreserved, hfront.trans hkept, fun q hq => ?_⟩
          rcases List.mem_cons.mp hq with rfl | hq
          · exact below_mono (stratumCount_mono hkept.sublist _) (Bool.not_eq_true _ ▸ hmet)
          · exact hquotas q hq

theorem fillPack_distinct {packSize : JsNum} {draw : Nat → ProductionCorpusEvent} (left i : Nat)
    {pack : List ProductionCorpusEvent} (h : Distinct pack) :
    Distinct (fillPack packSize draw left i pack) ∧
      pack.IsPrefix (fillPack packSize draw left i pack) := by
  induction left generalizing i pack with
  | zero => exact ⟨h, List.prefix_rfl⟩
  | succ left ih =>
      rw [fillPack]
      split
      · dsimp only
        split
        · exact ih (i + 1) h
        · next hid =>
            obtain ⟨hdistinct, hfront⟩ := ih (i + 1) (h.concat hid)
            exact ⟨hdistinct, (List.prefix_append _ _).trans hfront⟩
      · exact ⟨h, List.prefix_rfl⟩

theorem sampleEvents_exact {H : Host} {keccak256 : Bytes → Digest} {seed epochBE : Bytes}
    {sorted pack : List ProductionCorpusEvent} {profile : HiddenPackProfile}
    (hok : sampleEvents H keccak256 seed epochBE sorted profile = .ok pack) :
    profile.packSize = .fin pack.length ∧ Distinct pack ∧
      ∀ quota ∈ profile.quotas, below (stratumCount pack quota.stratum) quota.minCount = false := by
  rw [sampleEvents] at hok
  split at hok
  next h =>
    obtain ⟨reserved, hreserved, hok⟩ := bind_eq_ok.mp hok
    dsimp only at hok
    split at hok
    · cases hok
    · next hsize =>
        cases hok
        obtain ⟨hdistinct, -, hquotas⟩ := reserveQuotas_met distinct_nil hreserved
        obtain ⟨hfilled, hkept⟩ := fillPack_distinct (sorted.length * 8) 0 hdistinct
        exact ⟨not_not.mp hsize, hfilled, fun quota hquota =>
          below_mono (stratumCount_mono hkept.sublist _) (hquotas quota hquota)⟩
  next => cases hok

end Sampling

section Derive

variable {H : Host} {keccak256 : Bytes → Digest} {S : CompareSort} {epochId : JsNum}
  {evalSeedHex : String} {corpus : ProductionCorpus} {profile : HiddenPackProfile}

/-- **A derived pack is exact**: it has the size of its profile, eligible events of the corpus
only, none of them twice, and as many in the stratum of each quota as the quota asks for. -/
theorem deriveQueryPack_exact {pack : QueryPack}
    (hok : deriveQueryPack H keccak256 S epochId evalSeedHex corpus profile = .ok pack) :
    profile.packSize = .fin pack.events.length ∧ Distinct pack.events ∧
      (∀ quota ∈ profile.quotas,
        below (stratumCount pack.events quota.stratum) quota.minCount = false) ∧
      ∀ e ∈ pack.events, e ∈ corpus.events ∧ hiddenPackEventEligible e profile = true := by
  rw [deriveQueryPack] at hok
  obtain ⟨seed, -, hok⟩ := bind_eq_ok.mp hok
  obtain ⟨epochBE, -, hok⟩ := bind_eq_ok.mp hok
  obtain ⟨events, hevents, hok⟩ := bind_eq_ok.mp hok
  cases hok
  obtain ⟨hsize, hdistinct, hquotas⟩ := sampleEvents_exact hevents
  refine ⟨hsize, hdistinct, hquotas, fun e he => ?_⟩
  exact List.mem_filter.mp ((S.mem_sort _).mp (sampleEvents_subset hevents e he))

end Derive

/-! ### The order of the corpus -/

/-- The UTF-16 units of a character. -/
theorem utf16Units_cons (c : Char) (cs : List Char) :
    utf16Units (String.ofList (c :: cs)) =
      utf16Units (String.ofList [c]) ++ utf16Units (String.ofList cs) := by
  simp [utf16Units]

/-- No character's units begin another's. -/
theorem utf16Units_append_inj {c d : Char} {us vs : List Nat}
    (h : utf16Units (String.ofList [c]) ++ us = utf16Units (String.ofList [d]) ++ vs) :
    c = d ∧ us = vs := by
  have hvalid : ∀ e : Char, e.toNat < 0xD800 ∨ 0xDFFF < e.toNat ∧ e.toNat < 0x110000 :=
    fun e => e.valid
  have hc := hvalid c
  have hd := hvalid d
  simp only [utf16Units, String.toList_ofList, List.flatMap_cons, List.flatMap_nil,
    List.append_nil] at h
  split at h <;> split at h <;>
    simp only [List.cons_append, List.nil_append, List.cons.injEq] at h
  · exact ⟨Char.toNat_inj.mp h.1, h.2⟩
  · omega
  · omega
  · exact ⟨Char.toNat_inj.mp (by omega), h.2.2⟩

theorem utf16Units_injective {a b : String} (h : utf16Units a = utf16Units b) : a = b := by
  have hlists : ∀ as bs : List Char,
      utf16Units (String.ofList as) = utf16Units (String.ofList bs) → as = bs := by
    intro as
    induction as with
    | nil =>
        rintro (_ | ⟨d, ds⟩) h
        · rfl
        · rw [utf16Units_cons] at h
          simp only [utf16Units, String.toList_ofList, List.flatMap_nil, List.flatMap_cons,
            List.append_nil] at h
          split at h <;> cases h
    | cons c cs ih =>
        rintro (_ | ⟨d, ds⟩) h
        · rw [utf16Units_cons] at h
          simp only [utf16Units, String.toList_ofList, List.flatMap_nil, List.flatMap_cons,
            List.append_nil] at h
          split at h <;> cases h
        · rw [utf16Units_cons, utf16Units_cons d] at h
          obtain ⟨rfl, htail⟩ := utf16Units_append_inj h
          rw [ih ds htail]
  have hlist := hlists a.toList b.toList (by simpa using h)
  exact String.toList_inj.mp hlist

theorem codePoint_le {a b : String} :
    codePointCompare a b ≤ 0 ↔ utf16Units a ≤ utf16Units b := by
  unfold codePointCompare
  by_cases hab : utf16Units a < utf16Units b
  · simp [hab, hab.le]
  · by_cases hba : utf16Units b < utf16Units a
    · simp [hab, hba]
    · simp [hab, hba, not_lt.mp hba]

theorem codePoint_consistent :
    Consistent fun a b : ProductionCorpusEvent => codePointCompare a.id b.id where
  swap a b := by
    simp only [codePoint_le]
    exact le_total _ _
  trans a b c := by
    simp only [codePoint_le]
    exact le_trans

/-- **A pack does not depend on the order of the corpus**, nor on the events that are not
eligible. -/
theorem deriveQueryPack_reordered (H : Host) (keccak256 : Bytes → Digest) (S : CompareSort)
    (epochId : JsNum) (evalSeedHex : String) (profile : HiddenPackProfile)
    {corpus corpus' : ProductionCorpus} (hroot : corpus.corpusRoot = corpus'.corpusRoot)
    (hperm : (corpus.events.filter fun e => hiddenPackEventEligible e profile).Perm
      (corpus'.events.filter fun e => hiddenPackEventEligible e profile))
    (hdistinct : Distinct (corpus.events.filter fun e => hiddenPackEventEligible e profile)) :
    deriveQueryPack H keccak256 S epochId evalSeedHex corpus profile =
      deriveQueryPack H keccak256 S epochId evalSeedHex corpus' profile := by
  have hsort := S.sort_eq_of_perm codePoint_consistent hperm fun a ha b hb hab hba =>
    List.inj_on_of_nodup_map hdistinct ha hb (utf16Units_injective
      (le_antisymm (codePoint_le.mp hab) (codePoint_le.mp hba)))
  rw [deriveQueryPack, deriveQueryPack, hsort, hroot]

/-! ### The live events -/

/-- The events of some rows, each as often as it is there. -/
def Rows.events (rows : Rows) : Multiset ProductionCorpusEvent :=
  (rows.map fun e => (e.2 : Multiset ProductionCorpusEvent)).sum

theorem Rows.events_cons (e : String × List ProductionCorpusEvent) (rows : Rows) :
    Rows.events (e :: rows) = (e.2 : Multiset ProductionCorpusEvent) + Rows.events rows := by
  rw [Rows.events, List.map_cons, List.sum_cons]
  rfl

theorem Rows.events_set (rows : Rows) (fam : String) (left : List ProductionCorpusEvent) :
    Rows.events (rows.set fam left) + (rows.of fam : Multiset ProductionCorpusEvent) =
      rows.events + (left : Multiset ProductionCorpusEvent) := by
  induction rows with
  | nil => simp [JsMap.set, Rows.events, Rows.of]
  | cons e rows ih =>
      by_cases hkey : e.1 = fam
      · simp only [JsMap.set, Rows.of, JsMap.get_cons, if_pos hkey, Option.getD_some,
          Rows.events_cons]
        abel
      · have hof : Rows.of (e :: rows) fam = Rows.of rows fam := by
          simp only [Rows.of, JsMap.get_cons, if_neg hkey]
        rw [hof]
        simp only [JsMap.set, if_neg hkey, Rows.events_cons]
        rw [add_assoc, ih, add_assoc]

theorem Rows.events_pop {rows : Rows} {fam : String} {next : ProductionCorpusEvent}
    {left : List ProductionCorpusEvent} (h : rows.of fam = next :: left) :
    {next} + Rows.events (rows.set fam left) = rows.events := by
  have hset := Rows.events_set rows fam left
  rw [h, ← Multiset.cons_coe, ← Multiset.singleton_add, ← add_assoc] at hset
  rw [add_comm]
  exact add_right_cancel hset

/-- All events of a state, taken or not. -/
def LiveState.events (s : LiveState) : Multiset ProductionCorpusEvent :=
  s.byFamily.events + s.deferredByFamily.events + (s.live : Multiset ProductionCorpusEvent)

/-- A way to take events that loses none and leaves the taken ones alone. -/
structure Takes (take : String → LiveState → Option ProductionCorpusEvent × LiveState) :
    Prop where
  events : ∀ fam s, ((take fam s).1.toList : Multiset ProductionCorpusEvent) +
    (take fam s).2.events = s.events
  live : ∀ fam s, (take fam s).2.live = s.live

theorem firstUnused_events (key : ProductionCorpusEvent → Option String) (used : List String)
    (deferred rows : List ProductionCorpusEvent) :
    ((firstUnused key used deferred rows).1.toList : Multiset ProductionCorpusEvent) +
        (firstUnused key used deferred rows).2.1 + (firstUnused key used deferred rows).2.2 =
      (deferred : Multiset ProductionCorpusEvent) + rows := by
  induction rows generalizing deferred with
  | nil => simp [firstUnused]
  | cons next rows ih =>
      have hfound : ((some next).toList : Multiset ProductionCorpusEvent) + rows + deferred =
          (deferred : Multiset ProductionCorpusEvent) + (next :: rows : List _) := by
        rw [add_comm, ← Multiset.cons_coe]
        rfl
      rw [firstUnused]
      split
      · exact hfound
      · split
        · rw [ih, ← Multiset.coe_add, ← Multiset.cons_coe, add_assoc]
          rfl
        · exact hfound

theorem takes_takeUnique (key : ProductionCorpusEvent → Option String) :
    Takes (takeUnique key) where
  events fam s := by
    obtain ⟨found, hfound⟩ : ∃ found, firstUnused key s.usedPublicIntentKeys
        (s.deferredByFamily.of fam) (s.byFamily.of fam) = found := ⟨_, rfl⟩
    have htaken := firstUnused_events key s.usedPublicIntentKeys (s.deferredByFamily.of fam)
      (s.byFamily.of fam)
    have hrows := Rows.events_set s.byFamily fam found.2.1
    have hdeferred := Rows.events_set s.deferredByFamily fam found.2.2
    rw [hfound] at htaken
    have htake : takeUnique key fam s = (found.1, { s with
        byFamily := s.byFamily.set fam found.2.1
        deferredByFamily := s.deferredByFamily.set fam found.2.2
        usedPublicIntentKeys := s.usedPublicIntentKeys ++ ((found.1.bind key).toList) }) := by
      rw [takeUnique, hfound]
    rw [htake]
    -- what the two queues of the family held moves between them and the event taken
    refine add_right_cancel (b := (s.byFamily.of fam : Multiset ProductionCorpusEvent) +
      (s.deferredByFamily.of fam : Multiset ProductionCorpusEvent)) ?_
    simp only [LiveState.events]
    calc (found.1.toList : Multiset ProductionCorpusEvent) +
          (Rows.events (s.byFamily.set fam found.2.1) +
            Rows.events (s.deferredByFamily.set fam found.2.2) + s.live) +
          (s.byFamily.of fam + s.deferredByFamily.of fam)
        = found.1.toList + (Rows.events (s.byFamily.set fam found.2.1) + s.byFamily.of fam) +
            (Rows.events (s.deferredByFamily.set fam found.2.2) + s.deferredByFamily.of fam) +
            s.live := by abel
      _ = (found.1.toList + found.2.1 + found.2.2) + s.byFamily.events +
            s.deferredByFamily.events + s.live := by rw [hrows, hdeferred]; abel
      _ = s.byFamily.events + s.deferredByFamily.events + s.live +
            (s.byFamily.of fam + s.deferredByFamily.of fam) := by rw [htaken]; abel
  live _ _ := rfl

theorem takes_takeDeferred : Takes takeDeferred where
  events fam s := by
    rw [takeDeferred]
    split
    next next rows heq =>
      calc ([next] : Multiset ProductionCorpusEvent) + (s.byFamily.events +
            Rows.events (s.deferredByFamily.set fam rows) + s.live)
          = s.byFamily.events + ({next} + Rows.events (s.deferredByFamily.set fam rows)) +
              s.live := by rw [Multiset.coe_singleton]; abel
        _ = s.byFamily.events + s.deferredByFamily.events + s.live := by
            rw [Rows.events_pop heq]
    next =>
      split
      next next rows heq =>
        calc ([next] : Multiset ProductionCorpusEvent) +
              (Rows.events (s.byFamily.set fam rows) + s.deferredByFamily.events + s.live)
            = ({next} + Rows.events (s.byFamily.set fam rows)) + s.deferredByFamily.events +
                s.live := by rw [Multiset.coe_singleton]; abel
          _ = s.byFamily.events + s.deferredByFamily.events + s.live := by
              rw [Rows.events_pop heq]
      next => simp
  live fam s := by
    rw [takeDeferred]
    split
    · rfl
    · split <;> rfl

section Rounds

variable {take : String → LiveState → Option ProductionCorpusEvent × LiveState} {limit : JsNum}

/-- Each event was taken while there were fewer than the limit. -/
def Within (limit : JsNum) (n : Nat) : Prop :=
  n = 0 ∨ below (n - 1) limit = true

theorem takeRound_keeps (htakes : Takes take) (fams : List String) (s : LiveState)
    (advanced : Bool) (hwithin : Within limit s.live.length) :
    (takeRound take limit fams s advanced).1.events = s.events ∧
      Within limit (takeRound take limit fams s advanced).1.live.length := by
  induction fams generalizing s advanced with
  | nil => exact ⟨rfl, hwithin⟩
  | cons fam fams ih =>
      rw [takeRound]
      split
      next hbelow =>
        have hevents := htakes.events fam s
        have hlive := htakes.live fam s
        split
        next s' heq =>
          rw [heq] at hevents hlive
          obtain ⟨hkept, hbound⟩ := ih s' advanced (by rw [hlive]; exact hwithin)
          exact ⟨hkept.trans (by simpa using hevents), hbound⟩
        next next s' heq =>
          rw [heq] at hevents hlive
          have htaken : Within limit (s'.live ++ [next]).length := by
            refine .inr ?_
            rw [List.length_append, hlive]
            exact hbelow
          obtain ⟨hkept, hbound⟩ := ih { s' with live := s'.live ++ [next] } true htaken
          refine ⟨hkept.trans ?_, hbound⟩
          rw [← hevents]
          show s'.byFamily.events + s'.deferredByFamily.events +
              ((s'.live ++ [next] : List _) : Multiset ProductionCorpusEvent) =
            ([next] : Multiset ProductionCorpusEvent) + (s'.byFamily.events +
              s'.deferredByFamily.events + s'.live)
          rw [← Multiset.coe_add]
          abel
      next => exact ⟨rfl, hwithin⟩

theorem takeRounds_keeps (htakes : Takes take) (familyOrder : List String) (fuel : Nat)
    (s : LiveState) (hwithin : Within limit s.live.length) :
    (takeRounds take limit familyOrder fuel s).events = s.events ∧
      Within limit (takeRounds take limit familyOrder fuel s).live.length := by
  induction fuel generalizing s with
  | zero => exact ⟨rfl, hwithin⟩
  | succ fuel ih =>
      rw [takeRounds]
      split
      · have hround := takeRound_keeps htakes familyOrder s false hwithin
        split
        next s' heq =>
          rw [heq] at hround
          obtain ⟨hkept, hbound⟩ := ih s' hround.2
          exact ⟨hkept.trans hround.1, hbound⟩
        next s' heq =>
          rw [heq] at hround
          exact hround
      · exact ⟨rfl, hwithin⟩

/-- Both runs of rounds, from a state that has taken nothing. -/
theorem live_le_events {key : ProductionCorpusEvent → Option String} (familyOrder : List String)
    (fuel fuel' : Nat) {s : LiveState} (hlive : s.live = []) :
    ((takeRounds takeDeferred limit familyOrder fuel' (takeRounds (takeUnique key) limit
        familyOrder fuel s)).live : Multiset ProductionCorpusEvent) ≤ s.events ∧
      Within limit (takeRounds takeDeferred limit familyOrder fuel' (takeRounds (takeUnique key)
        limit familyOrder fuel s)).live.length := by
  obtain ⟨hunique, hwithin⟩ := takeRounds_keeps (takes_takeUnique key) familyOrder fuel s
    (.inl (by rw [hlive]; rfl) : Within limit s.live.length)
  obtain ⟨hdeferred, hwithin⟩ := takeRounds_keeps takes_takeDeferred familyOrder fuel' _ hwithin
  refine ⟨?_, hwithin⟩
  rw [← hunique, ← hdeferred]
  exact Multiset.le_add_left _ _

end Rounds

theorem rowsByFamily_events (keep : ProductionCorpusEvent → Bool)
    (events : List ProductionCorpusEvent) :
    (rowsByFamily keep events).events = (events.filter keep : List _) := by
  have hfold : ∀ rows : Rows, Rows.events (events.foldl (fun rows e =>
      if keep e then JsMap.set rows (familyOf e) (Rows.of rows (familyOf e) ++ [e]) else rows)
        rows) = rows.events + (events.filter keep : List _) := by
    induction events with
    | nil => simp
    | cons e events ih =>
        intro rows
        rw [List.foldl_cons, ih]
        by_cases hkeep : keep e = true
        · have hset := Rows.events_set rows (familyOf e) (rows.of (familyOf e) ++ [e])
          rw [← Multiset.coe_add, ← add_assoc, add_right_comm] at hset
          rw [if_pos hkeep, List.filter_cons_of_pos hkeep, add_right_cancel hset,
            ← Multiset.cons_coe, ← Multiset.singleton_add, add_assoc]
          rfl
        · rw [if_neg hkeep, List.filter_cons_of_neg hkeep]
  rw [rowsByFamily, hfold []]
  simp [Rows.events]

section Live

variable (H : Host) (S : CompareSort) (pack : QueryPack) (corpus : ProductionCorpus)
  (opts : ActiveLiveEvalPackOptions)

/-- Live events that may go over a pack: active ones of the corpus that the pack has not, and no
more of them than the limit allows. -/
structure LiveOver (live : List ProductionCorpusEvent) : Prop where
  distinct : Distinct corpus.events → Distinct live
  fresh : ∀ e ∈ live, e ∈ corpus.events ∧ opts.isActiveLiveEval e = true ∧
    e.id ∉ pack.events.map ProductionCorpusEvent.id
  within : Within opts.limit live.length

theorem liveOver_liveEvents : LiveOver pack corpus opts (liveEvents H S pack corpus opts) := by
  obtain ⟨keep, hkeep⟩ : ∃ keep : ProductionCorpusEvent → Bool, keep = fun e =>
      opts.isActiveLiveEval e && !(pack.events.map ProductionCorpusEvent.id).contains e.id :=
    ⟨_, rfl⟩
  have hsorted : ∀ rows : Rows,
      Rows.events (rows.map fun e => (e.1, S.sort newestFirst e.2)) = rows.events := by
    intro rows
    rw [Rows.events, List.map_map, Rows.events]
    congr 1
    exact List.map_congr_left fun e _ => Multiset.coe_eq_coe.mpr (S.perm _ _)
  have hlive : (liveEvents H S pack corpus opts : Multiset ProductionCorpusEvent) ≤
        (corpus.events.filter keep : List _) ∧
      Within opts.limit (liveEvents H S pack corpus opts).length := by
    unfold liveEvents
    dsimp only
    rw [← hkeep]
    obtain ⟨start, hstart⟩ : ∃ start : LiveState, start = ⟨(rowsByFamily keep corpus.events).map
        fun e => (e.1, S.sort newestFirst e.2), [], [], []⟩ := ⟨_, rfl⟩
    rw [← hstart]
    refine ⟨(live_le_events _ _ _ (by rw [hstart])).1.trans_eq ?_,
      (live_le_events _ _ _ (by rw [hstart])).2⟩
    rw [hstart, LiveState.events, hsorted, rowsByFamily_events]
    simp [Rows.events]
  obtain ⟨hle, hwithin⟩ := hlive
  refine ⟨fun hcorpus => ?_, fun e he => ?_, hwithin⟩
  · have hids := Multiset.map_le_map (f := ProductionCorpusEvent.id) hle
    rw [Multiset.map_coe, Multiset.map_coe] at hids
    refine Multiset.coe_nodup.mp (Multiset.nodup_of_le hids (Multiset.coe_nodup.mpr ?_))
    exact hcorpus.sublist (List.filter_sublist.map _)
  · have hmem := List.mem_filter.mp (Multiset.mem_coe.mp (Multiset.mem_of_le hle
      (Multiset.mem_coe.mpr he)))
    rw [hkeep, Bool.and_eq_true, Bool.not_eq_true', List.contains_eq_mem,
      decide_eq_false_iff_not] at hmem
    exact ⟨hmem.1, hmem.2⟩

end Live

/-! ### The overlay -/

section Overlay

variable {base : List ProductionCorpusEvent} {active : ProductionCorpusEvent → Bool}
  {quotas : List PackQuota}

/-- What every step of the overlay keeps. -/
structure Overlaid (base : List ProductionCorpusEvent) (active : ProductionCorpusEvent → Bool)
    (quotas : List PackQuota) (s : OverlayState) : Prop where
  distinct : Distinct s.finalEvents
  ids : ∀ e ∈ s.finalEvents, e.id ∈ s.ids
  quotas : quotasSatisfied s.finalEvents quotas = true
  length : s.finalEvents.length = base.length
  active : (base.filter active).length ≤ (s.finalEvents.filter active).length

/-- A full slice of a list as long as the bound. -/
theorem sliceTo_length {events : List ProductionCorpusEvent} {n : Nat} (h : events.length = n) :
    sliceTo (.fin n) events = events := by
  rw [sliceTo, Int.floor_natCast, Int.toNat_natCast, List.take_of_length_le h.le]

theorem overlayStep_overlaid {s : OverlayState} {candidate : ProductionCorpusEvent}
    (hactive : active candidate = true) (h : Overlaid base active quotas s) :
    Overlaid base active quotas
      (overlayStep (.fin base.length) quotas active s candidate) := by
  have hfull : below s.finalEvents.length (.fin base.length) = false := by
    simp [below, h.length]
  rw [overlayStep]
  split
  · exact h
  next hfresh =>
    rw [if_neg (by rw [hfull]; decide)]
    dsimp only
    split
    · exact h
    next i hfound =>
      have hspared := List.find?_some hfound
      have hi : i < s.finalEvents.length := by
        simpa using List.mem_of_find?_eq_some hfound
      rw [List.getElem?_eq_getElem hi] at hspared ⊢
      simp only [Bool.and_eq_true, Bool.not_eq_true'] at hspared
      obtain ⟨hidle, hquotas⟩ := hspared
      rw [← List.eraseIdx_eq_take_drop_succ] at hquotas
      have hlength : (candidate :: s.finalEvents.eraseIdx i).length = base.length := by
        rw [List.length_cons, List.length_eraseIdx_of_lt hi, ← h.length]
        omega
      rw [sliceTo_length hlength] at hquotas
      have hperm := List.getElem_cons_eraseIdx_perm hi
      have hnodup : (s.finalEvents[i].id ::
          (s.finalEvents.eraseIdx i).map ProductionCorpusEvent.id).Nodup :=
        (hperm.map ProductionCorpusEvent.id).nodup_iff.mpr h.distinct
      have hsub : ∀ e ∈ s.finalEvents.eraseIdx i, e ∈ s.finalEvents :=
        fun e he => List.mem_of_mem_eraseIdx he
      have hcandidate : candidate.id ∉ s.ids := by
        rw [List.contains_eq_mem, decide_eq_true_eq] at hfresh
        exact hfresh
      refine ⟨?_, fun e he => ?_, hquotas, hlength, ?_⟩
      · refine List.nodup_cons.mpr ⟨fun hmem => ?_, (List.nodup_cons.mp hnodup).2⟩
        obtain ⟨e, he, hid⟩ := List.mem_map.mp hmem
        exact hcandidate (hid ▸ h.ids e (hsub e he))
      · rcases List.mem_cons.mp he with rfl | he
        · exact List.mem_cons_self
        · refine List.mem_cons_of_mem _ (List.mem_filter.mpr ⟨h.ids e (hsub e he), ?_⟩)
          have hne : e.id ≠ s.finalEvents[i].id := fun heq =>
            (List.nodup_cons.mp hnodup).1 (heq ▸ List.mem_map_of_mem he)
          simpa using hne
      · have hcount := (hperm.filter active).length_eq
        rw [List.filter_cons_of_neg (by rw [hidle]; decide)] at hcount
        rw [List.filter_cons_of_pos hactive, List.length_cons, hcount]
        exact h.active.trans (Nat.le_succ _)

theorem quotaSafeLiveOverlay_keeps {live : List ProductionCorpusEvent}
    (hactive : ∀ e ∈ live, active e = true) (hdistinct : Distinct base)
    (hquotas : quotasSatisfied base quotas = true) :
    ∃ final ids, quotaSafeLiveOverlay base live (.fin base.length) quotas active = .ok final ∧
      Overlaid base active quotas ⟨final, ids⟩ := by
  have hrun : ∀ s, Overlaid base active quotas s →
      Overlaid base active quotas
        (live.foldl (overlayStep (.fin base.length) quotas active) s) := by
    intro s hs
    exact List.foldlRecOn live _ (motive := Overlaid base active quotas) hs
      fun s hs e he => overlayStep_overlaid (hactive e he) hs
  have hstart : Overlaid base active quotas ⟨base, base.map ProductionCorpusEvent.id⟩ :=
    ⟨hdistinct, fun e he => List.mem_map_of_mem he, hquotas, rfl, le_rfl⟩
  refine ⟨_, _, ?_, hrun _ hstart⟩
  rw [quotaSafeLiveOverlay, hquotas]
  rfl

/-- Without quotas the live events go in front, and as many leave at the end. -/
theorem front_active {live : List ProductionCorpusEvent} (hactive : ∀ e ∈ live, active e = true) :
    (base.filter active).length ≤
      (((live ++ base).take base.length).filter active).length := by
  obtain ⟨kept, hkept⟩ : ∃ kept, kept = base.length - live.length := ⟨_, rfl⟩
  have hlive : ((live.take base.length).filter active).length = (live.take base.length).length := by
    rw [List.filter_eq_self.mpr fun e he => hactive e (List.mem_of_mem_take he)]
  have hbase : (base.filter active).length =
      ((base.take kept).filter active).length + ((base.drop kept).filter active).length := by
    rw [← List.length_append, ← List.filter_append, List.take_append_drop]
  have hdropped := List.length_filter_le active (base.drop kept)
  rw [List.take_append, List.filter_append, List.length_append, hlive, hbase, ← hkept]
  rw [List.length_drop] at hdropped
  rw [List.length_take]
  omega

end Overlay

section Admit

variable {H : Host} {S : CompareSort} {pack : QueryPack} {corpus : ProductionCorpus}
  {opts : ActiveLiveEvalPackOptions}

/-- The quotas that the overlay keeps: those of its options, else those of the profile. -/
def overlayQuotas (opts : ActiveLiveEvalPackOptions) : List PackQuota :=
  opts.quotas.getD ((opts.profile.map HiddenPackProfile.quotas).getD [])

theorem overlaidEvents_keeps (hcorpus : Distinct corpus.events) (hpack : Distinct pack.events)
    (hnonempty : pack.events ≠ [])
    (hquotas : quotasSatisfied pack.events (overlayQuotas opts) = true) :
    ∃ final ids, overlaidEvents H S pack corpus opts = .ok final ∧
      Overlaid pack.events opts.isActiveLiveEval (overlayQuotas opts) ⟨final, ids⟩ ∧
      ∀ e ∈ final, e ∈ pack.events ∨ e ∈ liveEvents H S pack corpus opts := by
  have hlive := liveOver_liveEvents H S pack corpus opts
  have hactive : ∀ e ∈ liveEvents H S pack corpus opts, opts.isActiveLiveEval e = true :=
    fun e he => (hlive.fresh e he).2.1
  have hmax : (if 0 < pack.events.length then JsNum.fin (pack.events.length : ℚ) else opts.limit) =
      .fin pack.events.length := if_pos (List.length_pos_iff.mpr hnonempty)
  rw [overlaidEvents, hmax]
  split
  next hnone =>
    have hnil : overlayQuotas opts = [] := List.length_eq_zero_iff.mp hnone
    rw [hnil]
    split
    · have hall : Distinct (liveEvents H S pack corpus opts ++ pack.events) := by
        rw [Distinct, List.map_append, List.nodup_append]
        refine ⟨hlive.distinct hcorpus, hpack, fun a ha b hb heq => ?_⟩
        obtain ⟨e, he, rfl⟩ := List.mem_map.mp ha
        exact (hlive.fresh e he).2.2 (heq ▸ hb)
      refine ⟨_, ((liveEvents H S pack corpus opts ++ pack.events).take pack.events.length).map
        ProductionCorpusEvent.id, rfl, ⟨?_, fun e he => ?_, rfl, ?_, ?_⟩, fun e he => ?_⟩
      · rw [sliceTo, Int.floor_natCast, Int.toNat_natCast]
        exact hall.sublist ((List.take_sublist _ _).map _)
      · rw [sliceTo, Int.floor_natCast, Int.toNat_natCast] at he
        exact List.mem_map_of_mem he
      · rw [sliceTo, Int.floor_natCast, Int.toNat_natCast]
        simp
      · rw [sliceTo, Int.floor_natCast, Int.toNat_natCast]
        exact front_active hactive
      · exact (List.mem_append.mp (sliceTo_subset _ _ e he)).symm
    · exact ⟨_, pack.events.map ProductionCorpusEvent.id, rfl,
        ⟨hpack, fun e he => List.mem_map_of_mem he, rfl, rfl, le_rfl⟩, fun e he => .inl he⟩
  next =>
    obtain ⟨final, ids, hfinal, hkept⟩ := quotaSafeLiveOverlay_keeps hactive hpack hquotas
    refine ⟨final, ids, hfinal, hkept, ?_⟩
    rw [quotaSafeLiveOverlay, hquotas] at hfinal
    cases hfinal
    exact List.foldlRecOn _ _ (motive := fun s : OverlayState => ∀ x ∈ s.finalEvents,
      x ∈ pack.events ∨ x ∈ liveEvents H S pack corpus opts) (fun x hx => .inl hx)
      fun s hs x hx => overlayStep_forall hs (.inr hx)

/-- What the overlay of a pack keeps, and that it reports what it did. -/
structure OverlayKeeps (pack : QueryPack) (corpus : ProductionCorpus)
    (opts : ActiveLiveEvalPackOptions) (admitted : ActiveLiveEvalPack) : Prop where
  length : admitted.pack.events.length = pack.events.length
  distinct : Distinct admitted.pack.events
  quotas : quotasSatisfied admitted.pack.events (overlayQuotas opts) = true
  members : ∀ e ∈ admitted.pack.events,
    e ∈ pack.events ∨ e ∈ corpus.events ∧ opts.isActiveLiveEval e = true
  active : (pack.events.filter opts.isActiveLiveEval).length ≤ admitted.liveEvalInPack
  liveEvalInPack : admitted.liveEvalInPack =
    (admitted.pack.events.filter opts.isActiveLiveEval).length
  added : admitted.added = (admitted.pack.events.filter fun e =>
    !(pack.events.map ProductionCorpusEvent.id).contains e.id).length
  limit : ∀ n : Nat, opts.limit = .fin n → admitted.added ≤ n
  familyCounts : ∀ fam, (JsMap.get admitted.familyCounts fam).getD 0 =
    ((admitted.pack.events.filter opts.isActiveLiveEval).filter fun e => familyOf e = fam).length

/-- A count by families counts each of them. -/
theorem familyCounts_get (events : List ProductionCorpusEvent) (fam : String) :
    (JsMap.get (events.foldl (fun counts e => JsMap.set counts (familyOf e)
      ((JsMap.get counts (familyOf e)).getD 0 + 1)) ([] : JsMap String Nat)) fam).getD 0 =
      (events.filter fun e => familyOf e = fam).length := by
  have hfold : ∀ counts : JsMap String Nat,
      (JsMap.get (events.foldl (fun counts e => JsMap.set counts (familyOf e)
        ((JsMap.get counts (familyOf e)).getD 0 + 1)) counts) fam).getD 0 =
        (JsMap.get counts fam).getD 0 + (events.filter fun e => familyOf e = fam).length := by
    induction events with
    | nil => simp
    | cons e events ih =>
        intro counts
        rw [List.foldl_cons, ih, JsMap.get_set]
        by_cases hfam : familyOf e = fam
        · rw [if_pos hfam, List.filter_cons_of_pos (by simpa using hfam), List.length_cons, hfam]
          simp only [Option.getD_some]
          omega
        · rw [if_neg hfam, List.filter_cons_of_neg (by simpa using hfam)]
  rw [hfold []]
  simp

/-- The report of an overlay that leaves these events. -/
def overlayReport (pack : QueryPack) (opts : ActiveLiveEvalPackOptions)
    (final : List ProductionCorpusEvent) : ActiveLiveEvalPack where
  pack := { pack with events := final }
  added := ((final.filter opts.isActiveLiveEval).filter fun e =>
    !(pack.events.map ProductionCorpusEvent.id).contains e.id).length
  liveEvalInPack := (final.filter opts.isActiveLiveEval).length
  familyCounts := (final.filter opts.isActiveLiveEval).foldl (fun counts e =>
    JsMap.set counts (familyOf e) ((JsMap.get counts (familyOf e)).getD 0 + 1)) []

theorem admitActiveLiveEvalEvents_keeps (hcorpus : Distinct corpus.events)
    (hpack : Distinct pack.events) (hnonempty : pack.events ≠ [])
    (hquotas : quotasSatisfied pack.events (overlayQuotas opts) = true)
    (hlimit : below 0 opts.limit = true) :
    ∃ admitted, admitActiveLiveEvalEvents H S pack corpus opts = .ok admitted ∧
      OverlayKeeps pack corpus opts admitted := by
  obtain ⟨final, ids, hfinal, hkept, hmembers⟩ :=
    overlaidEvents_keeps (H := H) (S := S) hcorpus hpack hnonempty hquotas
  have hlive := liveOver_liveEvents H S pack corpus opts
  -- what is new in the pack is live, and so it is active
  have hnew : ∀ e ∈ final, e.id ∉ pack.events.map ProductionCorpusEvent.id →
      e ∈ liveEvents H S pack corpus opts := fun e he hid =>
    (hmembers e he).resolve_left fun hbase => hid (List.mem_map_of_mem hbase)
  have hadded : ((final.filter opts.isActiveLiveEval).filter fun e =>
      !(pack.events.map ProductionCorpusEvent.id).contains e.id) =
      final.filter fun e => !(pack.events.map ProductionCorpusEvent.id).contains e.id := by
    rw [List.filter_filter]
    refine List.filter_congr fun e he => ?_
    cases hid : (pack.events.map ProductionCorpusEvent.id).contains e.id with
    | true => rfl
    | false =>
        rw [List.contains_eq_mem, decide_eq_false_iff_not] at hid
        rw [(hlive.fresh e (hnew e he hid)).2.1]
        rfl
  have hcount : (final.filter fun e =>
      !(pack.events.map ProductionCorpusEvent.id).contains e.id).length ≤
      (liveEvents H S pack corpus opts).length := by
    have hnodup : final.Nodup := List.Nodup.of_map _ hkept.distinct
    refine (List.subperm_of_subset (hnodup.filter _) fun e he => ?_).length_le
    obtain ⟨he, hid⟩ := List.mem_filter.mp he
    rw [Bool.not_eq_true', List.contains_eq_mem, decide_eq_false_iff_not] at hid
    exact hnew e he hid
  refine ⟨overlayReport pack opts final, ?_, ?_⟩
  · rw [admitActiveLiveEvalEvents, hlimit, hfinal]
    rfl
  · refine ⟨hkept.length, hkept.distinct, hkept.quotas, fun e he => ?_, hkept.active, rfl, ?_,
      fun n hn => ?_, fun fam => familyCounts_get _ fam⟩
    · exact (hmembers e he).imp_right fun h => ⟨(hlive.fresh e h).1, (hlive.fresh e h).2.1⟩
    · exact congrArg List.length hadded
    · refine (congrArg List.length hadded).trans_le (hcount.trans ?_)
      rcases hlive.within with hzero | hbelow
      · omega
      · rw [hn, below, decide_eq_true_eq] at hbelow
        have : (liveEvents H S pack corpus opts).length - 1 < n := by exact_mod_cast hbelow
        omega

theorem atLeast_eq {n : Nat} {x : JsNum} (h : x ≠ .nan) : atLeast n x = !below n x := by
  cases x with
  | nan => exact absurd rfl h
  | inf negative => simp [atLeast, below]
  | fin q => simp only [atLeast, below, ← decide_not, not_lt]

/-- An active live event of enabled families could have been sampled. -/
theorem eligible_of_active {profile : HiddenPackProfile} {e : ProductionCorpusEvent}
    (hprofile : opts.profile = some profile) (h : opts.isActiveLiveEval e = true) :
    hiddenPackEventEligible e profile = true := by
  simp only [ActiveLiveEvalPackOptions.isActiveLiveEval, hprofile, Bool.and_eq_true,
    decide_eq_true_eq, Option.bind_some, Bool.not_eq_true', List.contains_eq_mem,
    decide_eq_false_iff_not, List.mem_append, not_or] at h
  rw [hiddenPackEventEligible, if_neg (not_not.mpr h.1.1.1.2), Bool.not_eq_true',
    List.contains_eq_mem, decide_eq_false_iff_not, List.mem_append, not_or]
  exact h.2.1

end Admit

/-! ### A selection -/

theorem sampleDerived : ∃ pack, deriveQueryPack sampleHost tailDigest insertionSort (.fin 7)
    (sampleSeed "0x" 64) sampleCorpus sampleProfile = .ok pack :=
  isOk_iff.mp (by decide +kernel)

theorem deriveQueryPack_exact_sample : ∃ pack,
    deriveQueryPack sampleHost tailDigest insertionSort (.fin 7) (sampleSeed "0x" 64) sampleCorpus
      sampleProfile = .ok pack ∧ sampleProfile.packSize = .fin pack.events.length := by
  obtain ⟨pack, hpack⟩ := sampleDerived
  exact ⟨pack, hpack, (deriveQueryPack_exact hpack).1⟩

theorem deriveQueryPack_reordered_sample :
    deriveQueryPack sampleHost tailDigest insertionSort (.fin 7) (sampleSeed "0x" 64) sampleCorpus
        sampleProfile =
      deriveQueryPack sampleHost tailDigest insertionSort (.fin 7) (sampleSeed "0x" 64)
        { sampleCorpus with events := sampleCorpus.events.reverse } sampleProfile :=
  deriveQueryPack_reordered _ _ _ _ _ _ rfl
    (by
      rw [List.filter_reverse]
      exact (List.reverse_perm _).symm)
    (by decide +kernel)

end CoreTex.HiddenPack
