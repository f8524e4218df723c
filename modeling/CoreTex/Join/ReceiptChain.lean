import CoreTex.Join.Join
import CoreTex.Lib.JsMap

/-!
# CoreTex.Join.ReceiptChain

Continuity of a rig's receipts (`receipt_chain.py`): the credits of both lanes replayed in chain
order against the next index and the last receipt hash that the chain reports.

The expected index starts again behind every entry that is out of place, so a replay reports one
problem for each fault. `replayAll_decides` says that nothing cancels out: no problem is reported
exactly when the chain is dense and ends at the anchor.
-/

namespace CoreTex.Join

open CoreTex.Lib

/-! ### The replay -/

/-- A credit of either lane. Its receipt hash is the text of a word, as `_word` decodes it. -/
structure CreditEvent extends CoreTexCreditAccepted where
  coretex : Bool
  hash_word : ∃ word : Bytes, word.length = 32 ∧ receiptHash = hexText word

/-- `ChainEntry`. -/
structure ChainEntry where
  rigId : Nat
  solveIndex : Nat
  receiptHash : PyStr
  epoch : Nat
  operator : PyStr
  coretex : Bool
  blockNumber : Option Nat
  logIndex : Option Nat
  transactionHash : Option PyStr
  deriving DecidableEq, Repr

/-- `ChainEntry.from_credit`. -/
def ChainEntry.fromCredit (credit : CreditEvent) : ChainEntry where
  rigId := credit.rigId
  solveIndex := credit.solveIndex
  receiptHash := credit.receiptHash
  epoch := credit.epoch
  operator := credit.operator
  coretex := credit.coretex
  blockNumber := credit.provenance.blockNumber
  logIndex := credit.provenance.logIndex
  transactionHash := credit.provenance.transactionHash

/-- `ZERO_HASH`. -/
def zeroHash : PyStr :=
  List.replicate 64 48

/-- An entry of `problems`. -/
inductive ChainProblem
  | solveIndex (index expected : Nat) (blockNumber logIndex : Option Nat)
  | incomplete (replayedNext chainNext : Nat)
  | hashMismatch (last chainLast : PyStr)
  deriving DecidableEq, Repr

def optionText : Option Nat → String
  | none => "None"
  | some n => toString n

def ChainProblem.text : ChainProblem → String
  | .solveIndex index expected blockNumber logIndex =>
    s!"solveIndex {index} where {expected} was due (block " ++ optionText blockNumber ++ ", log " ++
      optionText logIndex ++ ") — the chain is dense and zero-based, so this is a missing or " ++
      "duplicated receipt, not a gap in numbering"
  | .incomplete replayedNext chainNext =>
    s!"replayed rigNextIndex {replayedNext} != the chain's {chainNext}: this log scan is " ++
      "INCOMPLETE (a missing window), which is a different problem from a broken chain and " ++
      "needs a wider scan rather than an investigation"
  | .hashMismatch last chainLast =>
    "replayed rigLastReceiptHash " ++ Lib.text last ++ " != the chain's " ++ Lib.text chainLast

/-- `RigChainResult`. -/
structure RigChainResult where
  rigId : Nat
  ok : Bool
  entries : List ChainEntry
  replayedNextIndex : Nat
  replayedLastReceiptHash : PyStr
  chainNextIndex : Option Nat
  chainLastReceiptHash : Option PyStr
  complete : Option Bool
  problems : List ChainProblem
  deriving DecidableEq, Repr

/-- `_order_key`. -/
def orderKey (blockNumber logIndex : Option Nat) : Nat × Nat :=
  (blockNumber.getD 0, logIndex.getD 0)

/-- The order of two keys, as tuples compare. -/
def keyLe (a b : Nat × Nat) : Prop :=
  a.1 < b.1 ∨ a.1 = b.1 ∧ a.2 ≤ b.2

instance : DecidableRel keyLe := fun _ _ => inferInstanceAs (Decidable (_ ∨ _))

def ChainEntry.key (entry : ChainEntry) : Nat × Nat :=
  orderKey entry.blockNumber entry.logIndex

/-- The loop over the entries: the index that is due, the last hash and the problems. -/
def replayEntries : List ChainEntry → Nat → PyStr → Nat × PyStr × List ChainProblem
  | [], expected, lastHash => (expected, lastHash, [])
  | entry :: entries, expected, _ =>
    if entry.solveIndex ≠ expected then
      let (replayedNext, last, problems) :=
        replayEntries entries (entry.solveIndex + 1) entry.receiptHash
      (replayedNext, last,
        .solveIndex entry.solveIndex expected entry.blockNumber entry.logIndex :: problems)
    else replayEntries entries (expected + 1) entry.receiptHash

/-- `replay_rig_chain`. -/
def replayRigChain (rigId : Nat) (credits : List CreditEvent) (chainNextIndex : Option Nat)
    (chainLastReceiptHash : Option PyStr) (startIndex : Nat) : RigChainResult :=
  let entries := ((credits.filter fun credit => credit.rigId = rigId).map
    ChainEntry.fromCredit).mergeSort fun a b => decide (keyLe a.key b.key)
  let (replayedNext, lastHash, problems) :=
    replayEntries entries startIndex (if startIndex = 0 then zeroHash else [])
  let incomplete := match chainNextIndex with
    | some chainNext =>
      if replayedNext = chainNext then [] else [.incomplete replayedNext chainNext]
    | none => []
  let wrongHash := match chainLastReceiptHash with
    | some chainLast =>
      if lastHash ≠ [] ∧ lastHash ≠ chainLast then [.hashMismatch lastHash chainLast] else []
    | none => []
  let problems := problems ++ incomplete ++ wrongHash
  { rigId := rigId
    ok := problems.isEmpty
    entries := entries
    replayedNextIndex := replayedNext
    replayedLastReceiptHash := if lastHash = [] then zeroHash else lastHash
    chainNextIndex := chainNextIndex
    chainLastReceiptHash := chainLastReceiptHash
    complete := chainNextIndex.map fun chainNext => decide (replayedNext = chainNext)
    problems := problems }

/-- The reads of the chain at the observation block. -/
structure ChainViews where
  rigNextIndex : Nat → Nat
  rigLastReceiptHash : Nat → PyStr

/-- `by_rig`. -/
def groupByRig (credits : List CreditEvent) : JsMap Nat (List CreditEvent) :=
  credits.foldl (fun byRig credit =>
    byRig.set credit.rigId ((byRig.get credit.rigId).getD [] ++ [credit])) []

/-- `replay_all`. -/
def replayAll (coretexCredits standardCredits : List CreditEvent) (views : Option ChainViews)
    (startIndices : JsMap Nat Nat) : JsMap Nat RigChainResult :=
  ((groupByRig (coretexCredits ++ standardCredits)).mergeSort
    fun a b => decide (a.1 ≤ b.1)).map fun group =>
      (group.1, replayRigChain group.1 group.2 (views.map fun v => v.rigNextIndex group.1)
        (views.map fun v => v.rigLastReceiptHash group.1)
        ((startIndices.get group.1).getD 0))

/-! ### The entries in chain order -/

def CreditEvent.key (credit : CreditEvent) : Nat × Nat :=
  orderKey credit.provenance.blockNumber credit.provenance.logIndex

theorem keyLe_antisymm {a b : Nat × Nat} (hab : keyLe a b) (hba : keyLe b a) : a = b := by
  unfold keyLe at hab hba
  refine Prod.ext ?_ ?_ <;> omega

theorem keyLe_trans {a b c : Nat × Nat} (hab : keyLe a b) (hbc : keyLe b c) : keyLe a c := by
  unfold keyLe at hab hbc ⊢
  omega

theorem keyLe_total (a b : Nat × Nat) : keyLe a b ∨ keyLe b a := by
  unfold keyLe
  omega

/-- The entries of credits, as `replay_rig_chain` sorts them. -/
def sortedEntries (credits : List CreditEvent) : List ChainEntry :=
  (credits.map ChainEntry.fromCredit).mergeSort fun a b => decide (keyLe a.key b.key)

theorem pairwise_sortedEntries (credits : List CreditEvent) :
    (sortedEntries credits).Pairwise fun a b => keyLe a.key b.key := by
  have htrans : ∀ a b c : ChainEntry, decide (keyLe a.key b.key) = true →
      decide (keyLe b.key c.key) = true → decide (keyLe a.key c.key) = true :=
    fun a b c hab hbc =>
      decide_eq_true (keyLe_trans (of_decide_eq_true hab) (of_decide_eq_true hbc))
  have htotal : ∀ a b : ChainEntry,
      (decide (keyLe a.key b.key) || decide (keyLe b.key a.key)) = true := by
    intro a b
    rcases keyLe_total a.key b.key with h | h
    · rw [decide_eq_true h, Bool.true_or]
    · rw [decide_eq_true h, Bool.or_true]
  exact (List.pairwise_mergeSort htrans htotal _).imp of_decide_eq_true

/-- Positions that are distinct leave one order. -/
theorem entries_unique {credits : List CreditEvent} {a b : List ChainEntry}
    (ha : a.Perm (credits.map ChainEntry.fromCredit))
    (hb : b.Perm (credits.map ChainEntry.fromCredit))
    (haorder : a.Pairwise fun x y => keyLe x.key y.key)
    (hborder : b.Pairwise fun x y => keyLe x.key y.key)
    (hnodup : (credits.map CreditEvent.key).Nodup) : a = b := by
  refine List.Perm.eq_of_pairwise ?_ haorder hborder (ha.trans hb.symm)
  intro x y hx hy hxy hyx
  -- entries at one position come from one credit
  obtain ⟨credit, hcredit, rfl⟩ := List.mem_map.mp (ha.mem_iff.mp hx)
  obtain ⟨credit', hcredit', rfl⟩ := List.mem_map.mp (hb.mem_iff.mp hy)
  have hkey : credit.key = credit'.key := keyLe_antisymm hxy hyx
  rw [List.inj_on_of_nodup_map hnodup hcredit hcredit' hkey]

theorem sortedEntries_eq {credits chain : List CreditEvent} (hperm : chain.Perm credits)
    (horder : chain.Pairwise fun a b => keyLe a.key b.key)
    (hnodup : (credits.map CreditEvent.key).Nodup) :
    sortedEntries credits = chain.map ChainEntry.fromCredit :=
  entries_unique (List.mergeSort_perm _ _) (hperm.map _) (pairwise_sortedEntries credits)
    (List.pairwise_map.mpr horder) hnodup

theorem sortedEntries_perm {credits credits' : List CreditEvent} (hperm : credits'.Perm credits)
    (hnodup : (credits.map CreditEvent.key).Nodup) :
    sortedEntries credits' = sortedEntries credits :=
  entries_unique ((List.mergeSort_perm _ _).trans (hperm.map _)) (List.mergeSort_perm _ _)
    (pairwise_sortedEntries credits') (pairwise_sortedEntries credits) hnodup

/-! ### One rig -/

/-- The loop finds no problem exactly in indices that count up from the one that was due. -/
theorem replayEntries_problems (entries : List ChainEntry) (expected : Nat) (lastHash : PyStr) :
    (replayEntries entries expected lastHash).2.2 = [] ↔
      entries.map ChainEntry.solveIndex = List.range' expected entries.length := by
  induction entries generalizing expected lastHash with
  | nil => simp [replayEntries]
  | cons entry entries ih =>
      rw [replayEntries, List.map_cons, List.length_cons, List.range'_succ, List.cons.injEq]
      by_cases hindex : entry.solveIndex = expected
      · rw [if_neg (not_not.mpr hindex), ih]
        exact ⟨fun h => ⟨hindex, h⟩, fun h => h.2⟩
      · rw [if_pos hindex]
        exact ⟨fun h => (nomatch h), fun h => absurd h.1 hindex⟩

theorem replayEntries_next {entries : List ChainEntry} {expected : Nat} {lastHash : PyStr}
    (h : entries.map ChainEntry.solveIndex = List.range' expected entries.length) :
    (replayEntries entries expected lastHash).1 = expected + entries.length := by
  induction entries generalizing expected lastHash with
  | nil => rfl
  | cons entry entries ih =>
      rw [List.map_cons, List.length_cons, List.range'_succ, List.cons.injEq] at h
      rw [replayEntries, if_neg (not_not.mpr h.1), ih h.2, List.length_cons]
      omega

/-- Whatever is out of place, the last hash is that of the last entry. -/
theorem replayEntries_last (entries : List ChainEntry) (expected : Nat) (lastHash : PyStr) :
    (replayEntries entries expected lastHash).2.1 =
      ((entries.getLast?.map ChainEntry.receiptHash).getD lastHash) := by
  induction entries generalizing expected lastHash with
  | nil => rfl
  | cons entry entries ih =>
      rw [replayEntries, List.getLast?_cons]
      split
      · show (replayEntries entries _ _).2.1 = _
        rw [ih]
        cases entries.getLast? <;> rfl
      · rw [ih]
        cases entries.getLast? <;> rfl

/-- A receipt hash is not empty. -/
theorem CreditEvent.receiptHash_ne_nil (credit : CreditEvent) : credit.receiptHash ≠ [] := by
  obtain ⟨word, hword, hhash⟩ := credit.hash_word
  intro hnil
  have hlength : (hexText word).length = 64 := by
    rw [hexText, List.length_map, length_hexChars, hword]
  rw [← hhash, hnil] at hlength
  cases hlength

/-- What the credits of a rig in chain order should be. -/
def DenseChain (chain : List CreditEvent) (chainNext : Nat) (chainLast : PyStr) : Prop :=
  (chain.map fun credit => credit.solveIndex) = List.range chain.length ∧
    chainNext = chain.length ∧
      (chain.getLast?.map fun credit => credit.receiptHash) = some chainLast

theorem replayRigChain_ok {rigId : Nat} {credits chain : List CreditEvent} (hne : chain ≠ [])
    (hperm : chain.Perm (credits.filter fun credit => credit.rigId = rigId))
    (horder : chain.Pairwise fun a b => keyLe a.key b.key)
    (hnodup : ((credits.filter fun credit => credit.rigId = rigId).map CreditEvent.key).Nodup)
    (chainNext : Nat) (chainLast : PyStr) :
    (replayRigChain rigId credits (some chainNext) (some chainLast) 0).ok = true ↔
      DenseChain chain chainNext chainLast := by
  have hentries := sortedEntries_eq hperm horder hnodup
  -- the last credit, and the hash the loop ends with
  obtain ⟨last, hlast⟩ : ∃ last, chain.getLast? = some last :=
    ⟨_, List.getLast?_eq_some_getLast hne⟩
  have hhash : (replayEntries (chain.map ChainEntry.fromCredit) 0 zeroHash).2.1 =
      last.receiptHash := by
    rw [replayEntries_last, List.getLast?_map, hlast]
    rfl
  have hindices : (chain.map ChainEntry.fromCredit).map ChainEntry.solveIndex =
      chain.map fun credit => credit.solveIndex := by
    rw [List.map_map]
    rfl
  have hproblems := replayEntries_problems (chain.map ChainEntry.fromCredit) 0 zeroHash
  rw [hindices, List.length_map, ← List.range_eq_range'] at hproblems
  have hnext : (chain.map fun credit => credit.solveIndex) = List.range chain.length →
      (replayEntries (chain.map ChainEntry.fromCredit) 0 zeroHash).1 = chain.length := by
    intro hdense
    rw [replayEntries_next, List.length_map, Nat.zero_add]
    rw [hindices, hdense, List.length_map, List.range_eq_range']
  unfold replayRigChain DenseChain
  rw [sortedEntries] at hentries
  dsimp only
  rw [hentries, if_pos rfl, List.isEmpty_iff, List.append_eq_nil_iff, List.append_eq_nil_iff,
    hproblems, hhash, hlast, Option.map_some, Option.some.injEq]
  constructor
  · intro ⟨⟨hdense, hcount⟩, hanchor⟩
    rw [hnext hdense] at hcount
    refine ⟨hdense, ?_, ?_⟩
    · by_contra hne
      rw [if_neg fun heq => hne heq.symm] at hcount
      cases hcount
    · by_contra hne
      rw [if_pos ⟨last.receiptHash_ne_nil, hne⟩] at hanchor
      cases hanchor
  · intro ⟨hdense, hcount, hanchor⟩
    rw [hnext hdense, if_pos hcount.symm, if_neg fun h => h.2 hanchor]
    exact ⟨⟨hdense, rfl⟩, rfl⟩

/-! ### All rigs -/

theorem get_groupByRig (credits : List CreditEvent) (rigId : Nat) :
    (groupByRig credits).get rigId =
      if (credits.filter fun credit => credit.rigId = rigId) = [] then none
      else some (credits.filter fun credit => credit.rigId = rigId) := by
  have hfold : ∀ byRig : JsMap Nat (List CreditEvent), (credits.foldl (fun byRig credit =>
      byRig.set credit.rigId ((byRig.get credit.rigId).getD [] ++ [credit])) byRig).get rigId =
        if (credits.filter fun credit => credit.rigId = rigId) = [] then byRig.get rigId
        else some ((byRig.get rigId).getD [] ++
          credits.filter fun credit => credit.rigId = rigId) := by
    induction credits with
    | nil => simp
    | cons credit credits ih =>
        intro byRig
        rw [List.foldl_cons, ih, JsMap.get_set]
        by_cases hrig : credit.rigId = rigId
        · have hkeep : ((credit :: credits).filter fun credit => credit.rigId = rigId) =
              credit :: credits.filter fun credit => credit.rigId = rigId :=
            List.filter_cons_of_pos (decide_eq_true hrig)
          rw [if_pos hrig, hkeep, hrig, if_neg (List.cons_ne_nil _ _)]
          split
          next hnil => rw [hnil]
          next => rw [Option.getD_some, List.append_assoc, List.singleton_append]
        · rw [if_neg hrig, List.filter_cons_of_neg (by simp [hrig])]
  rw [groupByRig, hfold]
  simp

/-- `set` keeps the keys of a map distinct. -/
theorem nodup_groupByRig (credits : List CreditEvent) :
    ((groupByRig credits).map Prod.fst).Nodup := by
  have hfold : ∀ byRig : JsMap Nat (List CreditEvent), (byRig.map Prod.fst).Nodup →
      ((credits.foldl (fun byRig credit =>
        byRig.set credit.rigId ((byRig.get credit.rigId).getD [] ++ [credit])) byRig).map
          Prod.fst).Nodup := by
    induction credits with
    | nil => exact fun _ h => h
    | cons credit credits ih => exact fun byRig h => ih _ (JsMap.nodup_keys_set h _ _)
  exact hfold [] List.nodup_nil

theorem get_replayAll (coretexCredits standardCredits : List CreditEvent)
    (views : Option ChainViews) (startIndices : JsMap Nat Nat) (rigId : Nat) :
    (replayAll coretexCredits standardCredits views startIndices).get rigId =
      ((groupByRig (coretexCredits ++ standardCredits)).get rigId).map fun credits =>
        replayRigChain rigId credits (views.map fun v => v.rigNextIndex rigId)
          (views.map fun v => v.rigLastReceiptHash rigId) ((startIndices.get rigId).getD 0) := by
  rw [← JsMap.get_perm (List.mergeSort_perm _ _) (nodup_groupByRig _)]
  exact JsMap.get_map_values _ (fun rigId credits => replayRigChain rigId credits
    (views.map fun v => v.rigNextIndex rigId) (views.map fun v => v.rigLastReceiptHash rigId)
    ((startIndices.get rigId).getD 0)) rigId

/-- **A replay decides whether a rig's chain is dense.** The credits come in any order and at
distinct positions; `chain` is those of the rig in chain order, and `coretexCredits'` and
`standardCredits'` is any other scan with the same credits of the rig. -/
theorem replayAll_decides (coretexCredits standardCredits : List CreditEvent) (views : ChainViews)
    (startIndices : JsMap Nat Nat)
    (hnodup : ((coretexCredits ++ standardCredits).map CreditEvent.key).Nodup) {rigId : Nat}
    (hrig : ∃ credit ∈ coretexCredits ++ standardCredits, credit.rigId = rigId)
    (hstart : (startIndices.get rigId).getD 0 = 0) :
    ∃ result, (replayAll coretexCredits standardCredits (some views) startIndices).get rigId =
        some result ∧
      (∀ chain : List CreditEvent,
        chain.Perm ((coretexCredits ++ standardCredits).filter fun c => c.rigId = rigId) →
        (chain.Pairwise fun a b => keyLe a.key b.key) →
        (result.ok = true ↔
          DenseChain chain (views.rigNextIndex rigId) (views.rigLastReceiptHash rigId))) ∧
      (result.complete = some true ↔ result.replayedNextIndex = views.rigNextIndex rigId) ∧
      ∀ coretexCredits' standardCredits' : List CreditEvent,
        ((coretexCredits' ++ standardCredits').filter fun c => c.rigId = rigId).Perm
          ((coretexCredits ++ standardCredits).filter fun c => c.rigId = rigId) →
        (replayAll coretexCredits' standardCredits' (some views) startIndices).get rigId =
          some result := by
  have hne : ((coretexCredits ++ standardCredits).filter fun c => c.rigId = rigId) ≠ [] := by
    obtain ⟨credit, hcredit, hid⟩ := hrig
    exact List.ne_nil_of_mem (List.mem_filter.mpr ⟨hcredit, decide_eq_true hid⟩)
  have hfilter : (((coretexCredits ++ standardCredits).filter fun c => c.rigId = rigId).map
      CreditEvent.key).Nodup := hnodup.sublist (List.filter_sublist.map _)
  refine ⟨replayRigChain rigId ((coretexCredits ++ standardCredits).filter fun c => c.rigId = rigId)
    (some (views.rigNextIndex rigId)) (some (views.rigLastReceiptHash rigId)) 0, ?_, ?_, ?_, ?_⟩
  · rw [get_replayAll, get_groupByRig, if_neg hne, hstart]
    rfl
  · intro chain hperm horder
    have hchain : chain ≠ [] := by
      intro hnil
      rw [hnil] at hperm
      exact hne hperm.symm.eq_nil
    have hown : ((coretexCredits ++ standardCredits).filter fun c => c.rigId = rigId).filter
        (fun c => c.rigId = rigId) =
          (coretexCredits ++ standardCredits).filter fun c => c.rigId = rigId := by
      rw [List.filter_filter]
      simp
    exact replayRigChain_ok hchain (hown.symm ▸ hperm) horder (hown.symm ▸ hfilter) _ _
  · simp only [replayRigChain, Option.map_some, Option.some.injEq, decide_eq_true_eq]
  · intro coretexCredits' standardCredits' hperm
    have hne' : ((coretexCredits' ++ standardCredits').filter fun c => c.rigId = rigId) ≠ [] := by
      intro hnil
      rw [hnil] at hperm
      exact hne hperm.symm.eq_nil
    rw [get_replayAll, get_groupByRig, if_neg hne', hstart]
    have hsame := sortedEntries_perm (hperm.filter fun c => decide (c.rigId = rigId))
      (hfilter.sublist (List.filter_sublist.map _))
    rw [sortedEntries, sortedEntries] at hsame
    rw [Option.map_some, replayRigChain, hsame]
    rfl

/-- A receipt of rig 7 in block `solveIndex`. -/
def chainCredit (solveIndex : Nat) (coretex : Bool) : CreditEvent where
  epoch := 1
  rigId := 7
  operator := []
  solveIndex := solveIndex
  receiptHash := hexText (List.replicate 32 (UInt8.ofNat solveIndex))
  challengeId := []
  workUnitsBps := 0
  creditsEarned := 0
  provenance := ⟨none, some solveIndex, some 0, none, none, false⟩
  coretex := coretex
  hash_word := ⟨_, List.length_replicate, rfl⟩

def chainViews : ChainViews where
  rigNextIndex _ := 2
  rigLastReceiptHash _ := hexText (List.replicate 32 1)

/-- A chain over both lanes, scanned out of order, ends at its anchor. -/
theorem replayAll_decides_sample : ∃ result,
    (replayAll [chainCredit 1 true] [chainCredit 0 false] (some chainViews) []).get 7 =
      some result ∧ result.ok = true := by
  obtain ⟨result, hresult, hok, -⟩ := replayAll_decides [chainCredit 1 true] [chainCredit 0 false]
    chainViews [] (by decide) ⟨chainCredit 1 true, by simp, rfl⟩ rfl
  refine ⟨result, hresult, (hok [chainCredit 0 false, chainCredit 1 true] ?_ ?_).mpr ?_⟩
  · exact List.Perm.swap _ _ _
  · refine List.pairwise_pair.mpr ?_
    decide
  · exact ⟨by decide, rfl, rfl⟩

end CoreTex.Join
