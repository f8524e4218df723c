import CoreTex.Join.Escape

/-!
# CoreTex.Join.Accounting

Which scans the join gets through, and what it answers for them.

Once it returns, every event stands in exactly one entry and every transaction has the outcome
it has alone (`joinAll_accounted`, `joinAll_isolated`); it returns exactly when no two advances
share a join key and no transaction meets a step that escapes (`joinAll_ok_iff`).
-/

namespace CoreTex.Join

open CoreTex.Lib

variable (keccak256 : Bytes → Digest)

/-! ### When a transaction gets through -/

/-- An advance with its credit: the callables answer, text that step 3 reads is hex, and a
receipt that passes steps 2 to 7 passes step 8. -/
structure PairSound (ctx : JoinContext) (tx : PyStr) (advance : StateAdvanced)
    (credit : CoreTexCreditAccepted) : Prop where
  answers : ∃ calldata, evalLookup (ctx.calldataFor tx) = .ok calldata
  signer : ∃ signer, ctx.coordinatorSigner.signerFor credit.provenance = .ok signer
  readable : ∀ calldata, evalLookup (ctx.calldataFor tx) = .ok calldata →
    checkCredit advance credit = .ok () → IsReadable calldata
  descriptor : ∀ calldata signer receipt, evalLookup (ctx.calldataFor tx) = .ok calldata →
    ctx.coordinatorSigner.signerFor credit.provenance = .ok signer →
    AdvanceBound keccak256 ctx.domainSeparator ctx.verifySignature advance credit calldata
      signer receipt → DescriptorSound keccak256 advance receipt

/-- A credit alone: the lookup answers hex text, the signer answers when it is asked, and a
receipt that binds the credit keeps the screener's discipline. -/
structure ScreenerSound (ctx : JoinContext) (tx : PyStr) (credit : CoreTexCreditAccepted) :
    Prop where
  readable : ∃ calldata, evalLookup (ctx.calldataFor tx) = .ok calldata ∧ IsReadable calldata
  signer : ∀ calldata, evalLookup (ctx.calldataFor tx) = .ok calldata →
    SignerAnswers keccak256 ctx.domainSeparator ctx.verifySignature credit calldata
      ctx.coordinatorSigner
  discipline : ∀ calldata receipt, evalLookup (ctx.calldataFor tx) = .ok calldata →
    ScreenerBound keccak256 ctx.domainSeparator ctx.verifySignature credit calldata
      ctx.coordinatorSigner receipt → screenerDiscipline receipt = .ok (.ok ())

/-- What a transaction has to meet; only single credits are joined. -/
def GroupSound (ctx : JoinContext) (tx : PyStr) :
    List StateAdvanced → List CoreTexCreditAccepted → Prop
  | [], [credit] => ScreenerSound keccak256 ctx tx credit
  | [advance], [credit] => PairSound keccak256 ctx tx advance credit
  | _, _ => True

def DecodedLogs.advancesOf (decoded : DecodedLogs) (tx : PyStr) : List StateAdvanced :=
  decoded.advances.filter (·.provenance.tx = tx)

def DecodedLogs.creditsOf (decoded : DecodedLogs) (tx : PyStr) : List CoreTexCreditAccepted :=
  decoded.coretexCredits.filter (·.provenance.tx = tx)

/-- The scans the join gets through. -/
structure ScanSound (ctx : JoinContext) (decoded : DecodedLogs) : Prop where
  keys : (decoded.advances.map StateAdvanced.joinKey).Nodup
  groups : ∀ tx, GroupSound keccak256 ctx tx (decoded.advancesOf tx) (decoded.creditsOf tx)

theorem exceptJoinError_ok_iff {α : Type} {attempt : Except PyExc α} {entry : α → Entry}
    {unresolved : JoinError → Unresolved} :
    (∃ e, exceptJoinError attempt entry unresolved = .ok e) ↔ FailsWith PyExc.IsJoin attempt := by
  cases attempt with
  | ok a => exact iff_of_true ⟨_, rfl⟩ (ok_failsWith a)
  | error exc =>
      cases exc with
      | join e => exact iff_of_true ⟨_, rfl⟩ (joinError_failsWith e.code e.message)
      | _ =>
          refine iff_of_false ?_ (not_failsWith rfl id)
          rintro ⟨e, he⟩
          cases he

theorem singleton_ok_iff {x : Except PyExc Entry} :
    (∃ entries, (do let entry ← x; .ok [entry] : Except PyExc (List Entry)) = .ok entries) ↔
      ∃ e, x = .ok e := by
  cases x with
  | ok e => exact iff_of_true ⟨[e], rfl⟩ ⟨e, rfl⟩
  | error exc => exact iff_of_false (by rintro ⟨_, h⟩; cases h) (by rintro ⟨_, h⟩; cases h)

theorem callerRaised_not_failsWith {α : Type} {x : Except PyExc α}
    (h : ∀ e, x = .error e → e = .callerRaised) :
    FailsWith PyExc.IsJoin x ↔ ∃ a, x = .ok a := by
  cases x with
  | ok a => exact iff_of_true (ok_failsWith a) ⟨a, rfl⟩
  | error e =>
      obtain rfl := h e rfl
      exact iff_of_false (not_failsWith rfl id) (by rintro ⟨_, h⟩; cases h)

theorem evalLookup_failsWith_iff (lookup : Lookup) :
    FailsWith PyExc.IsJoin (evalLookup lookup) ↔
      ∃ calldata, evalLookup lookup = .ok calldata := by
  refine callerRaised_not_failsWith fun e he => ?_
  cases lookup <;> cases he
  rfl

theorem signerFor_failsWith_iff (signer : CoordinatorSigner) (provenance : LogProvenance) :
    FailsWith PyExc.IsJoin (signer.signerFor provenance) ↔
      ∃ s, signer.signerFor provenance = .ok s := by
  refine callerRaised_not_failsWith fun e he => ?_
  cases signer with
  | address s => cases he
  | callable f =>
      rw [CoordinatorSigner.signerFor] at he
      split at he
      · cases he
      · exact (Except.error.inj he).symm

theorem joinGroup_ok_iff {ctx : JoinContext} {tx : PyStr} {advances : List StateAdvanced}
    {credits : List CoreTexCreditAccepted} :
    (∃ entries, joinGroup keccak256 ctx tx advances credits = .ok entries) ↔
      GroupSound keccak256 ctx tx advances credits := by
  rcases credits with _ | ⟨credit, _ | ⟨credit', credits⟩⟩
  · refine iff_of_true ⟨_, by rw [joinGroup]⟩ ?_
    rcases advances with _ | ⟨advance, _ | ⟨advance', advances⟩⟩ <;> trivial
  · rcases advances with _ | ⟨advance, _ | ⟨advance', advances⟩⟩
    · rw [joinGroup, singleton_ok_iff, exceptJoinError_ok_iff, failsWith_bind_iff,
        evalLookup_failsWith_iff]
      simp only [joinScreener_failsWith_iff]
      constructor
      · rintro ⟨⟨calldata, hc⟩, h⟩
        exact ⟨⟨calldata, hc, (h calldata hc).1⟩, fun c hc' => (h c hc').2.1,
          fun c receipt hc' => (h c hc').2.2 receipt⟩
      · intro h
        obtain ⟨calldata, hc, hread⟩ := h.readable
        refine ⟨⟨calldata, hc⟩, fun c hc' => ?_⟩
        rw [hc, Except.ok.injEq] at hc'
        subst hc'
        exact ⟨hread, h.signer calldata hc, fun receipt => h.discipline calldata receipt hc⟩
    · rw [joinGroup, singleton_ok_iff, exceptJoinError_ok_iff, failsWith_bind_iff,
        evalLookup_failsWith_iff]
      simp only [failsWith_bind_iff, signerFor_failsWith_iff, joinAdvance_failsWith_iff]
      constructor
      · rintro ⟨⟨calldata, hc⟩, h⟩
        obtain ⟨⟨signer, hs⟩, hrest⟩ := h calldata hc
        exact ⟨⟨calldata, hc⟩, ⟨signer, hs⟩, fun c hc' => ((h c hc').2 signer hs).1,
          fun c s receipt hc' hs' => ((h c hc').2 s hs').2 receipt⟩
      · intro h
        exact ⟨h.answers, fun c hc => ⟨h.signer, fun s hs =>
          ⟨h.readable c hc, fun receipt => h.descriptor c s receipt hc hs⟩⟩⟩
    · exact iff_of_true ⟨_, rfl⟩ trivial
  · refine iff_of_true ?_ ?_
    · rcases advances with _ | ⟨advance, _ | ⟨advance', advances⟩⟩ <;> exact ⟨_, rfl⟩
    · rcases advances with _ | ⟨advance, _ | ⟨advance', advances⟩⟩ <;> trivial

/-! ### The key report -/

theorem indexAdvances_ok_iff {advances : List StateAdvanced} {out : List (Nat × PyStr × PyStr)} :
    (∃ keys, indexAdvances advances out = .ok keys) ↔
      (advances.map StateAdvanced.joinKey).Nodup ∧
        ∀ advance ∈ advances, advance.joinKey ∉ out := by
  induction advances generalizing out with
  | nil => exact iff_of_true ⟨out, rfl⟩ ⟨List.nodup_nil, by simp⟩
  | cons advance advances ih =>
      rw [indexAdvances, List.map_cons, List.nodup_cons, List.forall_mem_cons]
      by_cases hmem : advance.joinKey ∈ out
      · rw [if_pos hmem]
        refine iff_of_false ?_ fun h => h.2.1 hmem
        rintro ⟨keys, h⟩
        cases h
      · rw [if_neg hmem, ih]
        constructor
        · rintro ⟨hnodup, hout⟩
          refine ⟨⟨fun h => ?_, hnodup⟩, hmem, fun a ha h => hout a ha (by simp [h])⟩
          obtain ⟨a, ha, heq⟩ := List.mem_map.mp h
          exact hout a ha (by simp [heq])
        · rintro ⟨⟨hnew, hnodup⟩, -, hout⟩
          refine ⟨hnodup, fun a ha h => ?_⟩
          rcases List.mem_append.mp h with h | h
          · exact hout a ha h
          · exact hnew (List.mem_map.mpr ⟨a, ha, List.mem_singleton.mp h⟩)

theorem assertKeyIsPatchKeyed_ok_iff {advances : List StateAdvanced} :
    (∃ report, assertKeyIsPatchKeyed advances = .ok report) ↔
      (advances.map StateAdvanced.joinKey).Nodup := by
  have hindex := @indexAdvances_ok_iff advances []
  simp only [List.not_mem_nil, not_false_eq_true, implies_true, and_true] at hindex
  rw [← hindex]
  constructor
  · rintro ⟨report, h⟩
    obtain ⟨keys, hkeys, -⟩ := bind_eq_ok.mp h
    exact ⟨keys, hkeys⟩
  · rintro ⟨keys, hkeys⟩
    exact ⟨_, by rw [assertKeyIsPatchKeyed, hkeys, ok_bind]⟩

/-! ### The loop over transactions -/

/-- The entries of one group, where it gets through. -/
def groupEntries (ctx : JoinContext)
    (group : PyStr × List StateAdvanced × List CoreTexCreditAccepted) : List Entry :=
  match joinGroup keccak256 ctx group.1 group.2.1 group.2.2 with
  | .ok entries => entries
  | .error _ => []

theorem groupEntries_of_ok {ctx : JoinContext}
    {group : PyStr × List StateAdvanced × List CoreTexCreditAccepted} {entries : List Entry}
    (h : joinGroup keccak256 ctx group.1 group.2.1 group.2.2 = .ok entries) :
    groupEntries keccak256 ctx group = entries := by
  rw [groupEntries, h]

/-- The loop gets through when every group does, and lists their entries in turn. -/
theorem joinGroups_eq_ok {ctx : JoinContext}
    {groups : List (PyStr × List StateAdvanced × List CoreTexCreditAccepted)}
    {entries : List Entry} :
    joinGroups keccak256 ctx groups = .ok entries ↔
      (∀ g ∈ groups, ∃ es, joinGroup keccak256 ctx g.1 g.2.1 g.2.2 = .ok es) ∧
        entries = groups.flatMap (groupEntries keccak256 ctx) := by
  induction groups generalizing entries with
  | nil => simp [joinGroups, eq_comm]
  | cons g groups ih =>
      rw [joinGroups, bind_eq_ok, List.forall_mem_cons, List.flatMap_cons]
      constructor
      · rintro ⟨es, hes, h⟩
        obtain ⟨rest, hrest, h⟩ := bind_eq_ok.mp h
        cases h
        obtain ⟨hall, rfl⟩ := ih.mp hrest
        exact ⟨⟨⟨es, hes⟩, hall⟩, by rw [groupEntries_of_ok keccak256 hes]⟩
      · rintro ⟨⟨⟨es, hes⟩, hall⟩, rfl⟩
        exact ⟨es, hes, by rw [ih.mpr ⟨hall, rfl⟩, ok_bind, groupEntries_of_ok keccak256 hes]⟩

/-- The transactions of a scan. -/
def DecodedLogs.txs (decoded : DecodedLogs) : List PyStr :=
  (decoded.advances.map (·.provenance.tx) ++ decoded.coretexCredits.map (·.provenance.tx)).dedup

/-- The group of one transaction. -/
def DecodedLogs.group (decoded : DecodedLogs) (tx : PyStr) :
    PyStr × List StateAdvanced × List CoreTexCreditAccepted :=
  (tx, decoded.advancesOf tx, decoded.creditsOf tx)

theorem byTx_perm (decoded : DecodedLogs) :
    decoded.byTx.Perm (decoded.txs.map decoded.group) :=
  sortPairs_perm _

theorem mem_byTx {decoded : DecodedLogs}
    {g : PyStr × List StateAdvanced × List CoreTexCreditAccepted} :
    g ∈ decoded.byTx ↔ g.1 ∈ decoded.txs ∧ g = decoded.group g.1 := by
  rw [(byTx_perm decoded).mem_iff, List.mem_map]
  constructor
  · rintro ⟨tx, htx, rfl⟩
    exact ⟨htx, rfl⟩
  · rintro ⟨htx, heq⟩
    exact ⟨g.1, htx, heq.symm⟩

/-- A transaction is one of the scan when it has an event there. -/
theorem not_mem_txs_iff {decoded : DecodedLogs} {tx : PyStr} :
    tx ∉ decoded.txs ↔ decoded.advancesOf tx = [] ∧ decoded.creditsOf tx = [] := by
  rw [DecodedLogs.txs, List.mem_dedup, List.mem_append, not_or, DecodedLogs.advancesOf,
    DecodedLogs.creditsOf, List.filter_eq_nil_iff, List.filter_eq_nil_iff]
  simp only [List.mem_map, not_exists, not_and, decide_eq_true_eq]

/-- **When the join returns.** -/
theorem joinAll_ok_iff {ctx : JoinContext} {decoded : DecodedLogs} :
    (∃ result, joinAll keccak256 ctx decoded = .ok result) ↔ ScanSound keccak256 ctx decoded := by
  constructor
  · rintro ⟨result, h⟩
    obtain ⟨entries, hentries, h⟩ := bind_eq_ok.mp h
    obtain ⟨report, hreport, -⟩ := bind_eq_ok.mp h
    refine ⟨assertKeyIsPatchKeyed_ok_iff.mp ⟨report, hreport⟩, fun tx => ?_⟩
    by_cases htx : tx ∈ decoded.txs
    · have hgroup := ((joinGroups_eq_ok keccak256).mp hentries).1 (decoded.group tx)
        (mem_byTx.mpr ⟨htx, rfl⟩)
      exact (joinGroup_ok_iff keccak256).mp hgroup
    · obtain ⟨hadvances, hcredits⟩ := not_mem_txs_iff.mp htx
      rw [hadvances, hcredits]
      trivial
  · rintro ⟨hkeys, hgroups⟩
    obtain ⟨report, hreport⟩ := assertKeyIsPatchKeyed_ok_iff.mpr hkeys
    have hentries := (@joinGroups_eq_ok keccak256 ctx decoded.byTx _).mpr
      ⟨fun g hg => (joinGroup_ok_iff keccak256).mpr ?_, rfl⟩
    · exact ⟨_, by rw [joinAll, hentries, ok_bind, hreport, ok_bind]⟩
    · obtain ⟨-, heq⟩ := mem_byTx.mp hg
      rw [heq]
      exact hgroups g.1

/-! ### What the entries stand for -/

/-- All entries of a result. -/
def JoinResult.entries (result : JoinResult) : List Entry :=
  result.transitions.map .transition ++ result.screenerPasses.map .screenerPass ++
    result.unresolved.map .unresolved

/-- The transaction of an entry. -/
def Entry.tx : Entry → PyStr
  | .transition joined => joined.transactionHash
  | .screenerPass pass => pass.credit.provenance.tx
  | .unresolved entry => entry.transactionHash

/-- The advances and the credits an entry stands for. -/
inductive Entry.StandsFor : Entry → List StateAdvanced → List CoreTexCreditAccepted → Prop
  | transition (joined : JoinedTransition)
      (htx : joined.transactionHash = joined.advance.provenance.tx)
      (hcredit : joined.credit.provenance.tx = joined.advance.provenance.tx) :
      StandsFor (.transition joined) [joined.advance] [joined.credit]
  | screenerPass (pass : ScreenerPass) : StandsFor (.screenerPass pass) [] [pass.credit]
  | missingCredit (advance : StateAdvanced) :
      StandsFor (.unresolved (missingCredit advance.provenance.tx advance)) [advance] []
  | failedScreener (credit : CoreTexCreditAccepted) (e : JoinError) :
      StandsFor (.unresolved (failedScreener credit.provenance.tx credit e)) [] [credit]
  | failedAdvance (advance : StateAdvanced) (credit : CoreTexCreditAccepted) (e : JoinError)
      (htx : credit.provenance.tx = advance.provenance.tx) :
      StandsFor (.unresolved (failedAdvance advance.provenance.tx advance e)) [advance] [credit]
  | ambiguous (tx : PyStr) (advances : List StateAdvanced) (credits : List CoreTexCreditAccepted)
      (hadvances : ∀ a ∈ advances, a.provenance.tx = tx)
      (hcredits : ∀ c ∈ credits, c.provenance.tx = tx) :
      StandsFor (.unresolved (ambiguous tx advances.length credits.length)) advances credits

/-- The entries can be paired with events so that each stands for its own, and together they
stand for all of them once. -/
def Accounts (entries : List Entry) (advances : List StateAdvanced)
    (credits : List CoreTexCreditAccepted) : Prop :=
  ∃ parts : List (Entry × List StateAdvanced × List CoreTexCreditAccepted),
    (∀ p ∈ parts, p.1.StandsFor p.2.1 p.2.2) ∧ (parts.map Prod.fst).Perm entries ∧
      (parts.flatMap fun p => p.2.1).Perm advances ∧ (parts.flatMap fun p => p.2.2).Perm credits

theorem Accounts.nil : Accounts [] [] [] :=
  ⟨[], by simp, .nil, .nil, .nil⟩

theorem Accounts.single {entry : Entry} {advances : List StateAdvanced}
    {credits : List CoreTexCreditAccepted} (h : entry.StandsFor advances credits) :
    Accounts [entry] advances credits :=
  ⟨[(entry, advances, credits)], by simpa using h, by simp, by simp, by simp⟩

theorem Accounts.append {e₁ e₂ : List Entry} {a₁ a₂ : List StateAdvanced}
    {c₁ c₂ : List CoreTexCreditAccepted} (h₁ : Accounts e₁ a₁ c₁) (h₂ : Accounts e₂ a₂ c₂) :
    Accounts (e₁ ++ e₂) (a₁ ++ a₂) (c₁ ++ c₂) := by
  obtain ⟨p₁, hs₁, he₁, ha₁, hc₁⟩ := h₁
  obtain ⟨p₂, hs₂, he₂, ha₂, hc₂⟩ := h₂
  refine ⟨p₁ ++ p₂, ?_, ?_, ?_, ?_⟩
  · intro p hp
    rcases List.mem_append.mp hp with hp | hp
    · exact hs₁ p hp
    · exact hs₂ p hp
  · rw [List.map_append]
    exact he₁.append he₂
  · rw [List.flatMap_append]
    exact ha₁.append ha₂
  · rw [List.flatMap_append]
    exact hc₁.append hc₂

theorem Accounts.perm {e e' : List Entry} {a a' : List StateAdvanced}
    {c c' : List CoreTexCreditAccepted} (h : Accounts e a c) (he : e.Perm e') (ha : a.Perm a')
    (hc : c.Perm c') : Accounts e' a' c' := by
  obtain ⟨parts, hs, hpe, hpa, hpc⟩ := h
  exact ⟨parts, hs, hpe.trans he, hpa.trans ha, hpc.trans hc⟩

theorem accounts_missing {tx : PyStr} {advances : List StateAdvanced}
    (h : ∀ a ∈ advances, a.provenance.tx = tx) :
    Accounts (advances.map fun a => .unresolved (missingCredit tx a)) advances [] := by
  induction advances with
  | nil => exact .nil
  | cons a advances ih =>
      have ha : a.provenance.tx = tx := h a (by simp)
      exact (Accounts.single (ha ▸ Entry.StandsFor.missingCredit a)).append
        (ih fun a' ha' => h a' (by simp [ha']))

theorem exceptJoinError_eq_ok {α : Type} {attempt : Except PyExc α} {entry : α → Entry}
    {unresolved : JoinError → Unresolved} {e : Entry}
    (h : exceptJoinError attempt entry unresolved = .ok e) :
    (∃ a, attempt = .ok a ∧ e = entry a) ∨ ∃ exc, e = .unresolved (unresolved exc) := by
  cases attempt with
  | ok a => exact .inl ⟨a, rfl, (Except.ok.inj h).symm⟩
  | error exc =>
      cases exc with
      | join e' => exact .inr ⟨e', (Except.ok.inj h).symm⟩
      | _ => cases h

theorem joinAdvance_eq_ok {domainSeparator : Digest} {verifySignature : Bool}
    {advance : StateAdvanced} {credit : CoreTexCreditAccepted} {calldata : Option PyStr}
    {coordinatorSigner : PyStr} {joined : JoinedTransition}
    (h : joinAdvance keccak256 advance credit calldata domainSeparator coordinatorSigner
      verifySignature = .ok joined) :
    joined.advance = advance ∧ joined.credit = credit ∧
      joined.transactionHash = advance.provenance.tx := by
  obtain ⟨_, _, h⟩ := bind_eq_ok.mp h
  obtain ⟨_, _, h⟩ := bind_eq_ok.mp h
  dsimp only at h
  split at h
  · cases h
  obtain ⟨_, _, h⟩ := bind_eq_ok.mp h
  obtain ⟨_, _, h⟩ := bind_eq_ok.mp h
  obtain ⟨_, _, h⟩ := bind_eq_ok.mp h
  obtain ⟨_, _, h⟩ := bind_eq_ok.mp h
  split at h
  · cases h
  · cases h
    exact ⟨rfl, rfl, rfl⟩

theorem joinScreener_eq_ok {domainSeparator : Digest} {verifySignature : Bool}
    {credit : CoreTexCreditAccepted} {calldata : Option PyStr}
    {coordinatorSigner : CoordinatorSigner} {pass : ScreenerPass}
    (h : joinScreener keccak256 credit calldata domainSeparator coordinatorSigner
      verifySignature = .ok pass) : pass.credit = credit := by
  obtain ⟨_, _, h⟩ := bind_eq_ok.mp h
  dsimp only at h
  split at h
  · cases h
  obtain ⟨_, _, h⟩ := bind_eq_ok.mp h
  obtain ⟨_, _, h⟩ := bind_eq_ok.mp h
  split at h
  · cases h
  obtain ⟨verdict, _, h⟩ := bind_eq_ok.mp h
  cases verdict with
  | ok u => cases h; rfl
  | error e => cases h

/-- The entries of one transaction stand for its events. -/
theorem joinGroup_accounts {ctx : JoinContext} {tx : PyStr} {advances : List StateAdvanced}
    {credits : List CoreTexCreditAccepted} {entries : List Entry}
    (h : joinGroup keccak256 ctx tx advances credits = .ok entries)
    (hadvances : ∀ a ∈ advances, a.provenance.tx = tx)
    (hcredits : ∀ c ∈ credits, c.provenance.tx = tx) :
    Accounts entries advances credits ∧ ∀ e ∈ entries, e.tx = tx := by
  rcases credits with _ | ⟨credit, _ | ⟨credit', credits⟩⟩
  · rw [joinGroup] at h
    cases h
    refine ⟨accounts_missing hadvances, fun e he => ?_⟩
    obtain ⟨a, -, rfl⟩ := List.mem_map.mp he
    rfl
  · have hc : credit.provenance.tx = tx := hcredits credit (by simp)
    rcases advances with _ | ⟨advance, _ | ⟨advance', advances⟩⟩
    · obtain ⟨entry, hentry, h⟩ := bind_eq_ok.mp h
      cases h
      rcases exceptJoinError_eq_ok hentry with ⟨pass, hpass, rfl⟩ | ⟨exc, rfl⟩
      · obtain ⟨calldata, -, hpass⟩ := bind_eq_ok.mp hpass
        obtain rfl := joinScreener_eq_ok keccak256 hpass
        exact ⟨.single (.screenerPass pass), by simpa [Entry.tx] using hc⟩
      · subst hc
        exact ⟨.single (.failedScreener credit exc), by simp [Entry.tx, failedScreener]⟩
    · have ha : advance.provenance.tx = tx := hadvances advance (by simp)
      obtain ⟨entry, hentry, h⟩ := bind_eq_ok.mp h
      cases h
      rcases exceptJoinError_eq_ok hentry with ⟨joined, hjoined, rfl⟩ | ⟨exc, rfl⟩
      · obtain ⟨calldata, -, hjoined⟩ := bind_eq_ok.mp hjoined
        obtain ⟨signer, -, hjoined⟩ := bind_eq_ok.mp hjoined
        obtain ⟨rfl, rfl, htx⟩ := joinAdvance_eq_ok keccak256 hjoined
        exact ⟨.single (.transition joined htx (hc.trans ha.symm)),
          by simpa [Entry.tx, htx] using ha⟩
      · subst ha
        exact ⟨.single (.failedAdvance advance credit exc hc), by simp [Entry.tx, failedAdvance]⟩
    · cases h
      exact ⟨.single (.ambiguous tx _ _ hadvances hcredits), by simp [Entry.tx, ambiguous]⟩
  · have hambiguous : entries =
        [.unresolved (ambiguous tx advances.length (credit :: credit' :: credits).length)] := by
      rcases advances with _ | ⟨advance, _ | ⟨advance', advances⟩⟩ <;> cases h <;> rfl
    subst hambiguous
    exact ⟨.single (.ambiguous tx _ _ hadvances hcredits), by simp [Entry.tx, ambiguous]⟩

/-- Filtering a list by each of some distinct keys gives back the elements with those keys. -/
theorem flatMap_filter_perm {α : Type} (key : α → PyStr) {keys : List PyStr} (hnodup : keys.Nodup)
    {l : List α} (hkeys : ∀ a ∈ l, key a ∈ keys) :
    (keys.flatMap fun k => l.filter (key · = k)).Perm l := by
  induction keys generalizing l with
  | nil =>
      have hnil : l = [] := List.eq_nil_iff_forall_not_mem.mpr fun a ha => by
        simpa using hkeys a ha
      rw [hnil]
      exact .nil
  | cons k keys ih =>
      rw [List.nodup_cons] at hnodup
      rw [List.flatMap_cons]
      have hrest : ∀ k' ∈ keys, l.filter (key · = k') =
          (l.filter fun a => ! decide (key a = k)).filter (key · = k') := by
        intro k' hk'
        rw [List.filter_filter]
        refine List.filter_congr fun a _ => ?_
        by_cases ha : key a = k'
        · have hne : key a ≠ k := fun h => hnodup.1 (h ▸ ha ▸ hk')
          rw [decide_eq_true ha, decide_eq_false hne]
          rfl
        · rw [decide_eq_false ha, Bool.false_and]
      have hperm := ih hnodup.2 (l := l.filter fun a => ! decide (key a = k)) fun a ha => by
        obtain ⟨hmem, hne⟩ := List.mem_filter.mp ha
        rcases List.mem_cons.mp (hkeys a hmem) with heq | hin
        · rw [decide_eq_true heq] at hne
          cases hne
        · exact hin
      rw [List.flatMap_congr hrest]
      exact (hperm.append_left _).trans (List.filter_append_perm _ l)

/-- The groups together hold the events of the scan. -/
theorem byTx_events (decoded : DecodedLogs) :
    (decoded.byTx.flatMap fun g => g.2.1).Perm decoded.advances ∧
      (decoded.byTx.flatMap fun g => g.2.2).Perm decoded.coretexCredits := by
  have hnodup : decoded.txs.Nodup := List.nodup_dedup _
  constructor
  · refine ((byTx_perm decoded).flatMap_right _).trans ?_
    rw [List.flatMap_map]
    refine flatMap_filter_perm (fun a : StateAdvanced => a.provenance.tx) hnodup fun a ha => ?_
    exact List.mem_dedup.mpr (List.mem_append.mpr (.inl (List.mem_map.mpr ⟨a, ha, rfl⟩)))
  · refine ((byTx_perm decoded).flatMap_right _).trans ?_
    rw [List.flatMap_map]
    refine flatMap_filter_perm (fun c : CoreTexCreditAccepted => c.provenance.tx) hnodup
      fun c hc => ?_
    exact List.mem_dedup.mpr (List.mem_append.mpr (.inr (List.mem_map.mpr ⟨c, hc, rfl⟩)))

theorem mem_advancesOf {decoded : DecodedLogs} {tx : PyStr} {a : StateAdvanced}
    (h : a ∈ decoded.advancesOf tx) : a.provenance.tx = tx :=
  of_decide_eq_true (List.mem_filter.mp h).2

theorem mem_creditsOf {decoded : DecodedLogs} {tx : PyStr} {c : CoreTexCreditAccepted}
    (h : c ∈ decoded.creditsOf tx) : c.provenance.tx = tx :=
  of_decide_eq_true (List.mem_filter.mp h).2

theorem groupEntries_accounts {ctx : JoinContext} {decoded : DecodedLogs}
    {g : PyStr × List StateAdvanced × List CoreTexCreditAccepted} (hg : g ∈ decoded.byTx)
    (hok : ∃ es, joinGroup keccak256 ctx g.1 g.2.1 g.2.2 = .ok es) :
    Accounts (groupEntries keccak256 ctx g) g.2.1 g.2.2 ∧
      ∀ e ∈ groupEntries keccak256 ctx g, e.tx = g.1 := by
  obtain ⟨es, hes⟩ := hok
  obtain ⟨-, heq⟩ := mem_byTx.mp hg
  rw [groupEntries_of_ok keccak256 hes]
  refine joinGroup_accounts keccak256 hes ?_ ?_
  · rw [heq]
    exact fun a ha => mem_advancesOf ha
  · rw [heq]
    exact fun c hc => mem_creditsOf hc

theorem accounts_flatMap {ctx : JoinContext} {decoded : DecodedLogs}
    {groups : List (PyStr × List StateAdvanced × List CoreTexCreditAccepted)}
    (hsub : ∀ g ∈ groups, g ∈ decoded.byTx)
    (hok : ∀ g ∈ groups, ∃ es, joinGroup keccak256 ctx g.1 g.2.1 g.2.2 = .ok es) :
    Accounts (groups.flatMap (groupEntries keccak256 ctx)) (groups.flatMap fun g => g.2.1)
      (groups.flatMap fun g => g.2.2) := by
  induction groups with
  | nil => exact .nil
  | cons g groups ih =>
      simp only [List.flatMap_cons]
      exact (groupEntries_accounts keccak256 (hsub g (by simp)) (hok g (by simp))).1.append
        (ih (fun g' hg' => hsub g' (by simp [hg'])) fun g' hg' => hok g' (by simp [hg']))

theorem entries_perm (entries : List Entry) :
    ((entries.filterMap Entry.asTransition).map Entry.transition ++
      (entries.filterMap Entry.asScreenerPass).map Entry.screenerPass ++
      (entries.filterMap Entry.asUnresolved).map Entry.unresolved).Perm entries := by
  induction entries with
  | nil => exact .nil
  | cons e entries ih =>
      cases e with
      | transition joined => exact ih.cons _
      | screenerPass pass =>
          rw [List.append_assoc] at ih ⊢
          exact List.perm_middle.trans (ih.cons _)
      | unresolved entry => exact List.perm_middle.trans (ih.cons _)

/-- What a scan that got through answers: the entries of its groups, rearranged. -/
theorem joinAll_entries {ctx : JoinContext} {decoded : DecodedLogs} {result : JoinResult}
    (h : joinAll keccak256 ctx decoded = .ok result) :
    (∀ g ∈ decoded.byTx, ∃ es, joinGroup keccak256 ctx g.1 g.2.1 g.2.2 = .ok es) ∧
      result.entries.Perm (decoded.byTx.flatMap (groupEntries keccak256 ctx)) := by
  obtain ⟨entries, hentries, h⟩ := bind_eq_ok.mp h
  obtain ⟨report, -, h⟩ := bind_eq_ok.mp h
  cases h
  obtain ⟨hall, rfl⟩ := (joinGroups_eq_ok keccak256).mp hentries
  refine ⟨hall, List.Perm.trans ?_ (entries_perm _)⟩
  exact (((List.perm_insertionSort _ _).map _).append_right _).append_right _

/-- **Every event stands in exactly one entry.** -/
theorem joinAll_accounted {ctx : JoinContext} {decoded : DecodedLogs} {result : JoinResult}
    (h : joinAll keccak256 ctx decoded = .ok result) :
    Accounts result.entries decoded.advances decoded.coretexCredits := by
  obtain ⟨hall, hperm⟩ := joinAll_entries keccak256 h
  obtain ⟨hadvances, hcredits⟩ := byTx_events decoded
  exact (accounts_flatMap keccak256 (fun _ hg => hg) hall).perm hperm.symm hadvances hcredits

/-! ### Each transaction has its own outcome -/

/-- The logs of one transaction. -/
def DecodedLogs.only (decoded : DecodedLogs) (tx : PyStr) : DecodedLogs where
  advances := decoded.advancesOf tx
  coretexCredits := decoded.creditsOf tx

theorem advancesOf_only (decoded : DecodedLogs) (tx tx' : PyStr) :
    (decoded.only tx).advancesOf tx' = if tx' = tx then decoded.advancesOf tx else [] := by
  rw [DecodedLogs.advancesOf, DecodedLogs.only]
  split
  · next heq =>
    rw [heq]
    exact List.filter_eq_self.mpr fun a ha => decide_eq_true (mem_advancesOf ha)
  · next hne =>
    refine List.filter_eq_nil_iff.mpr fun a ha htx => hne ?_
    rw [← mem_advancesOf ha, ← of_decide_eq_true htx]

theorem creditsOf_only (decoded : DecodedLogs) (tx tx' : PyStr) :
    (decoded.only tx).creditsOf tx' = if tx' = tx then decoded.creditsOf tx else [] := by
  rw [DecodedLogs.creditsOf, DecodedLogs.only]
  split
  · next heq =>
    rw [heq]
    exact List.filter_eq_self.mpr fun c hc => decide_eq_true (mem_creditsOf hc)
  · next hne =>
    refine List.filter_eq_nil_iff.mpr fun c hc htx => hne ?_
    rw [← mem_creditsOf hc, ← of_decide_eq_true htx]

theorem scanSound_only {ctx : JoinContext} {decoded : DecodedLogs}
    (h : ScanSound keccak256 ctx decoded) (tx : PyStr) :
    ScanSound keccak256 ctx (decoded.only tx) := by
  refine ⟨h.keys.sublist (List.filter_sublist.map _), fun tx' => ?_⟩
  rw [advancesOf_only, creditsOf_only]
  by_cases heq : tx' = tx
  · rw [if_pos heq, if_pos heq, heq]
    exact h.groups tx
  · rw [if_neg heq, if_neg heq]
    trivial

/-- The entries of one transaction in the run over groups with distinct transactions. -/
theorem filter_flatMap_groups {ctx : JoinContext} {decoded : DecodedLogs} (keys : List PyStr)
    (hnodup : keys.Nodup) (hkeys : ∀ k ∈ keys, k ∈ decoded.txs)
    (hok : ∀ g ∈ decoded.byTx, ∃ es, joinGroup keccak256 ctx g.1 g.2.1 g.2.2 = .ok es)
    (tx : PyStr) :
    ((keys.map decoded.group).flatMap (groupEntries keccak256 ctx)).filter (·.tx = tx) =
      if tx ∈ keys then groupEntries keccak256 ctx (decoded.group tx) else [] := by
  induction keys with
  | nil => simp
  | cons k keys ih =>
      rw [List.nodup_cons] at hnodup
      have hmem : decoded.group k ∈ decoded.byTx := mem_byTx.mpr ⟨hkeys k (by simp), rfl⟩
      have htx : ∀ e ∈ groupEntries keccak256 ctx (decoded.group k), e.tx = k :=
        (groupEntries_accounts keccak256 hmem (hok _ hmem)).2
      rw [List.map_cons, List.flatMap_cons, List.filter_append,
        ih hnodup.2 fun k' hk' => hkeys k' (by simp [hk'])]
      by_cases heq : k = tx
      · subst heq
        rw [if_neg hnodup.1, if_pos (by simp), List.append_nil]
        exact List.filter_eq_self.mpr fun e he => decide_eq_true (htx e he)
      · have hnone : (groupEntries keccak256 ctx (decoded.group k)).filter (·.tx = tx) = [] :=
          List.filter_eq_nil_iff.mpr fun e he h => heq (by rw [← htx e he, of_decide_eq_true h])
        rw [hnone, List.nil_append]
        have hiff : tx ∈ k :: keys ↔ tx ∈ keys := by
          rw [List.mem_cons]
          exact or_iff_right fun h => heq h.symm
        simp only [hiff]

theorem entries_of_tx {ctx : JoinContext} {decoded : DecodedLogs} {result : JoinResult}
    (h : joinAll keccak256 ctx decoded = .ok result) (tx : PyStr) :
    (result.entries.filter (·.tx = tx)).Perm
      (if tx ∈ decoded.txs then groupEntries keccak256 ctx (decoded.group tx) else []) := by
  obtain ⟨hall, hperm⟩ := joinAll_entries keccak256 h
  rw [← filter_flatMap_groups keccak256 decoded.txs (List.nodup_dedup _)
    (fun _ hk => hk) hall tx]
  exact (hperm.trans ((byTx_perm decoded).flatMap_right _)).filter _

theorem group_only (decoded : DecodedLogs) (tx : PyStr) :
    (decoded.only tx).group tx = decoded.group tx := by
  rw [DecodedLogs.group, advancesOf_only, creditsOf_only, if_pos rfl, if_pos rfl]
  rfl

theorem mem_txs_only {decoded : DecodedLogs} {tx tx' : PyStr} :
    tx' ∈ (decoded.only tx).txs ↔ tx' = tx ∧ tx ∈ decoded.txs := by
  rw [← not_iff_not, not_mem_txs_iff, advancesOf_only, creditsOf_only, not_and, not_mem_txs_iff]
  by_cases heq : tx' = tx
  · simp [heq]
  · simp [heq]

/-- **No transaction changes the outcome of another.** -/
theorem joinAll_isolated {ctx : JoinContext} {decoded : DecodedLogs} {result : JoinResult}
    (h : joinAll keccak256 ctx decoded = .ok result) (tx : PyStr) :
    ∃ alone, joinAll keccak256 ctx (decoded.only tx) = .ok alone ∧
      alone.entries.Perm (result.entries.filter (·.tx = tx)) := by
  obtain ⟨alone, halone⟩ := (joinAll_ok_iff keccak256).mpr
    (scanSound_only keccak256 ((joinAll_ok_iff keccak256).mp ⟨result, h⟩) tx)
  refine ⟨alone, halone, ?_⟩
  obtain ⟨hall, hperm⟩ := joinAll_entries keccak256 halone
  have hself : alone.entries.filter (·.tx = tx) = alone.entries := by
    refine List.filter_eq_self.mpr fun e he => decide_eq_true ?_
    obtain ⟨g, hg, he⟩ := List.mem_flatMap.mp (hperm.mem_iff.mp he)
    rw [(groupEntries_accounts keccak256 hg (hall g hg)).2 e he]
    exact (mem_txs_only.mp (mem_byTx.mp hg).1).1
  have halone' := entries_of_tx keccak256 halone tx
  simp only [hself, group_only, mem_txs_only, true_and] at halone'
  exact halone'.trans (entries_of_tx keccak256 h tx).symm

/-- What the join of a scan should do: return, with every advance and every credit in exactly
one entry and each transaction's entries those it has alone. -/
def JoinsEverything (ctx : JoinContext) (decoded : DecodedLogs) : Prop :=
  ∃ result, joinAll keccak256 ctx decoded = .ok result ∧
    Accounts result.entries decoded.advances decoded.coretexCredits ∧
    ∀ tx, ∃ alone, joinAll keccak256 ctx (decoded.only tx) = .ok alone ∧
      alone.entries.Perm (result.entries.filter (·.tx = tx))

/-- The join does that exactly on the scans whose steps all pass or report. -/
theorem joinsEverything_iff (ctx : JoinContext) (decoded : DecodedLogs) :
    JoinsEverything keccak256 ctx decoded ↔ ScanSound keccak256 ctx decoded := by
  constructor
  · rintro ⟨result, h, -⟩
    exact (joinAll_ok_iff keccak256).mp ⟨result, h⟩
  · intro hsound
    obtain ⟨result, h⟩ := (joinAll_ok_iff keccak256).mpr hsound
    exact ⟨result, h, joinAll_accounted keccak256 h, joinAll_isolated keccak256 h⟩

theorem not_joinsEverything {ctx : JoinContext} {decoded : DecodedLogs} {exc : PyExc}
    (h : joinAll keccak256 ctx decoded = .error exc) : ¬ JoinsEverything keccak256 ctx decoded := by
  rintro ⟨result, hok, -⟩
  rw [h] at hok
  cases hok

/-! ### Two scans that stop the join -/

/-- Where an event of the scans below was seen. -/
def sampleProvenance : LogProvenance where
  address := none
  blockNumber := some 1
  logIndex := some 0
  transactionHash := some (py "0x01")
  transactionIndex := some 0
  removed := false

/-- An advance whose patch hash is the zero word. -/
def zeroAdvance : StateAdvanced where
  epoch := 0
  transitionIndex := 0
  miner := py "0x" ++ List.replicate 40 48
  parentStateRoot := zeroWord
  newStateRoot := zeroWord
  patchHash := zeroWord
  evalReportHash := zeroWord
  coreVersionHash := zeroWord
  epochContextRoot := zeroWord
  improvementCredits := 0
  transitionFormatVersion := 0
  compactPatchBytes := []
  provenance := sampleProvenance

/-- Its credit, under the stand-in hash. -/
def zeroCredit : CoreTexCreditAccepted where
  epoch := 0
  rigId := 0
  operator := py "0x" ++ List.replicate 40 48
  solveIndex := 0
  receiptHash := zeroWord
  challengeId := zeroWord
  workUnitsBps := 0
  creditsEarned := 0
  provenance := sampleProvenance

def zeroScan : DecodedLogs where
  advances := [zeroAdvance]
  coretexCredits := [zeroCredit]

/-- The calldata of the receipt with every member zero. -/
def zeroCalldata : PyStr :=
  submitSelector ++ hexText (writeBE 32 32 ++ List.replicate (24 * 32) 0 ++ writeBE 32 832 ++
    writeBE 32 864 ++ List.replicate 64 0)

def zeroContext (lookup : Lookup) : JoinContext where
  calldataFor _ := lookup
  domainSeparator := ⟨List.replicate 32 0, by simp⟩
  coordinatorSigner := .address (py "0x" ++ List.replicate 40 48)
  verifySignature := false

/-- A lookup that fails stops the join, and so does a zero patch hash: its handler raises. -/
theorem joinAll_stops :
    joinAll tailDigest (zeroContext .raises) zeroScan = .error .callerRaised ∧
      ¬ JoinsEverything tailDigest (zeroContext .raises) zeroScan ∧
      joinAll tailDigest (zeroContext (.text zeroCalldata)) zeroScan =
        .error (.attributeError "message") ∧
      ¬ JoinsEverything tailDigest (zeroContext (.text zeroCalldata)) zeroScan := by
  have hlookup : joinAll tailDigest (zeroContext .raises) zeroScan = .error .callerRaised := by
    decide +kernel
  have hzero : joinAll tailDigest (zeroContext (.text zeroCalldata)) zeroScan =
      .error (.attributeError "message") := by
    decide +kernel
  exact ⟨hlookup, not_joinsEverything tailDigest hlookup, hzero, not_joinsEverything tailDigest hzero⟩

end CoreTex.Join
