import CoreTex.Replay.RegistryHistory

/-!
# CoreTex.Replay.ReplayExact

How exact the registry replay is, for one list of logs.

`ReplayExact` is exactness in its three parts: a listed history replays to its last root, a
list that replays is a history, and decodable logs give a result. `replayExact_iff` names the
lists on which the code has it: the comparison after the loop sets the last finalization
against the last live root, whichever epoch it is of, and skips the others; and a patch that
does not decode throws.
-/

namespace CoreTex

open CoreTex.Lib

/-! ### The order of the events -/

theorem cmpBig_nonpos {a b : Int} : cmpBig a b ≤ 0 ↔ a ≤ b := by
  rw [cmpBig]
  split
  · omega
  · split <;> omega

theorem cmpAdvances_nonpos {a b : CoreTexStateAdvancedEvent} :
    cmpAdvances a b ≤ 0 ↔
      a.epoch < b.epoch ∨ a.epoch = b.epoch ∧ a.transitionIndex ≤ b.transitionIndex := by
  have hzero : cmpBig a.epoch b.epoch = 0 ↔ a.epoch = b.epoch := by
    rw [cmpBig]
    split
    · omega
    · split <;> omega
  have hepoch := cmpBig_nonpos (a := a.epoch) (b := b.epoch)
  have hindex := cmpBig_nonpos (a := a.transitionIndex) (b := b.transitionIndex)
  rw [cmpAdvances]
  split <;> omega

theorem consistent_cmpAdvances : Consistent cmpAdvances where
  swap a b := by
    rw [cmpAdvances_nonpos, cmpAdvances_nonpos]
    omega
  trans a b c hab hbc := by
    rw [cmpAdvances_nonpos] at *
    omega

theorem consistent_cmpFinalized : Consistent cmpFinalized where
  swap a b := by
    rw [cmpFinalized, cmpFinalized, cmpBig_nonpos, cmpBig_nonpos]
    omega
  trans a b c hab hbc := by
    rw [cmpFinalized, cmpBig_nonpos] at *
    omega

section Chain

variable {keccak256 : Bytes → Digest} {policyAtomsMode : Bool} {parent last : CortexState}
  {advances : List CoreTexStateAdvancedEvent}

/-- In a chain the indices of an epoch stay below its count. -/
theorem AdvanceChain.transitionIndex_lt
    (h : AdvanceChain keccak256 policyAtomsMode parent advances last) :
    ∀ a ∈ advances, a.transitionIndex < ((epochCount advances a.epoch : Nat) : Int) := by
  induction h with
  | start => simp
  | @advance advances s adv t hchain hindex happlies ih =>
      intro a ha
      have hcount : epochCount (advances ++ [adv]) a.epoch =
          epochCount advances a.epoch + if adv.epoch = a.epoch then 1 else 0 := by
        simp [epochCount, List.countP_singleton]
      rw [hcount]
      rcases List.mem_append.mp ha with ha | ha
      · have := ih a ha
        split <;> omega
      · rw [List.mem_singleton.mp ha, if_pos rfl]
        omega

/-- A chain whose epochs do not go down is in the replay's order. -/
theorem AdvanceChain.sorted (h : AdvanceChain keccak256 policyAtomsMode parent advances last)
    (hepochs : advances.Pairwise fun a b => a.epoch ≤ b.epoch) :
    advances.Pairwise fun a b => cmpAdvances a b ≤ 0 ∧ ¬ cmpAdvances b a ≤ 0 := by
  induction h with
  | start => exact .nil
  | @advance advances s adv t hchain hindex happlies ih =>
      obtain ⟨hpre, -, hlast⟩ := List.pairwise_append.mp hepochs
      refine List.pairwise_append.mpr ⟨ih hpre, List.pairwise_singleton _ _, ?_⟩
      intro a ha b hb
      have hle := hlast a ha b hb
      rw [List.mem_singleton.mp hb] at hle ⊢
      have hlt := hchain.transitionIndex_lt a ha
      rw [cmpAdvances_nonpos, cmpAdvances_nonpos]
      by_cases heq : a.epoch = adv.epoch
      · rw [heq] at hlt
        omega
      · omega

/-- Any arrangement of a history's advances sorts back to the history. -/
theorem AdvanceChain.sort_eq (S : CompareSort)
    (h : AdvanceChain keccak256 policyAtomsMode parent advances last)
    (hepochs : advances.Pairwise fun a b => a.epoch ≤ b.epoch)
    {events : List CoreTexStateAdvancedEvent} (hperm : events.Perm advances) :
    S.sort cmpAdvances events = advances := by
  have hsorted := h.sorted hepochs
  have htie : ∀ a ∈ advances, ∀ b ∈ advances, cmpAdvances a b ≤ 0 → cmpAdvances b a ≤ 0 →
      a = b := by
    intro a ha b hb
    refine List.Pairwise.forall_of_forall_of_flip
      (R := fun a b => cmpAdvances a b ≤ 0 → cmpAdvances b a ≤ 0 → a = b) ?_ ?_ ?_ ha hb
    · exact fun _ _ _ _ => rfl
    · exact hsorted.imp fun h _ hba => absurd hba h.2
    · exact hsorted.imp fun h hba _ => absurd hba h.2
  rw [S.sort_eq_of_perm consistent_cmpAdvances hperm]
  · exact S.sort_eq_self consistent_cmpAdvances (hsorted.imp And.left) htie
  · intro a ha b hb
    exact htie a (hperm.mem_iff.mp ha) b (hperm.mem_iff.mp hb)

end Chain

/-! ### Decoding a list of logs -/

section Logs

variable (keccak256 : Bytes → Digest)

/-- Every log of the list decodes, and these are the events. -/
def Decodes (logs : List RpcLog) (advances : List CoreTexStateAdvancedEvent)
    (finalized : List CoreTexEpochFinalizedEvent) : Prop :=
  ∃ as fs, logs.mapM (decodeCoreTexStateAdvanced keccak256) = .ok as ∧
    logs.mapM (decodeCoreTexEpochFinalized keccak256) = .ok fs ∧
    as.filterMap id = advances ∧ fs.filterMap id = finalized

/-- The logs of a history in any order, mixed with logs of other topics. -/
def ListsHistory (logs : List RpcLog) (advances : List AbiAdvance)
    (finalized : List AbiFinalized) : Prop :=
  ∃ others, logs.Perm (advances.map (·.toLog keccak256) ++ finalized.map (·.toLog keccak256)
      ++ others) ∧
    ∀ log ∈ others, eqHex log.topics[0]? (eventTopic keccak256 sigStateAdvanced) = false ∧
      eqHex log.topics[0]? (eventTopic keccak256 sigEpochFinalized) = false

variable {keccak256}

theorem mapM_eq_ok_of_forall {α β ε : Type} {f : α → Except ε β} {g : α → β} {xs : List α}
    (h : ∀ x ∈ xs, f x = .ok (g x)) : xs.mapM f = .ok (xs.map g) := by
  rw [mapM_eq_ok, List.forall₂_map_right_iff]
  exact List.forall₂_same.mpr h

theorem mem_of_mapM_eq_ok {α β ε : Type} {f : α → Except ε β} {xs : List α} {ys : List β}
    (h : xs.mapM f = .ok ys) : ∀ y ∈ ys, ∃ x ∈ xs, f x = .ok y := by
  have hall := mapM_eq_ok.mp h
  clear h
  induction hall with
  | nil => simp
  | cons hy _ ih =>
      rw [List.forall_mem_cons]
      refine ⟨⟨_, List.mem_cons_self, hy⟩, fun y' hy' => ?_⟩
      obtain ⟨x', hx', hfx⟩ := ih y' hy'
      exact ⟨x', List.mem_cons_of_mem _ hx', hfx⟩

theorem Decodes.lowerAdvance {logs : List RpcLog} {advances : List CoreTexStateAdvancedEvent}
    {finalized : List CoreTexEpochFinalizedEvent} (h : Decodes keccak256 logs advances finalized) :
    ∀ a ∈ advances, LowerAdvance a := by
  obtain ⟨as, fs, has, -, rfl, -⟩ := h
  intro a ha
  obtain ⟨o, ho, rfl⟩ := List.mem_filterMap.mp ha
  obtain ⟨log, -, hlog⟩ := mem_of_mapM_eq_ok has _ ho
  exact decodeCoreTexStateAdvanced_lower hlog

theorem Decodes.lowerFinalized {logs : List RpcLog} {advances : List CoreTexStateAdvancedEvent}
    {finalized : List CoreTexEpochFinalizedEvent} (h : Decodes keccak256 logs advances finalized) :
    ∀ f ∈ finalized, f.finalStateRoot.toLower = f.finalStateRoot := by
  obtain ⟨as, fs, -, hfs, -, rfl⟩ := h
  intro f hf
  obtain ⟨o, ho, rfl⟩ := List.mem_filterMap.mp hf
  obtain ⟨log, -, hlog⟩ := mem_of_mapM_eq_ok hfs _ ho
  exact decodeCoreTexEpochFinalized_lower hlog

/-- A log of another topic is no advance and no finalization. -/
theorem decode_of_topic_ne {log : RpcLog}
    (h : eqHex log.topics[0]? (eventTopic keccak256 sigStateAdvanced) = false) :
    decodeCoreTexStateAdvanced keccak256 log = .ok none := by
  simp only [decodeCoreTexStateAdvanced, h, Bool.not_false, if_true]
  rfl

theorem decodeFinalized_of_topic_ne {log : RpcLog}
    (h : eqHex log.topics[0]? (eventTopic keccak256 sigEpochFinalized) = false) :
    decodeCoreTexEpochFinalized keccak256 log = .ok none := by
  simp only [decodeCoreTexEpochFinalized, h, Bool.not_false, if_true]
  rfl

/-- The two topics are told apart. -/
theorem eqHex_topics (htopics : eventTopic keccak256 sigStateAdvanced ≠
      eventTopic keccak256 sigEpochFinalized) :
    eqHex (some (eventTopic keccak256 sigEpochFinalized)) (eventTopic keccak256 sigStateAdvanced)
        = false ∧
      eqHex (some (eventTopic keccak256 sigStateAdvanced))
        (eventTopic keccak256 sigEpochFinalized) = false := by
  have hlower : ∀ sig, (eventTopic keccak256 sig).toLower = eventTopic keccak256 sig := fun _ =>
    toLower_bytesToHex _
  rw [← Bool.not_eq_true, ← Bool.not_eq_true, eqHex_iff (hlower _) (hlower _),
    eqHex_iff (hlower _) (hlower _)]
  exact ⟨htopics.symm, htopics⟩

theorem AbiAdvance.decodeFinalized_toLog (htopics : eventTopic keccak256 sigStateAdvanced ≠
      eventTopic keccak256 sigEpochFinalized) (a : AbiAdvance) :
    decodeCoreTexEpochFinalized keccak256 (a.toLog keccak256) = .ok none :=
  decodeFinalized_of_topic_ne (eqHex_topics htopics).2

theorem AbiFinalized.decodeAdvanced_toLog (htopics : eventTopic keccak256 sigStateAdvanced ≠
      eventTopic keccak256 sigEpochFinalized) (f : AbiFinalized) :
    decodeCoreTexStateAdvanced keccak256 (f.toLog keccak256) = .ok none :=
  decode_of_topic_ne (eqHex_topics htopics).1

/-- A listed history decodes to its events, in the order of the list. -/
theorem ListsHistory.decodes (htopics : eventTopic keccak256 sigStateAdvanced ≠
      eventTopic keccak256 sigEpochFinalized) {logs : List RpcLog} {advances : List AbiAdvance}
    {finalized : List AbiFinalized} (h : ListsHistory keccak256 logs advances finalized) :
    ∃ as fs, Decodes keccak256 logs as fs ∧ as.Perm (advances.map AbiAdvance.toEvent) ∧
      fs.Perm (finalized.map AbiFinalized.toEvent) := by
  obtain ⟨others, hperm, hothers⟩ := h
  let ga : RpcLog → Option CoreTexStateAdvancedEvent := fun log =>
    ((decodeCoreTexStateAdvanced keccak256 log).toOption).join
  let gf : RpcLog → Option CoreTexEpochFinalizedEvent := fun log =>
    ((decodeCoreTexEpochFinalized keccak256 log).toOption).join
  have hdecodeA := AbiAdvance.decodeFinalized_toLog htopics
  have hdecodeF := AbiFinalized.decodeAdvanced_toLog htopics
  have hall : ∀ log ∈ logs, decodeCoreTexStateAdvanced keccak256 log = .ok (ga log) ∧
      decodeCoreTexEpochFinalized keccak256 log = .ok (gf log) := by
    intro log hlog
    rcases List.mem_append.mp (hperm.mem_iff.mp hlog) with hlog | hlog
    · rcases List.mem_append.mp hlog with hlog | hlog
      · obtain ⟨a, -, rfl⟩ := List.mem_map.mp hlog
        simp only [ga, gf, decodeCoreTexStateAdvanced_toLog, hdecodeA]
        exact ⟨rfl, rfl⟩
      · obtain ⟨f, -, rfl⟩ := List.mem_map.mp hlog
        simp only [ga, gf, decodeCoreTexEpochFinalized_toLog, hdecodeF]
        exact ⟨rfl, rfl⟩
    · obtain ⟨hoa, hof⟩ := hothers log hlog
      simp only [ga, gf, decode_of_topic_ne hoa, decodeFinalized_of_topic_ne hof]
      exact ⟨rfl, rfl⟩
  refine ⟨logs.filterMap ga, logs.filterMap gf, ⟨logs.map ga, logs.map gf,
    mapM_eq_ok_of_forall fun log hlog => (hall log hlog).1,
    mapM_eq_ok_of_forall fun log hlog => (hall log hlog).2, ?_, ?_⟩, ?_, ?_⟩
  · rw [List.filterMap_map]
    rfl
  · rw [List.filterMap_map]
    rfl
  · have hnone : others.filterMap ga = [] := by
      refine List.filterMap_eq_nil_iff.mpr fun log hlog => ?_
      simp only [ga, decode_of_topic_ne (hothers log hlog).1]
      rfl
    refine (hperm.filterMap ga).trans (List.Perm.of_eq ?_)
    rw [List.filterMap_append, List.filterMap_append, hnone, List.append_nil, List.filterMap_map,
      List.filterMap_map]
    have hA : (ga ∘ fun a : AbiAdvance => a.toLog keccak256) = fun a => some a.toEvent := by
      funext a
      simp only [ga, Function.comp, decodeCoreTexStateAdvanced_toLog]
      rfl
    have hF : (ga ∘ fun f : AbiFinalized => f.toLog keccak256) = fun _ => none := by
      funext f
      simp only [ga, Function.comp, hdecodeF]
      rfl
    rw [hA, hF]
    simp [List.filterMap_eq_map']
  · have hnone : others.filterMap gf = [] := by
      refine List.filterMap_eq_nil_iff.mpr fun log hlog => ?_
      simp only [gf, decodeFinalized_of_topic_ne (hothers log hlog).2]
      rfl
    refine (hperm.filterMap gf).trans (List.Perm.of_eq ?_)
    rw [List.filterMap_append, List.filterMap_append, hnone, List.append_nil, List.filterMap_map,
      List.filterMap_map]
    have hA : (gf ∘ fun a : AbiAdvance => a.toLog keccak256) = fun _ => none := by
      funext a
      simp only [gf, Function.comp, hdecodeA]
      rfl
    have hF : (gf ∘ fun f : AbiFinalized => f.toLog keccak256) = fun f => some f.toEvent := by
      funext f
      simp only [gf, Function.comp, decodeCoreTexEpochFinalized_toLog]
      rfl
    rw [hA, hF]
    simp [List.filterMap_eq_map']

end Logs

/-! ### Runs of the replay -/

section Replay

variable (keccak256 : Bytes → Digest) (S : CompareSort) (opts : ReplayOpts)
  (parent : CortexState) (logs : List RpcLog)

/-- The result of an accepted replay. -/
def replayed (last : CortexState) (advances : List CoreTexStateAdvancedEvent)
    (finalized : Option CoreTexEpochFinalizedEvent) : CoreTexReplayResult :=
  ⟨true, none, none, (advances.length : Nat), some (rootHex keccak256 last),
    finalized.map (·.finalStateRoot)⟩

/-- The last finalization's pins match and it names the live root. -/
def FinalAccepted (last : CortexState) (finalized : Option CoreTexEpochFinalizedEvent) : Prop :=
  ∀ f, finalized = some f → FinalizedPinsMatch opts f ∧ f.finalStateRoot = rootHex keccak256 last

variable {keccak256 opts parent logs} {advances : List CoreTexStateAdvancedEvent}
  {finalized : List CoreTexEpochFinalizedEvent}

theorem replayFinish_eq_ok {last : CortexState} {f? : Option CoreTexEpochFinalizedEvent}
    (hlower : ∀ f, f? = some f → f.finalStateRoot.toLower = f.finalStateRoot)
    {result : CoreTexReplayResult} :
    replayFinish opts (chainLoop keccak256 advances last) advances f? = .ok result ↔
      FinalAccepted keccak256 opts last f? ∧ result = replayed keccak256 last advances f? := by
  cases f? with
  | none =>
      rw [replayFinish, pure_eq_ok]
      exact ⟨fun h => ⟨fun f hf => (nomatch hf), h.symm⟩, fun h => h.2.symm⟩
  | some f =>
      have hroot : eqHex (some f.finalStateRoot) (chainLoop keccak256 advances last).root = true ↔
          f.finalStateRoot = rootHex keccak256 last :=
        eqHex_iff (hlower f rfl) (toLower_rootHex last)
      unfold replayFinish
      dsimp only
      rw [bind_eq_ok]
      constructor
      · rintro ⟨_, hpins, h⟩
        rw [refuseIf_bind_eq_ok, pure_eq_ok] at h
        obtain ⟨hfinal, rfl⟩ := h
        refine ⟨fun f' hf' => ?_, rfl⟩
        rw [← Option.some.inj hf']
        refine ⟨checkFinalizedPins_eq_ok.mp hpins, hroot.mp ?_⟩
        simpa using hfinal
      · rintro ⟨haccepted, rfl⟩
        obtain ⟨hpins, hfinal⟩ := haccepted f rfl
        refine ⟨(), checkFinalizedPins_eq_ok.mpr hpins, ?_⟩
        rw [refuseIf_bind_eq_ok, pure_eq_ok]
        refine ⟨?_, rfl⟩
        rw [hroot.mpr hfinal]
        decide

/-- Is a stop a failure the function returns? -/
def ReplayStop.IsFailure : ReplayStop → Prop
  | .failed result => result.ok = false
  | .thrown _ => False

theorem replayFinish_fails (loop : RegistryLoop) (f? : Option CoreTexEpochFinalizedEvent) :
    FailsWith ReplayStop.IsFailure (replayFinish opts loop advances f?) := by
  cases f? with
  | none => exact .pure _
  | some f =>
      refine .bind ?_ fun _ _ => .bind (.refuseIf rfl) fun _ _ => .pure _
      exact .bind (.refuseIf rfl) fun _ _ => .bind (.refuseIf rfl) fun _ _ =>
        .bind (.refuseIf rfl) fun _ _ => .refuseIf rfl

/-- A failure inside the loop is reported as one. -/
theorem replayAdvance_fails (loop : RegistryLoop) (adv : CoreTexStateAdvancedEvent) :
    FailsWith (fun e => e.IsFailure ∨ ∃ t, e = .thrown t)
      (replayAdvance keccak256 opts loop adv) := by
  refine .bind (.refuseIf (.inl rfl)) fun _ _ => .bind (.refuseIf (.inl rfl)) fun _ _ =>
    .bind (.refuseIf (.inl rfl)) fun _ _ => .bind (.refuseIf (.inl rfl)) fun _ _ =>
    .bind (.refuseIf (.inl rfl)) fun _ _ => .bind (.refuseIf (.inl rfl)) fun _ _ =>
    .bind (.refuseIf (.inl rfl)) fun _ _ => .bind (.refuseIf (.inl rfl)) fun _ _ => ?_
  cases decodePatch adv.compactPatchBytes with
  | error e => exact .throw (.inr ⟨_, rfl⟩)
  | ok patch =>
      dsimp only
      rw [pure_bind]
      cases applyPatch keccak256 loop.state patch opts.policyAtomsMode with
      | error err => exact .throw (.inl rfl)
      | ok t => exact .bind (.refuseIf (.inl rfl)) fun _ _ => .pure _

/-- The replay of decodable logs, over their events. -/
theorem replayCoreTexFromLogs_decodes (h : Decodes keccak256 logs advances finalized) :
    replayCoreTexFromLogs keccak256 S opts parent logs =
      stopToResult (replayEvents keccak256 S opts parent advances finalized) := by
  obtain ⟨as, fs, has, hfs, rfl, rfl⟩ := h
  rw [replayCoreTexFromLogs, has, ok_bind, hfs, ok_bind]

/-- The last finalization in the replay's order. -/
def lastFinalized (finalized : List CoreTexEpochFinalizedEvent) :
    Option CoreTexEpochFinalizedEvent :=
  (S.sort cmpFinalized finalized).getLast?

theorem lastFinalized_mem {f : CoreTexEpochFinalizedEvent}
    (h : lastFinalized S finalized = some f) : f ∈ finalized :=
  (S.mem_sort cmpFinalized).mp (List.mem_of_getLast? h)

/-- **Acceptance** of decodable logs: the sorted advances are a chain, their pins match, and
the last finalization is accepted against the last live root. -/
theorem replayEvents_eq_ok (h : Decodes keccak256 logs advances finalized)
    {result : CoreTexReplayResult} :
    replayEvents keccak256 S opts parent advances finalized = .ok result ↔
      (∀ a ∈ advances, AdvancePinsMatch opts a) ∧ ∃ last,
        AdvanceChain keccak256 opts.policyAtomsMode parent (S.sort cmpAdvances advances) last ∧
        FinalAccepted keccak256 opts last (lastFinalized S finalized) ∧
        result = replayed keccak256 last (S.sort cmpAdvances advances)
          (lastFinalized S finalized) := by
  have hlower : ∀ a ∈ S.sort cmpAdvances advances, LowerAdvance a := fun a ha =>
    h.lowerAdvance a ((S.mem_sort cmpAdvances).mp ha)
  have hlowerF : ∀ f, lastFinalized S finalized = some f →
      f.finalStateRoot.toLower = f.finalStateRoot := fun f hf =>
    h.lowerFinalized f (lastFinalized_mem S hf)
  have hpins : (∀ a ∈ S.sort cmpAdvances advances, AdvancePinsMatch opts a) ↔
      ∀ a ∈ advances, AdvancePinsMatch opts a := by
    simp only [S.mem_sort cmpAdvances]
  rw [replayEvents, bind_eq_ok, ← hpins]
  constructor
  · intro ⟨loop, hloop, hfinish⟩
    obtain ⟨hall, last, hchain, rfl⟩ := (replayLoop_eq_ok hlower).mp hloop
    exact ⟨hall, last, hchain, (replayFinish_eq_ok hlowerF).mp hfinish⟩
  · intro ⟨hall, last, hchain, haccepted⟩
    exact ⟨_, (replayLoop_eq_ok hlower).mpr ⟨hall, last, hchain, rfl⟩,
      (replayFinish_eq_ok hlowerF).mpr haccepted⟩

/-- An accepting result comes from an accepted replay. -/
theorem replayCoreTexFromLogs_eq_ok {result : CoreTexReplayResult} (hok : result.ok = true) :
    replayCoreTexFromLogs keccak256 S opts parent logs = .ok result ↔
      ∃ advances finalized, Decodes keccak256 logs advances finalized ∧
        replayEvents keccak256 S opts parent advances finalized = .ok result := by
  constructor
  · intro h
    unfold replayCoreTexFromLogs at h
    rw [bind_eq_ok] at h
    obtain ⟨as, has, h⟩ := h
    rw [bind_eq_ok] at h
    obtain ⟨fs, hfs, h⟩ := h
    dsimp only at h
    refine ⟨_, _, ⟨as, fs, has, hfs, rfl, rfl⟩, ?_⟩
    cases hrun : replayEvents keccak256 S opts parent (as.filterMap id) (fs.filterMap id) with
    | ok r =>
        rw [hrun] at h
        exact congrArg Except.ok (Except.ok.inj h)
    | error stop =>
        rw [hrun] at h
        -- a returned failure does not say `ok`
        have hfails : FailsWith (fun e => e.IsFailure ∨ ∃ t, e = .thrown t)
            (replayEvents keccak256 S opts parent (as.filterMap id) (fs.filterMap id)) := by
          intro e he
          rw [replayEvents, bind_eq_error] at he
          rcases he with he | ⟨loop, -, he⟩
          · obtain ⟨_, adv, _, loop, -, -, hadv⟩ := foldlM_eq_error.mp he
            exact replayAdvance_fails loop adv e hadv
          · exact .inl (replayFinish_fails loop _ e he)
        rcases hfails stop hrun with hfailure | ⟨t, rfl⟩
        · cases stop with
          | failed r =>
              rw [← Except.ok.inj h] at hok
              rw [ReplayStop.IsFailure, hok] at hfailure
              exact absurd hfailure (by decide)
          | thrown t => exact hfailure.elim
        · exact nomatch h
  · intro ⟨advances, finalized, hdecodes, hrun⟩
    rw [replayCoreTexFromLogs_decodes S hdecodes, hrun]
    rfl

end Replay

/-! ### Exactness -/

section Exact

variable (keccak256 : Bytes → Digest) (S : CompareSort) (opts : ReplayOpts)
  (parent : CortexState) (logs : List RpcLog)

/-- Exactness of the replay on one list of logs. -/
structure ReplayExact : Prop where
  /-- A listed history whose pins match replays to its last live root and its length. -/
  histories : ∀ (advances : List AbiAdvance) (finalized : List AbiFinalized) (last : CortexState),
    RegistryHistory keccak256 opts.policyAtomsMode parent (advances.map (·.toEvent))
      (finalized.map (·.toEvent)) last →
    ListsHistory keccak256 logs advances finalized →
    (∀ a ∈ advances, AdvancePinsMatch opts a.toEvent) →
    (∀ f ∈ finalized, FinalizedPinsMatch opts f.toEvent) →
    ∃ result, replayCoreTexFromLogs keccak256 S opts parent logs = .ok result ∧
      result.ok = true ∧ result.transitions = ((advances.length : Nat) : Int) ∧
      result.reproducedFinalRoot = some (rootHex keccak256 last)
  /-- An accepted list is a history, and each finalization names its own epoch's last root. -/
  onlyHistories : ∀ result, replayCoreTexFromLogs keccak256 S opts parent logs = .ok result →
    result.ok = true → ∃ advances finalized last, Decodes keccak256 logs advances finalized ∧
      ((S.sort cmpAdvances advances).Pairwise fun a b => a.epoch ≤ b.epoch) ∧
      AdvanceChain keccak256 opts.policyAtomsMode parent (S.sort cmpAdvances advances) last ∧
      FinalizedRootsLive (rootHex keccak256 parent) (S.sort cmpAdvances advances) finalized
  /-- Decodable logs give a result. -/
  returns : ∀ advances finalized, Decodes keccak256 logs advances finalized →
    ∃ result, replayCoreTexFromLogs keccak256 S opts parent logs = .ok result

/-- In a listed history the last finalized epoch ends at the history's last live root. -/
def LastFinalizedEndsLast : Prop :=
  ∀ (advances : List AbiAdvance) (finalized : List AbiFinalized) (last : CortexState),
    RegistryHistory keccak256 opts.policyAtomsMode parent (advances.map (·.toEvent))
      (finalized.map (·.toEvent)) last →
    ListsHistory keccak256 logs advances finalized →
    (∀ a ∈ advances, AdvancePinsMatch opts a.toEvent) →
    (∀ f ∈ finalized, FinalizedPinsMatch opts f.toEvent) →
    ∀ f ∈ finalized, (∀ g ∈ finalized, g.epoch ≤ f.epoch) →
      liveRootAt (rootHex keccak256 parent) (advances.map (·.toEvent)) f.toEvent.epoch =
        rootHex keccak256 last

/-- Where the advances are a chain with matching pins and the last finalization is accepted
against the last live root, every finalization names the last root of its own epoch. -/
def FinalizationsNameTheirEpochs : Prop :=
  ∀ advances finalized last, Decodes keccak256 logs advances finalized →
    (∀ a ∈ advances, AdvancePinsMatch opts a) →
    AdvanceChain keccak256 opts.policyAtomsMode parent (S.sort cmpAdvances advances) last →
    FinalAccepted keccak256 opts last (lastFinalized S finalized) →
    FinalizedRootsLive (rootHex keccak256 parent) (S.sort cmpAdvances advances) finalized

/-- An advance that continues a chain and passes the checks before the decoder carries a patch
that decodes. -/
def CheckedPatchesDecode : Prop :=
  ∀ advances finalized pre adv post last, Decodes keccak256 logs advances finalized →
    S.sort cmpAdvances advances = pre ++ adv :: post →
    (∀ a ∈ pre, AdvancePinsMatch opts a) →
    AdvanceChain keccak256 opts.policyAtomsMode parent pre last →
    AdvanceChecked keccak256 opts (chainLoop keccak256 pre last) adv →
    ∃ patch, decodePatch adv.compactPatchBytes = .ok patch

variable {keccak256 S opts parent logs}

/-- A finalization of the last finalized epoch is the last in the replay's order. -/
theorem lastFinalized_eq {finalized : List CoreTexEpochFinalizedEvent}
    (honce : (finalized.map (·.epoch)).Nodup) {f : CoreTexEpochFinalizedEvent}
    (hf : f ∈ finalized) (hmax : ∀ g ∈ finalized, g.epoch ≤ f.epoch) :
    lastFinalized S finalized = some f := by
  have hmem : ∀ g, g ∈ S.sort cmpFinalized finalized ↔ g ∈ finalized := fun g =>
    S.mem_sort cmpFinalized
  have hsorted := S.sorted cmpFinalized finalized consistent_cmpFinalized
  have hne : S.sort cmpFinalized finalized ≠ [] := List.ne_nil_of_mem ((hmem f).mpr hf)
  have hsplit := List.dropLast_append_getLast hne
  have hg := (hmem _).mp (List.getLast_mem hne)
  have hle : f.epoch ≤ ((S.sort cmpFinalized finalized).getLast hne).epoch := by
    have hf' := (hmem f).mpr hf
    rw [← hsplit] at hf' hsorted
    rcases List.mem_append.mp hf' with hf' | hf'
    · have := (List.pairwise_append.mp hsorted).2.2 f hf' _ (List.mem_singleton_self _)
      rwa [cmpFinalized, cmpBig_nonpos] at this
    · exact le_of_eq (congrArg _ (List.mem_singleton.mp hf'))
  have heq : (S.sort cmpFinalized finalized).getLast hne = f :=
    List.inj_on_of_nodup_map honce hg hf (le_antisymm (hmax _ hg) hle)
  rw [lastFinalized, List.getLast?_eq_getLast_of_ne_nil hne, heq]

theorem lastFinalized_max {finalized : List CoreTexEpochFinalizedEvent}
    {f : CoreTexEpochFinalizedEvent} (h : lastFinalized S finalized = some f) :
    ∀ g ∈ finalized, g.epoch ≤ f.epoch := by
  intro g hg
  have hg' := (S.mem_sort cmpFinalized).mpr hg
  have hsorted := S.sorted cmpFinalized finalized consistent_cmpFinalized
  obtain ⟨init, hinit⟩ := List.getLast?_eq_some_iff.mp h
  rw [hinit] at hg' hsorted
  rcases List.mem_append.mp hg' with hg' | hg'
  · have := (List.pairwise_append.mp hsorted).2.2 g hg' f (List.mem_singleton_self _)
    rwa [cmpFinalized, cmpBig_nonpos] at this
  · exact le_of_eq (congrArg _ (List.mem_singleton.mp hg'))

theorem Decodes.unique {as as' : List CoreTexStateAdvancedEvent}
    {fs fs' : List CoreTexEpochFinalizedEvent} (h : Decodes keccak256 logs as fs)
    (h' : Decodes keccak256 logs as' fs') : as = as' ∧ fs = fs' := by
  obtain ⟨xs, ys, hxs, hys, rfl, rfl⟩ := h
  obtain ⟨xs', ys', hxs', hys', rfl, rfl⟩ := h'
  rw [hxs, Except.ok.injEq] at hxs'
  rw [hys, Except.ok.injEq] at hys'
  exact ⟨congrArg _ hxs', congrArg _ hys'⟩

/-- A listed history is replayed when its last finalized epoch ends at the last live root. -/
theorem LastFinalizedEndsLast.replays (htopics : eventTopic keccak256 sigStateAdvanced ≠
      eventTopic keccak256 sigEpochFinalized)
    (hlast : LastFinalizedEndsLast keccak256 opts parent logs)
    {advances : List AbiAdvance} {finalized : List AbiFinalized} {last : CortexState}
    (hhistory : RegistryHistory keccak256 opts.policyAtomsMode parent (advances.map (·.toEvent))
      (finalized.map (·.toEvent)) last)
    (hlists : ListsHistory keccak256 logs advances finalized)
    (hpins : ∀ a ∈ advances, AdvancePinsMatch opts a.toEvent)
    (hpinsF : ∀ f ∈ finalized, FinalizedPinsMatch opts f.toEvent) :
    ∃ result, replayCoreTexFromLogs keccak256 S opts parent logs = .ok result ∧
      result.ok = true ∧ result.transitions = ((advances.length : Nat) : Int) ∧
      result.reproducedFinalRoot = some (rootHex keccak256 last) := by
  obtain ⟨as, fs, hdecodes, hpermA, hpermF⟩ := hlists.decodes htopics
  have hsort := hhistory.chain.sort_eq S hhistory.epochs hpermA
  have haccepted : FinalAccepted keccak256 opts last (lastFinalized S fs) := by
    intro f hf
    obtain ⟨f, hmem, rfl⟩ := List.mem_map.mp (hpermF.mem_iff.mp (lastFinalized_mem S hf))
    refine ⟨hpinsF f hmem, ?_⟩
    have hends := hlast advances finalized last hhistory hlists hpins hpinsF f hmem fun g hg => by
      have := lastFinalized_max hf g.toEvent
        (hpermF.mem_iff.mpr (List.mem_map_of_mem hg))
      simpa [AbiFinalized.toEvent] using this
    rw [← hends]
    exact hhistory.finalizedRoots f.toEvent (List.mem_map_of_mem hmem)
  refine ⟨replayed keccak256 last (advances.map (·.toEvent)) (lastFinalized S fs), ?_, rfl, ?_, rfl⟩
  · refine (replayCoreTexFromLogs_eq_ok S rfl).mpr ⟨as, fs, hdecodes, ?_⟩
    refine (replayEvents_eq_ok S hdecodes).mpr ⟨fun a ha => ?_, last, ?_, haccepted, ?_⟩
    · obtain ⟨a, hmem, rfl⟩ := List.mem_map.mp (hpermA.mem_iff.mp ha)
      exact hpins a hmem
    · rw [hsort]
      exact hhistory.chain
    · rw [hsort]
  · simp [replayed]

/-- The loop throws exactly at a checked advance whose patch does not decode. -/
theorem CheckedPatchesDecode.returns (hdecode : CheckedPatchesDecode keccak256 S opts parent logs)
    {advances : List CoreTexStateAdvancedEvent} {finalized : List CoreTexEpochFinalizedEvent}
    (h : Decodes keccak256 logs advances finalized) :
    ∃ result, replayCoreTexFromLogs keccak256 S opts parent logs = .ok result := by
  rw [replayCoreTexFromLogs_decodes S h]
  cases hrun : replayEvents keccak256 S opts parent advances finalized with
  | ok result => exact ⟨result, rfl⟩
  | error stop =>
      cases stop with
      | failed result => exact ⟨result, rfl⟩
      | thrown e =>
          have hlower : ∀ a ∈ S.sort cmpAdvances advances, LowerAdvance a := fun a ha =>
            h.lowerAdvance a ((S.mem_sort cmpAdvances).mp ha)
          rw [replayEvents, bind_eq_error] at hrun
          rcases hrun with hrun | ⟨loop, -, hrun⟩
          · obtain ⟨pre, adv, post, loop, hsplit, hpre, hadv⟩ := foldlM_eq_error.mp hrun
            rw [hsplit] at hlower
            obtain ⟨hpins, last, hchain, rfl⟩ := (replayLoop_eq_ok fun a ha =>
              hlower a (List.mem_append_left _ ha)).mp hpre
            obtain ⟨hchecked, hnone⟩ := (replayAdvance_eq_thrown rfl
              (hlower adv (by simp))).mp ⟨e, hadv⟩
            obtain ⟨patch, hpatch⟩ :=
              hdecode advances finalized pre adv post last h hsplit hpins hchain hchecked
            exact absurd hpatch (hnone patch)
          · exact (replayFinish_fails loop _ _ hrun).elim

section Necessary

variable (hexact : ReplayExact keccak256 S opts parent logs)
include hexact

theorem ReplayExact.lastFinalizedEndsLast (htopics : eventTopic keccak256 sigStateAdvanced ≠
      eventTopic keccak256 sigEpochFinalized) :
    LastFinalizedEndsLast keccak256 opts parent logs := by
  intro advances finalized last hhistory hlists hpins hpinsF f hf hmax
  obtain ⟨result, hrun, hok, -, hroot⟩ :=
    hexact.histories advances finalized last hhistory hlists hpins hpinsF
  obtain ⟨as, fs, hdecodes, -, hpermF⟩ := hlists.decodes htopics
  obtain ⟨as', fs', hdecodes', hevents⟩ := (replayCoreTexFromLogs_eq_ok S hok).mp hrun
  obtain ⟨rfl, rfl⟩ := hdecodes.unique hdecodes'
  obtain ⟨-, last', -, haccepted, rfl⟩ := (replayEvents_eq_ok S hdecodes).mp hevents
  have honce : (fs.map (·.epoch)).Nodup := (hpermF.map _).nodup_iff.mpr hhistory.finalizedOnce
  have hfmem : f.toEvent ∈ fs := hpermF.mem_iff.mpr (List.mem_map_of_mem hf)
  have hfinal := lastFinalized_eq (S := S) honce hfmem fun g hg => by
    obtain ⟨g, hmem, rfl⟩ := List.mem_map.mp (hpermF.mem_iff.mp hg)
    have := hmax g hmem
    simpa [AbiFinalized.toEvent] using this
  rw [← Option.some.inj hroot, ← (haccepted f.toEvent hfinal).2]
  exact (hhistory.finalizedRoots f.toEvent (List.mem_map_of_mem hf)).symm

theorem ReplayExact.finalizationsNameTheirEpochs :
    FinalizationsNameTheirEpochs keccak256 S opts parent logs := by
  intro advances finalized last hdecodes hpins hchain haccepted
  have hrun := (replayCoreTexFromLogs_eq_ok S rfl).mpr ⟨advances, finalized, hdecodes,
    (replayEvents_eq_ok S hdecodes).mpr ⟨hpins, last, hchain, haccepted, rfl⟩⟩
  obtain ⟨as, fs, -, hdecodes', -, -, hroots⟩ := hexact.onlyHistories _ hrun rfl
  obtain ⟨rfl, rfl⟩ := hdecodes.unique hdecodes'
  exact hroots

theorem ReplayExact.checkedPatchesDecode : CheckedPatchesDecode keccak256 S opts parent logs := by
  intro advances finalized pre adv post last hdecodes hsplit hpins hchain hchecked
  by_contra hnone
  have hlower : ∀ a ∈ S.sort cmpAdvances advances, LowerAdvance a := fun a ha =>
    hdecodes.lowerAdvance a ((S.mem_sort cmpAdvances).mp ha)
  rw [hsplit] at hlower
  have hpre := (@replayLoop_eq_ok keccak256 opts _ pre (fun a ha =>
    hlower a (List.mem_append_left _ ha)) _).mpr ⟨hpins, last, hchain, rfl⟩
  obtain ⟨e, hadv⟩ := (replayAdvance_eq_thrown rfl (hlower adv (by simp))).mpr
    ⟨hchecked, fun patch hpatch => hnone ⟨patch, hpatch⟩⟩
  have hloop := foldlM_eq_error.mpr ⟨pre, adv, post, _, hsplit, hpre, hadv⟩
  obtain ⟨result, hrun⟩ := hexact.returns advances finalized hdecodes
  rw [replayCoreTexFromLogs_decodes S hdecodes, replayEvents, hloop] at hrun
  exact nomatch hrun

end Necessary

/-- An accepted list is a history whose finalizations name their epochs, when they do wherever
the last one is accepted. -/
theorem FinalizationsNameTheirEpochs.onlyHistories
    (hnames : FinalizationsNameTheirEpochs keccak256 S opts parent logs)
    {result : CoreTexReplayResult}
    (hrun : replayCoreTexFromLogs keccak256 S opts parent logs = .ok result)
    (hok : result.ok = true) :
    ∃ advances finalized last, Decodes keccak256 logs advances finalized ∧
      ((S.sort cmpAdvances advances).Pairwise fun a b => a.epoch ≤ b.epoch) ∧
      AdvanceChain keccak256 opts.policyAtomsMode parent (S.sort cmpAdvances advances) last ∧
      FinalizedRootsLive (rootHex keccak256 parent) (S.sort cmpAdvances advances) finalized := by
  obtain ⟨advances, finalized, hdecodes, hevents⟩ := (replayCoreTexFromLogs_eq_ok S hok).mp hrun
  obtain ⟨hpins, last, hchain, haccepted, -⟩ := (replayEvents_eq_ok S hdecodes).mp hevents
  refine ⟨advances, finalized, last, hdecodes, ?_, hchain,
    hnames advances finalized last hdecodes hpins hchain haccepted⟩
  refine (S.sorted cmpAdvances advances consistent_cmpAdvances).imp fun {a b} hab => ?_
  rw [cmpAdvances_nonpos] at hab
  omega

end Exact

/-! ### Two lists the replay does not settle -/

section Failing

/-- No pin is asked for. -/
def ReplayOpts.none : ReplayOpts := ⟨.none, .none, .none, .none, .none, false⟩

theorem length_zeroBytes : (List.replicate 32 (0 : UInt8)).length = 32 :=
  List.length_replicate

def zeroDigest : Digest := ⟨List.replicate 32 0, length_zeroBytes⟩

/-- Every byte the other way. -/
def Digest.complement (d : Digest) : Digest :=
  ⟨d.bytes.map (~~~ ·), by rw [List.length_map, d.length_bytes]⟩

theorem Digest.complement_ne (d : Digest) : d.complement ≠ d := by
  intro h
  have hbytes : d.bytes.map (~~~ ·) = d.bytes := congrArg Digest.bytes h
  obtain ⟨b, rest, hb⟩ : ∃ b rest, d.bytes = b :: rest := by
    cases hd : d.bytes with
    | nil =>
        have := d.length_bytes
        rw [hd] at this
        exact nomatch this
    | cons b rest => exact ⟨b, rest, rfl⟩
  rw [hb, List.map_cons, List.cons.injEq] at hbytes
  have hnot := congrArg UInt8.toNat hbytes.1
  rw [UInt8.toNat_not] at hnot
  have hlt : b.toNat < 256 := b.toNat_lt
  rw [UInt8.size] at hnot
  omega

variable (keccak256 : Bytes → Digest) (parent : CortexState)

/-- An advance of one byte that is no patch, under its own hash. -/
def undecodableAdvance : AbiAdvance where
  epoch := 0
  transitionIndex := 0
  miner := List.replicate 20 0
  parentStateRoot := merkleizeState keccak256 parent
  newStateRoot := zeroDigest
  patchHash := keccak256 (encodeUtf8 patchHashDomainPrefix ++ [1])
  evalReportHash := zeroDigest
  coreVersionHash := zeroDigest
  corpusRoot := zeroDigest
  activeFrontierRoot := zeroDigest
  improvementCredits := 0
  wordCount := 1
  compactPatchBytes := [1]
  epoch_lt := by decide
  transitionIndex_lt := by decide
  length_miner := List.length_replicate
  improvementCredits_lt := by decide
  wordCount_lt := by decide
  length_patch_lt := by decide

/-- A finalization of an epoch with this root. -/
def finalizationOf (epoch : Nat) (h : epoch < 2 ^ 64) (root : Digest) : AbiFinalized where
  epoch
  parentStateRoot := merkleizeState keccak256 parent
  finalStateRoot := root
  coreVersionHash := zeroDigest
  corpusRoot := zeroDigest
  activeFrontierRoot := zeroDigest
  patchSetRoot := zeroDigest
  scoreRoot := zeroDigest
  baselineManifestHash := zeroDigest
  epoch_lt := h

/-- Epochs 0 and 1 finalized without an advance: the first under a wrong root, the second
under the parent's. -/
def misfinalizedLogs : List RpcLog :=
  [(finalizationOf keccak256 parent 0 (by decide)
      (merkleizeState keccak256 parent).complement).toLog keccak256,
    (finalizationOf keccak256 parent 1 (by decide)
      (merkleizeState keccak256 parent)).toLog keccak256]

variable {keccak256 parent} {S : CompareSort}

theorem not_checkedPatchesDecode (htopics : eventTopic keccak256 sigStateAdvanced ≠
      eventTopic keccak256 sigEpochFinalized) :
    ¬ CheckedPatchesDecode keccak256 S .none parent
      [(undecodableAdvance keccak256 parent).toLog keccak256] := by
  intro hdecode
  let adv := (undecodableAdvance keccak256 parent).toEvent
  have hdecodes : Decodes keccak256 [(undecodableAdvance keccak256 parent).toLog keccak256]
      [adv] [] := by
    refine ⟨[some adv], [none], ?_, ?_, rfl, rfl⟩
    · rw [List.mapM_cons, decodeCoreTexStateAdvanced_toLog]
      rfl
    · rw [List.mapM_cons, AbiAdvance.decodeFinalized_toLog htopics]
      rfl
  have hsort : S.sort cmpAdvances [adv] = [] ++ adv :: [] :=
    S.sort_eq_self consistent_cmpAdvances (List.pairwise_singleton _ _) (by simp)
  have hchecked : AdvanceChecked keccak256 .none (chainLoop keccak256 [] parent) adv :=
    ⟨rfl, ⟨rfl, rfl, rfl⟩, rfl, Nat.one_ne_zero, rfl, rfl⟩
  obtain ⟨patch, hpatch⟩ :=
    hdecode [adv] [] [] adv [] parent hdecodes hsort (by simp) .start hchecked
  exact nomatch hpatch

theorem not_finalizationsNameTheirEpochs (htopics : eventTopic keccak256 sigStateAdvanced ≠
      eventTopic keccak256 sigEpochFinalized) :
    ¬ FinalizationsNameTheirEpochs keccak256 S .none parent (misfinalizedLogs keccak256 parent) := by
  intro hnames
  let wrong := (finalizationOf keccak256 parent 0 (by decide)
    (merkleizeState keccak256 parent).complement).toEvent
  let right := (finalizationOf keccak256 parent 1 (by decide)
    (merkleizeState keccak256 parent)).toEvent
  have hdecodes : Decodes keccak256 (misfinalizedLogs keccak256 parent) [] [wrong, right] := by
    refine ⟨[none, none], [some wrong, some right], ?_, ?_, rfl, rfl⟩
    · rw [misfinalizedLogs, List.mapM_cons, List.mapM_cons,
        AbiFinalized.decodeAdvanced_toLog htopics, AbiFinalized.decodeAdvanced_toLog htopics]
      rfl
    · rw [misfinalizedLogs, List.mapM_cons, List.mapM_cons, decodeCoreTexEpochFinalized_toLog,
        decodeCoreTexEpochFinalized_toLog]
      rfl
  have hsort : S.sort cmpAdvances [] = [] := List.eq_nil_of_length_eq_zero (S.perm _ _).length_eq
  have honce : ([wrong, right].map (·.epoch)).Nodup := by
    show ([0, 1] : List Int).Nodup
    decide
  have hmax : ∀ g ∈ [wrong, right], g.epoch ≤ right.epoch := by
    intro g hg
    rw [List.mem_cons, List.mem_singleton] at hg
    rcases hg with rfl | rfl
    · exact Int.zero_le_ofNat 1
    · exact le_refl _
  have hlast : lastFinalized S [wrong, right] = some right :=
    lastFinalized_eq honce (by simp) hmax
  have haccepted : FinalAccepted keccak256 .none parent (lastFinalized S [wrong, right]) := by
    intro f hf
    rw [hlast, Option.some.injEq] at hf
    subst hf
    exact ⟨⟨rfl, rfl, rfl, rfl⟩, rfl⟩
  have hroots := hnames [] [wrong, right] parent hdecodes (by simp) (by rw [hsort]; exact .start)
    haccepted
  have hwrong : bytesToHex (merkleizeState keccak256 parent).complement.bytes =
      bytesToHex (merkleizeState keccak256 parent).bytes := by
    have := hroots wrong (by simp)
    rw [hsort] at this
    exact this
  refine (merkleizeState keccak256 parent).complement_ne ?_
  rw [Digest.mk.injEq]
  exact bytesToHex_injective hwrong

end Failing

/-- The two topics under the last bytes of their signatures. -/
theorem tailDigest_topics :
    eventTopic tailDigest sigStateAdvanced ≠ eventTopic tailDigest sigEpochFinalized := by
  decide +kernel

theorem length_zeroWords :
    (List.replicate Ranges.wordCount (0 : Int)).length = Ranges.wordCount :=
  List.length_replicate

/-- The all-zero state. -/
def emptyState : CortexState := ⟨List.replicate Ranges.wordCount 0, length_zeroWords⟩

end CoreTex
