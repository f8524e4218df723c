import CoreTex.Substrate.Slots

/-!
# CoreTex.Substrate.RoundTrip

Which encoded slots the region decoders read back.

Each encoder's word is written as a weighted sum of its fields, from which the decoder's reads
follow by arithmetic.
-/

namespace CoreTex

open CoreTex.Lib

/-! ### Writing one slot -/

theorem word_write_here (state : CortexState) {base : Nat} (h : base < Ranges.wordCount)
    (w : Int) : (state.write [(base, w)]).word base = w :=
  state.word_write_of_mem (by simp) (by simp) h

theorem word_write_elsewhere (state : CortexState) {base i : Nat} (h : i ≠ base) (w : Int) :
    (state.write [(base, w)]).word i = state.word i :=
  state.word_write_of_not_mem (by simpa using h)

/-! ### Memory index slots -/

/-- A position of the memory index is decoded from its word. -/
theorem memoryIndexAt_congr {state state' : CortexState} {s : Nat}
    (h : state.word (Ranges.memoryIndexStart + s) = state'.word (Ranges.memoryIndexStart + s)) :
    memoryIndexAt state s = memoryIndexAt state' s := by
  simp only [memoryIndexAt, memoryIndexWordsPerSlot, Nat.mul_one, paddingClear, h]
  rfl

/-- What a memory index slot that is encoded satisfies, and its word. -/
theorem encodeMemoryIndexSlot_inv {slot : MemoryIndexSlot} {words : List Int}
    (h : encodeMemoryIndexSlot slot = .ok words) :
    ∃ flags, flags = pack [(bit slot.valid 0x0001, 0), (bit slot.revoked 0x0002, 0),
        (bit slot.protected_ 0x0004, 0), (bit slot.policyAnchor 0x0008, 0)] ∧
      (0 ≤ slot.recordId ∧ slot.recordId < 2 ^ 128) ∧
      (0 ≤ slot.domainBits ∧ slot.domainBits < 2 ^ 60) ∧
      (0 ≤ slot.retrievalSlot ∧ slot.retrievalSlot < 36) ∧
      (0 ≤ slot.expiryEpoch ∧ slot.expiryEpoch < 2 ^ 40) ∧
      words = [slot.recordId * 2 ^ 128 + ((familyToBits slot.family * 2 ^ 60 + slot.domainBits) *
        2 ^ 64 + (flags * 2 ^ 48 + (slot.retrievalSlot * 2 ^ 40 + slot.expiryEpoch))),
        0, 0, 0, 0, 0, 0, 0] := by
  obtain ⟨hrecord, h⟩ := refuseIf_bind_eq_ok.mp h
  obtain ⟨hdomain, h⟩ := refuseIf_bind_eq_ok.mp h
  obtain ⟨hretrieval, h⟩ := refuseIf_bind_eq_ok.mp h
  obtain ⟨hexpiry, h⟩ := refuseIf_bind_eq_ok.mp h
  rw [not_not, shiftRight_eq_zero] at hrecord hdomain hexpiry
  rw [retrievalKeySlotCount] at hretrieval
  have hfamily : 0 ≤ familyToBits slot.family ∧ familyToBits slot.family < 16 := by
    cases slot.family <;> decide
  have hflags : ∀ a b c d : Bool, 0 ≤ pack [(bit a 0x0001, 0), (bit b 0x0002, 0),
      (bit c 0x0004, 0), (bit d 0x0008, 0)] ∧ pack [(bit a 0x0001, 0), (bit b 0x0002, 0),
      (bit c 0x0004, 0), (bit d 0x0008, 0)] < 16 := by
    decide
  refine ⟨_, rfl, hrecord, hdomain, by omega, hexpiry, ?_⟩
  have hflags := hflags slot.valid slot.revoked slot.protected_ slot.policyAnchor
  generalize pack [(bit slot.valid 0x0001, 0), (bit slot.revoked 0x0002, 0),
    (bit slot.protected_ 0x0004, 0), (bit slot.policyAnchor 0x0008, 0)] = flags at h hflags ⊢
  have hlow : pack [(slot.domainBits, 0)] = slot.domainBits := by
    rw [pack_singleton hdomain.1, Int.pow_zero, Int.mul_one]
  have hbottom : pack [(slot.expiryEpoch, 0)] = slot.expiryEpoch := by
    rw [pack_singleton hexpiry.1, Int.pow_zero, Int.mul_one]
  have hfamilyDomain := pack_cons (s := 60) hlow hfamily.1 hdomain.1 hdomain.2
  have h40 := pack_cons (v := slot.retrievalSlot) (s := 40) hbottom (by omega) hexpiry.1 hexpiry.2
  have h48 := pack_cons (v := flags) (s := 48) h40 hflags.1 (by omega) (by omega)
  have h64 := pack_cons (v := pack [(familyToBits slot.family, 60), (slot.domainBits, 0)])
    (s := 64) h48 (by omega) (by omega) (by omega)
  have h128 := pack_cons (v := slot.recordId) (s := 128) h64 hrecord.1 (by omega) (by omega)
  rw [← hfamilyDomain, ← h128]
  cases h
  rfl

theorem familyByBits_familyToBits (f : SubstrateFamily) :
    familyByBits (familyToBits f) = some f := by
  cases f <;> rfl

/-- **Memory index slots** come back exactly when their record id is not zero. -/
theorem memoryIndexSlot_roundTrips (state : CortexState) {slot : MemoryIndexSlot}
    {words : List Int} (h : encodeMemoryIndexSlot slot = .ok words) (hvalid : slot.valid = true)
    {i : Nat} (hi : i < memoryIndexSlotCount) :
    RoundTrips memoryIndexSlotCount (memoryIndexAt state)
      (memoryIndexAt (state.write [(Ranges.memoryIndexStart + i, words.headD 0)])) i
      { slot with slotIndex := i } words ↔ slot.recordId ≠ 0 := by
  have hbase : Ranges.memoryIndexStart + i < Ranges.wordCount := by
    rw [memoryIndexSlotCount] at hi
    rw [Ranges.memoryIndexStart, Ranges.wordCount]
    omega
  rw [roundTrips_iff hi fun k hk hne =>
    memoryIndexAt_congr (word_write_elsewhere state (by omega) _)]
  obtain ⟨flags, hflags, hrecord, hdomain, hretrieval, hexpiry, rfl⟩ :=
    encodeMemoryIndexSlot_inv h
  have hfamily : 0 ≤ familyToBits slot.family ∧ familyToBits slot.family < 16 := by
    cases slot.family <;> decide
  have hbits : ∀ b c d : Bool, ∃ flags : Int, flags = pack [(bit true 0x0001, 0),
      (bit b 0x0002, 0), (bit c 0x0004, 0), (bit d 0x0008, 0)] ∧ 0 < flags ∧ flags < 16 ∧
      decide (Int.land flags 0x0001 ≠ 0) = true ∧ decide (Int.land flags 0x0002 ≠ 0) = b ∧
      decide (Int.land flags 0x0004 ≠ 0) = c ∧ decide (Int.land flags 0x0008 ≠ 0) = d :=
    fun b c d => ⟨_, rfl, by revert b c d; decide⟩
  obtain ⟨flags', hflags', hpos, hlt, hone, htwo, hfour, height⟩ :=
    hbits slot.revoked slot.protected_ slot.policyAnchor
  rw [hvalid, ← hflags'] at hflags
  subst hflags
  generalize hw : slot.recordId * 2 ^ 128 + ((familyToBits slot.family * 2 ^ 60 +
    slot.domainBits) * 2 ^ 64 + (flags * 2 ^ 48 + (slot.retrievalSlot * 2 ^ 40 +
      slot.expiryEpoch))) = w at *
  have hnonneg : 0 ≤ w := by omega
  have hzero : w ≠ 0 := by omega
  have hword : (state.write [(Ranges.memoryIndexStart + i, w)]).word
      (Ranges.memoryIndexStart + i) = w := word_write_here state hbase w
  have h128 : field w 128 128 = slot.recordId := by
    rw [field_eq hnonneg]
    omega
  have h124 : field w 124 4 = familyToBits slot.family := by
    rw [field_eq hnonneg]
    omega
  have h64 : field w 64 60 = slot.domainBits := by
    rw [field_eq hnonneg]
    omega
  have h48 : field w 48 16 = flags := by
    rw [field_eq hnonneg]
    omega
  have h40 : field w 40 8 = slot.retrievalSlot := by
    rw [field_eq hnonneg]
    omega
  have h0 : field w 0 40 = slot.expiryEpoch := by
    rw [field_eq hnonneg]
    omega
  have hdecoded : memoryIndexAt (state.write [(Ranges.memoryIndexStart + i, w)]) i =
      if slot.recordId = 0 then .failed else .decoded { slot with slotIndex := i } := by
    have hretrieval' : ¬ slot.retrievalSlot ≥ retrievalKeySlotCount := by
      rw [retrievalKeySlotCount]
      omega
    simp only [memoryIndexAt, memoryIndexWordsPerSlot, Nat.mul_one, hword, if_neg hzero, h128,
      h124, familyByBits_familyToBits, h64, h48, hone, htwo, hfour, height, h40, h0,
      if_neg hretrieval', paddingClear]
    rw [hvalid]
    rfl
  show _ ∧ memoryIndexAt (state.write [(Ranges.memoryIndexStart + i, w)]) i = _ ↔ _
  rw [hdecoded]
  constructor
  · intro hboth hzero'
    have hhere := hboth.2
    rw [if_pos hzero'] at hhere
    cases hhere
  · intro hne
    refine ⟨fun v hv => ?_, if_neg hne⟩
    simp only [List.mem_cons, List.not_mem_nil, or_false] at hv
    omega

/-! ### Relations -/

theorem relationAt_congr {state state' : CortexState} {i : Nat}
    (h : state.word (Ranges.relationsStart + i) = state'.word (Ranges.relationsStart + i)) :
    relationAt state i = relationAt state' i := by
  simp only [relationAt, h]

theorem relationTypeByBits_relationTypeToBits (t : RelationEdgeType) :
    relationTypeByBits (relationTypeToBits t) = some t := by
  cases t <;> rfl

theorem relationTypeToBits_bounds (t : RelationEdgeType) :
    0 < relationTypeToBits t ∧ relationTypeToBits t < 7 := by
  cases t <;> decide

/-- The low bits of a number that has no others. -/
theorem land_low {v : Int} {n : Nat} (h : 0 ≤ v) (hlt : v < 2 ^ n) :
    Int.land v (2 ^ n - 1) = v := by
  have hfield := field_eq h 0 n
  rw [field, Int.pow_zero, Int.ediv_one, Int.emod_eq_of_lt h hlt] at hfield
  rwa [Int.shiftRight_zero] at hfield

theorem relationsStart_add_lt {i : Nat} (hi : i < relationsEntryCount) :
    Ranges.relationsStart + i < Ranges.wordCount := by
  rw [relationsEntryCount] at hi
  rw [Ranges.relationsStart, Ranges.wordCount]
  omega

/-- **Relation edges** come back exactly when both their slots are below 256. -/
theorem relationEdge_roundTrips (state : CortexState) {edge : RelationEdge} {w : Int}
    (h : encodeRelationEdge edge = .ok w) {i : Nat} (hi : i < relationsEntryCount) :
    RoundTrips relationsEntryCount (relationAt state)
      (relationAt (state.write [(Ranges.relationsStart + i, w)])) i
      (.edge { edge with entryIndex := i }) [w] ↔
        edge.sourceSlot < 256 ∧ edge.targetSlot < 256 := by
  have hbase := relationsStart_add_lt hi
  rw [roundTrips_iff hi fun k hk hne =>
    relationAt_congr (word_write_elsewhere state (by omega) _)]
  obtain ⟨hweight, h⟩ := refuseIf_bind_eq_ok.mp h
  obtain ⟨hsource, h⟩ := refuseIf_bind_eq_ok.mp h
  obtain ⟨htarget, h⟩ := refuseIf_bind_eq_ok.mp h
  have hcount : memoryIndexSlotCount = 352 := rfl
  have htype := relationTypeToBits_bounds edge.edgeType
  have h0 : pack [(edge.targetSlot, 0)] = edge.targetSlot := by
    rw [pack_singleton (by omega), Int.pow_zero, Int.mul_one]
  have h96 := pack_cons (v := edge.sourceSlot) (s := 96) h0 (by omega) (by omega) (by omega)
  have h224 := pack_cons (v := relationTypeToBits edge.edgeType) (s := 224) h96 (by omega)
    (by omega) (by omega)
  have h240 := pack_cons (v := edge.weight) (s := 240) h224 (by omega) (by omega) (by omega)
  rw [h240, Except.ok.injEq] at h
  have hnonneg : 0 ≤ w := by omega
  have hzero : w ≠ 0 := by omega
  have hword := word_write_here state hbase w
  have hfield : ∀ s n, field w s n = w / 2 ^ s % 2 ^ n := field_eq hnonneg
  have hf240 : field w 240 16 = edge.weight := by
    rw [hfield]
    omega
  have hf224 : field w 224 16 = relationTypeToBits edge.edgeType := by
    rw [hfield]
    omega
  have hf208 : field w 208 16 = 0 := by
    rw [hfield]
    omega
  have hf192 : field w 192 16 = 0 := by
    rw [hfield]
    omega
  have hf96 : field w 96 96 = edge.sourceSlot := by
    rw [hfield]
    omega
  have hf0 : field w 0 96 = edge.targetSlot := by
    rw [hfield]
    omega
  have hweight0 : edge.weight ≠ 0 := by omega
  have hlens : ¬ decide ((0 : Int) >>> (15 : Nat) = 1) = true := by decide
  have hreserved : ¬ Int.land 0 0x7FFF ≠ 0 := by decide
  have hat : relationAt (state.write [(Ranges.relationsStart + i, w)]) i =
      if edge.sourceSlot >>> (8 : Nat) ≠ 0 then .failed
      else if edge.targetSlot >>> (8 : Nat) ≠ 0 then .failed
      else if Int.land edge.sourceSlot 0xff ≥ memoryIndexSlotCount ∨
          Int.land edge.targetSlot 0xff ≥ memoryIndexSlotCount then .failed
      else .decoded (.edge
        { entryIndex := i, weight := edge.weight, edgeType := edge.edgeType,
          sourceSlot := Int.land edge.sourceSlot 0xff,
          targetSlot := Int.land edge.targetSlot 0xff }) := by
    simp only [relationAt, hword, if_neg hzero, hf240, if_neg hweight0, hf224,
      relationTypeByBits_relationTypeToBits, hf208, if_neg hreserved, hf192, hf96, hf0, hlens]
    rfl
  rw [hat]
  simp only [ne_eq, shiftRight_eq_zero]
  constructor
  · intro hboth
    have hhere := hboth.2
    split at hhere
    · cases hhere
    next hs =>
      split at hhere
      · cases hhere
      next ht =>
        rw [not_not] at hs ht
        exact ⟨by omega, by omega⟩
  · intro ⟨hs, ht⟩
    have hls : Int.land edge.sourceSlot 0xff = edge.sourceSlot :=
      land_low (n := 8) (by omega) (by omega)
    have hlt : Int.land edge.targetSlot 0xff = edge.targetSlot :=
      land_low (n := 8) (by omega) (by omega)
    refine ⟨fun v hv => ?_, ?_⟩
    · rw [List.mem_singleton.mp hv]
      omega
    · rw [hls, hlt, if_neg (by omega), if_neg (by omega), if_neg (by omega)]

/-- **Category lenses** always come back. -/
theorem relationCategoryLens_roundTrips (state : CortexState) {lens : RelationCategoryLens}
    {w : Int} (h : encodeRelationCategoryLens lens = .ok w) {i : Nat}
    (hi : i < relationsEntryCount) :
    RoundTrips relationsEntryCount (relationAt state)
      (relationAt (state.write [(Ranges.relationsStart + i, w)])) i
      (.categoryLens { lens with entryIndex := i }) [w] := by
  have hbase := relationsStart_add_lt hi
  rw [roundTrips_iff hi fun k hk hne =>
    relationAt_congr (word_write_elsewhere state (by omega) _)]
  obtain ⟨hweight, h⟩ := refuseIf_bind_eq_ok.mp h
  have htype := relationTypeToBits_bounds lens.edgeType
  have h223 : pack [(1, 223)] = 1 * 2 ^ 223 := pack_singleton (by decide)
  have h224 := pack_cons (v := relationTypeToBits lens.edgeType) (s := 224) h223 (by omega)
    (by omega) (by omega)
  have h240 := pack_cons (v := lens.weight) (s := 240) h224 (by omega) (by omega) (by omega)
  rw [h240, Except.ok.injEq] at h
  have hnonneg : 0 ≤ w := by omega
  have hzero : w ≠ 0 := by omega
  have hword := word_write_here state hbase w
  have hfield : ∀ s n, field w s n = w / 2 ^ s % 2 ^ n := field_eq hnonneg
  have hf240 : field w 240 16 = lens.weight := by
    rw [hfield]
    omega
  have hf224 : field w 224 16 = relationTypeToBits lens.edgeType := by
    rw [hfield]
    omega
  have hf208 : field w 208 16 = 0x8000 := by
    rw [hfield]
    omega
  have hf192 : field w 192 16 = 0 := by
    rw [hfield]
    omega
  have hf96 : field w 96 96 = 0 := by
    rw [hfield]
    omega
  have hf0 : field w 0 96 = 0 := by
    rw [hfield]
    omega
  have hweight0 : lens.weight ≠ 0 := by omega
  have hlens : decide ((0x8000 : Int) >>> (15 : Nat) = 1) = true := by decide
  have hreserved : ¬ Int.land 0x8000 0x7FFF ≠ 0 := by decide
  refine ⟨fun v hv => ?_, ?_⟩
  · rw [List.mem_singleton.mp hv]
    omega
  · simp only [relationAt, hword, if_neg hzero, hf240, if_neg hweight0, hf224,
      relationTypeByBits_relationTypeToBits, hf208, if_neg hreserved, hf192, hf96, hf0, hlens]
    rfl

/-! ### Temporal records -/

theorem temporalAt_congr {state state' : CortexState} {r : Nat}
    (h : state.word (Ranges.temporalStart + r) = state'.word (Ranges.temporalStart + r)) :
    temporalAt state r = temporalAt state' r := by
  simp only [temporalAt, temporalWordsPerRecord, Nat.mul_one, paddingClear, h]
  rfl

/-- A temporal record whose fields are all zero, and whose flag is not set. -/
def TemporalRecord.Blank (record : TemporalRecord) : Prop :=
  record.memorySlot = 0 ∧ record.supersededBy = 0 ∧ record.validUntilEpoch = 0 ∧
    record.currentStaleFlag = false

/-- **Temporal records** come back exactly when their memory slot is below 256 and they are not
blank. -/
theorem temporalRecord_roundTrips (state : CortexState) {record : TemporalRecord}
    {words : List Int} (h : encodeTemporalRecord record = .ok words) {i : Nat}
    (hi : i < temporalRecordCount) :
    RoundTrips temporalRecordCount (temporalAt state)
      (temporalAt (state.write [(Ranges.temporalStart + i, words.headD 0)])) i
      { record with recordIndex := i } words ↔ record.memorySlot < 256 ∧ ¬ record.Blank := by
  have hcountRecords : temporalRecordCount = 96 := rfl
  have hbase : Ranges.temporalStart + i < Ranges.wordCount := by
    rw [Ranges.temporalStart, Ranges.wordCount]
    omega
  rw [roundTrips_iff hi fun k hk hne =>
    temporalAt_congr (word_write_elsewhere state (by omega) _)]
  obtain ⟨hmemory, h⟩ := refuseIf_bind_eq_ok.mp h
  obtain ⟨hsuperseded, h⟩ := refuseIf_bind_eq_ok.mp h
  obtain ⟨hordered, h⟩ := refuseIf_bind_eq_ok.mp h
  obtain ⟨hepochs, h⟩ := refuseIf_bind_eq_ok.mp h
  rw [not_or, not_not, not_not, shiftRight_eq_zero, shiftRight_eq_zero] at hepochs
  have hcount : memoryIndexSlotCount = 352 := rfl
  have hflag : 0 ≤ bit record.currentStaleFlag 0x01 ∧ bit record.currentStaleFlag 0x01 < 2 ∧
      decide (Int.land (bit record.currentStaleFlag 0x01) 0x01 ≠ 0) = record.currentStaleFlag ∧
      (bit record.currentStaleFlag 0x01 = 0 ↔ record.currentStaleFlag = false) := by
    cases record.currentStaleFlag <;> decide
  obtain ⟨hflag0, hflag1, hflagRead, hflagZero⟩ := hflag
  have h152 := pack_singleton (v := bit record.currentStaleFlag 0x01) (s := 152) hflag0
  have h160 := pack_cons (v := record.validUntilEpoch) (s := 160) h152 (by omega) (by omega)
    (by omega)
  have h200 := pack_cons (v := record.validFromEpoch) (s := 200) h160 (by omega) (by omega)
    (by omega)
  have h240 := pack_cons (v := record.supersededBy) (s := 240) h200 (by omega) (by omega)
    (by omega)
  have h248 := pack_cons (v := record.memorySlot) (s := 248) h240 (by omega) (by omega) (by omega)
  dsimp only at h
  rw [h248, Except.ok.injEq] at h
  subst h
  generalize hflagBit : bit record.currentStaleFlag 0x01 = flag at *
  generalize hw : record.memorySlot * 2 ^ 248 + (record.supersededBy * 2 ^ 240 +
    (record.validFromEpoch * 2 ^ 200 + (record.validUntilEpoch * 2 ^ 160 + flag * 2 ^ 152))) = w
    at *
  have hnonneg : 0 ≤ w := by omega
  have hword := word_write_here state hbase w
  have hfield : ∀ s n, field w s n = w / 2 ^ s % 2 ^ n := field_eq hnonneg
  have hf248 : record.memorySlot < 256 → field w 248 8 = record.memorySlot := by
    intro hlt
    rw [hfield]
    omega
  have hf240 : field w 240 8 = record.supersededBy := by
    rw [hfield]
    omega
  have hf200 : field w 200 40 = record.validFromEpoch := by
    rw [hfield]
    omega
  have hf160 : field w 160 40 = record.validUntilEpoch := by
    rw [hfield]
    omega
  have hf152 : field w 152 8 = flag := by
    rw [hfield]
    omega
  have hf0 : ¬ field w 0 152 ≠ 0 := by
    rw [hfield]
    omega
  show (∀ v ∈ [w], 0 ≤ v ∧ v < 2 ^ 256) ∧
    temporalAt (state.write [(Ranges.temporalStart + i, w)]) i = _ ↔ _
  constructor
  · intro hboth
    have hfits := (hboth.1 w List.mem_cons_self).2
    refine ⟨by omega, fun hblank => ?_⟩
    obtain ⟨hm, hs, hu, hf⟩ := hblank
    have hzero : w = 0 := by
      have := hflagZero.mpr hf
      omega
    have hhere := hboth.2
    simp only [temporalAt, temporalWordsPerRecord, Nat.mul_one, hword, if_pos hzero] at hhere
    cases hhere
  · intro ⟨hlt, hblank⟩
    have hzero : w ≠ 0 := by
      intro hzero
      refine hblank ⟨by omega, by omega, by omega, hflagZero.mp (by omega)⟩
    have hslot : ¬ record.memorySlot ≥ memoryIndexSlotCount := by omega
    refine ⟨fun v hv => ?_, ?_⟩
    · rw [List.mem_singleton.mp hv]
      omega
    · simp only [temporalAt, temporalWordsPerRecord, Nat.mul_one, hword, if_neg hzero, hf248 hlt,
        hf240, hf200, hf160, hf152, if_neg hf0, if_neg hslot, if_neg hordered, hflagRead,
        paddingClear]
      rfl

/-! ### Codebook entries -/

theorem codebookAt_congr {state state' : CortexState} {i : Nat}
    (h : state.word (Ranges.codebookStart + i * 2) = state'.word (Ranges.codebookStart + i * 2))
    (h' : state.word (Ranges.codebookStart + i * 2 + 1) =
      state'.word (Ranges.codebookStart + i * 2 + 1)) :
    codebookAt state i = codebookAt state' i := by
  simp only [codebookAt, codebookWordsPerEntry, h, h']
  rfl

theorem codeTypeByBits_codeTypeToBits (t : CodeType) :
    codeTypeByBits (codeTypeToBits t) = some t := by
  cases t <;> rfl

/-- **Codebook entries** come back exactly when their second word is a 256-bit word. -/
theorem codebookEntry_roundTrips (state : CortexState) {entry : CodebookEntry}
    {words : List Int} (h : encodeCodebookEntry entry = .ok words) (hvalid : entry.valid = true)
    {i : Nat} (hi : i < codebookEntryCount) :
    RoundTrips codebookEntryCount (codebookAt state)
      (codebookAt (state.write [(Ranges.codebookStart + i * 2, words.headD 0),
        (Ranges.codebookStart + i * 2 + 1, words.getD 1 0)])) i
      { entry with entryIndex := i } words ↔
        0 ≤ entry.payloadCont ∧ entry.payloadCont < 2 ^ 256 := by
  have hbase : Ranges.codebookStart + i * 2 + 1 < Ranges.wordCount := by
    rw [codebookEntryCount] at hi
    rw [Ranges.codebookStart, Ranges.wordCount]
    omega
  have helse : ∀ (w0 w1 : Int) (k : Nat), k ≠ Ranges.codebookStart + i * 2 →
      k ≠ Ranges.codebookStart + i * 2 + 1 →
        (state.write [(Ranges.codebookStart + i * 2, w0),
          (Ranges.codebookStart + i * 2 + 1, w1)]).word k = state.word k :=
    fun w0 w1 k hfirst hsecond => state.word_write_of_not_mem (by simp [hfirst, hsecond])
  rw [roundTrips_iff hi fun k hk hne =>
    codebookAt_congr (helse _ _ _ (by omega) (by omega)) (helse _ _ _ (by omega) (by omega))]
  obtain ⟨hcode, h⟩ := refuseIf_bind_eq_ok.mp h
  obtain ⟨hpayload, h⟩ := refuseIf_bind_eq_ok.mp h
  rw [not_not, shiftRight_eq_zero] at hpayload
  have htype : 0 < codeTypeToBits entry.codeType ∧ codeTypeToBits entry.codeType < 3 := by
    cases entry.codeType <;> decide
  have hflag : bit entry.valid 0x0001 = 1 := by
    rw [hvalid]
    rfl
  have h0 : pack [(entry.payload, 0)] = entry.payload := by
    rw [pack_singleton hpayload.1, Int.pow_zero, Int.mul_one]
  have h208 := pack_cons (v := bit entry.valid 0x0001) (s := 208) h0 (by omega) hpayload.1
    hpayload.2
  have h224 := pack_cons (v := codeTypeToBits entry.codeType) (s := 224) h208 (by omega)
    (by omega) (by omega)
  have h240 := pack_cons (v := entry.code) (s := 240) h224 (by omega) (by omega) (by omega)
  dsimp only at h
  rw [h240, hflag, Except.ok.injEq] at h
  subst h
  generalize hw : entry.code * 2 ^ 240 + (codeTypeToBits entry.codeType * 2 ^ 224 +
    (1 * 2 ^ 208 + entry.payload)) = w
  have hnonneg : 0 ≤ w := by omega
  have hzero : ¬ (w = 0 ∧ entry.payloadCont = 0) := by omega
  have hnodup : ([(Ranges.codebookStart + i * 2, w),
      (Ranges.codebookStart + i * 2 + 1, entry.payloadCont)].map Prod.fst).Nodup := by
    simp
  have hword0 := state.word_write_of_mem hnodup (i := Ranges.codebookStart + i * 2) (v := w)
    (by simp) (by omega)
  have hword1 := state.word_write_of_mem hnodup (i := Ranges.codebookStart + i * 2 + 1)
    (v := entry.payloadCont) (by simp) hbase
  have hfield : ∀ s n, field w s n = w / 2 ^ s % 2 ^ n := field_eq hnonneg
  have hf240 : field w 240 16 = entry.code := by
    rw [hfield]
    omega
  have hf224 : field w 224 16 = codeTypeToBits entry.codeType := by
    rw [hfield]
    omega
  have hf208 : field w 208 16 = 1 := by
    rw [hfield]
    omega
  have hf0 : field w 0 208 = entry.payload := by
    rw [hfield]
    omega
  have hcode0 : entry.code ≠ 0 := by omega
  have hdecoded : codebookAt (state.write [(Ranges.codebookStart + i * 2, w),
      (Ranges.codebookStart + i * 2 + 1, entry.payloadCont)]) i =
        .decoded { entry with entryIndex := i } := by
    simp only [codebookAt, codebookWordsPerEntry, hword0, hword1, if_neg hzero, hf240, hf224,
      codeTypeByBits_codeTypeToBits, if_neg hcode0, hf208, hf0]
    rw [hvalid]
    rfl
  constructor
  · intro hboth
    exact hboth.1 entry.payloadCont (by simp)
  · intro hfits
    refine ⟨fun v hv => ?_, hdecoded⟩
    simp only [List.mem_cons, List.not_mem_nil, or_false] at hv
    omega

/-! ### Policy atoms -/

theorem policyAtomAt_congr {family : PolicyAtomFamily} {state state' : CortexState} {k : Nat}
    (h : state.word ((policyRegions family).start + k) =
      state'.word ((policyRegions family).start + k)) :
    policyAtomAt family state k = policyAtomAt family state' k := by
  simp only [policyAtomAt, h]

theorem policyActionByBits_policyActionToBits (a : PolicyAction) :
    policyActionByBits (policyActionToBits a) = some a := by
  cases a <;> rfl

theorem policyScopeByBits_policyScopeToBits (c : PolicyScope) :
    policyScopeByBits (policyScopeToBits c) = some c := by
  cases c <;> rfl

/-- What the decoder asks of an atom's fields, beyond what the encoder does. -/
structure PolicyAtom.Admitted (atom : PolicyAtom) : Prop where
  action : atom.action ∈ (policyRegions atom.family).allowed
  codes : atom.selector ∈ validSelector ∧ atom.evidenceFeature ∈ validEvidenceFeature
  target : atom.action = .abstain ∨ atom.targetSlot ≠ policyTargetNone
  window : ¬ (atom.validFromEpoch > 0 ∧ atom.expiryEpoch > 0 ∧
    atom.validFromEpoch > atom.expiryEpoch)

/-- A guard of the `Option` monad. -/
theorem guard_bind_eq_some {β : Type} {c : Prop} [Decidable c] {f : Unit → Option β} {b : β} :
    (guard c >>= f) = some b ↔ c ∧ f () = some b := by
  by_cases h : c <;> simp [guard, h]

/-- The decoder on a word whose fields are an atom's, with a target that the encoder accepts. -/
theorem decodePolicyAtom_fields {atom : PolicyAtom} {i : Nat} {w : Int}
    (hselector : field w 248 8 = atom.selector) (hfeature : field w 240 8 = atom.evidenceFeature)
    (haction : policyActionByBits (field w 236 4) = some atom.action)
    (hscope : policyScopeByBits (field w 232 4) = some atom.scope)
    (htarget : field w 216 16 = atom.targetSlot) (hbudget : field w 200 16 = atom.budget)
    (hflags : field w 192 8 = atom.flags) (hfrom : field w 152 40 = atom.validFromEpoch)
    (hexpiry : field w 112 40 = atom.expiryEpoch) (hreserved : field w 0 112 = 0)
    (hlimit : atom.targetSlot ≠ policyTargetNone → ¬ atom.targetSlot ≥ policyAnchorSlotLimit) :
    decodePolicyAtom atom.family i w = some { atom with atomIndex := i } ↔ atom.Admitted := by
  unfold decodePolicyAtom
  simp only [hselector, hfeature, haction, hscope, htarget, hbudget, hflags, hfrom, hexpiry,
    hreserved]
  rw [guard_bind_eq_some, Option.bind_eq_bind, Option.bind_some, Option.bind_eq_bind,
    Option.bind_some, guard_bind_eq_some, guard_bind_eq_some]
  by_cases habstain : atom.action = .abstain
  · rw [if_pos habstain, guard_bind_eq_some, guard_bind_eq_some]
    constructor
    · intro ⟨_, haction, hcodes, _, hwindow, _⟩
      exact ⟨haction, hcodes, .inl habstain, hwindow⟩
    · intro h
      exact ⟨trivial, h.action, h.codes, fun hboth => hlimit hboth.1 hboth.2, h.window, rfl⟩
  · rw [if_neg habstain, guard_bind_eq_some, guard_bind_eq_some]
    constructor
    · intro ⟨_, haction, hcodes, htarget, hwindow, _⟩
      exact ⟨haction, hcodes, .inr fun hnone => htarget (.inl hnone), hwindow⟩
    · intro h
      have hnone := h.target.resolve_left habstain
      exact ⟨trivial, h.action, h.codes, fun heither => heither.elim hnone (hlimit hnone),
        h.window, rfl⟩

/-- **Policy atoms** come back exactly when the decoder admits their fields. -/
theorem policyAtom_roundTrips (state : CortexState) {atom : PolicyAtom} {w : Int}
    (h : encodePolicyAtom atom = .ok w) {i : Nat} (hi : i < (policyRegions atom.family).count) :
    RoundTrips (policyRegions atom.family).count (policyAtomAt atom.family state)
      (policyAtomAt atom.family (state.write [((policyRegions atom.family).start + i, w)])) i
      { atom with atomIndex := i } [w] ↔ atom.Admitted := by
  have hregion : (policyRegions atom.family).start + (policyRegions atom.family).count ≤
      Ranges.wordCount := by
    cases atom.family <;> decide
  have hbase : (policyRegions atom.family).start + i < Ranges.wordCount := by omega
  rw [roundTrips_iff hi fun k hk hne =>
    policyAtomAt_congr (word_write_elsewhere state (by omega) _)]
  obtain ⟨hselector, h⟩ := refuseIf_bind_eq_ok.mp h
  obtain ⟨hfeature, h⟩ := refuseIf_bind_eq_ok.mp h
  obtain ⟨htarget, h⟩ := refuseIf_bind_eq_ok.mp h
  obtain ⟨hbudget, h⟩ := refuseIf_bind_eq_ok.mp h
  obtain ⟨hflags, h⟩ := refuseIf_bind_eq_ok.mp h
  obtain ⟨hepochs, h⟩ := refuseIf_bind_eq_ok.mp h
  rw [not_or, not_not, not_not, shiftRight_eq_zero, shiftRight_eq_zero] at hepochs
  have hnone : policyTargetNone = 0xffff := rfl
  have hlimit : policyAnchorSlotLimit = 256 := rfl
  have haction : 0 < policyActionToBits atom.action ∧ policyActionToBits atom.action < 16 := by
    cases atom.action <;> decide
  have hscope : 0 < policyScopeToBits atom.scope ∧ policyScopeToBits atom.scope < 16 := by
    cases atom.scope <;> decide
  have h112 := pack_singleton (v := atom.expiryEpoch) (s := 112) hepochs.2.1
  have h152 := pack_cons (v := atom.validFromEpoch) (s := 152) h112 (by omega) (by omega)
    (by omega)
  have h192 := pack_cons (v := atom.flags) (s := 192) h152 (by omega) (by omega) (by omega)
  have h200 := pack_cons (v := atom.budget) (s := 200) h192 (by omega) (by omega) (by omega)
  have h216 := pack_cons (v := atom.targetSlot) (s := 216) h200 (by omega) (by omega) (by omega)
  have h232 := pack_cons (v := policyScopeToBits atom.scope) (s := 232) h216 (by omega) (by omega)
    (by omega)
  have h236 := pack_cons (v := policyActionToBits atom.action) (s := 236) h232 (by omega)
    (by omega) (by omega)
  have h240 := pack_cons (v := atom.evidenceFeature) (s := 240) h236 (by omega) (by omega)
    (by omega)
  have h248 := pack_cons (v := atom.selector) (s := 248) h240 (by omega) (by omega) (by omega)
  rw [h248, Except.ok.injEq] at h
  have hnonneg : 0 ≤ w := by omega
  have hzero : w ≠ 0 := by omega
  have hfits : w < 2 ^ 256 := by omega
  have hword := word_write_here state hbase w
  have hfield : ∀ s n, field w s n = w / 2 ^ s % 2 ^ n := field_eq hnonneg
  have hf248 : field w 248 8 = atom.selector := by
    rw [hfield]
    omega
  have hf240 : field w 240 8 = atom.evidenceFeature := by
    rw [hfield]
    omega
  have hf236 : field w 236 4 = policyActionToBits atom.action := by
    rw [hfield]
    omega
  have hf232 : field w 232 4 = policyScopeToBits atom.scope := by
    rw [hfield]
    omega
  have hf216 : field w 216 16 = atom.targetSlot := by
    rw [hfield]
    omega
  have hf200 : field w 200 16 = atom.budget := by
    rw [hfield]
    omega
  have hf192 : field w 192 8 = atom.flags := by
    rw [hfield]
    omega
  have hf152 : field w 152 40 = atom.validFromEpoch := by
    rw [hfield]
    omega
  have hf112 : field w 112 40 = atom.expiryEpoch := by
    rw [hfield]
    omega
  have hf0 : field w 0 112 = 0 := by
    rw [hfield]
    omega
  have hdecode := decodePolicyAtom_fields hf248 hf240
    (by rw [hf236, policyActionByBits_policyActionToBits])
    (by rw [hf232, policyScopeByBits_policyScopeToBits]) hf216 hf200 hf192 hf152 hf112 hf0
    (i := i) (by omega)
  have hat : policyAtomAt atom.family
      (state.write [((policyRegions atom.family).start + i, w)]) i =
        .decoded { atom with atomIndex := i } ↔
      decodePolicyAtom atom.family i w = some { atom with atomIndex := i } := by
    simp only [policyAtomAt, hword, if_neg hzero]
    cases decodePolicyAtom atom.family i w <;> simp
  rw [hat, hdecode, and_iff_right fun v hv => ?_]
  rw [List.mem_singleton.mp hv]
  exact ⟨hnonneg, hfits⟩

/-- The atoms of a region, as the region decoder returns them. -/
theorem decodePolicyAtomRegion_eq (state : CortexState) (family : PolicyAtomFamily) :
    let region := decodeRegion (policyRegions family).count (policyAtomAt family state)
    decodePolicyAtomRegion state family = ⟨region.entries, region.attempts, region.failures⟩ := by
  have hgo : ∀ n, (List.range n).foldl (decodePolicyAtomStep state family) ⟨[], 0, 0⟩ =
      ⟨(decodeRegion n (policyAtomAt family state)).entries,
        (decodeRegion n (policyAtomAt family state)).attempts,
        (decodeRegion n (policyAtomAt family state)).failures⟩ := by
    intro n
    induction n with
    | zero => rfl
    | succ n ih =>
        rw [List.range_succ, List.foldl_append, ih, decodeRegion_succ]
        simp only [List.foldl_cons, List.foldl_nil, decodePolicyAtomStep, decodeStep, policyAtomAt]
        by_cases hzero : state.word ((policyRegions family).start + n) = 0
        · simp [hzero, DecodedRegion.entries]
        · cases hdecode : decodePolicyAtom family n
              (state.word ((policyRegions family).start + n)) with
          | none => simp [hzero, DecodedRegion.entries]
          | some atom => simp [hzero, DecodedRegion.entries]
  exact hgo _

/-! ### All six -/

/-- **Which slots round-trip**: for every record that its encoder accepts, every position and
every state. A memory index slot needs a record id, a relation edge slots below 256, a temporal
record a slot below 256 and a field that is not zero, a codebook entry a second word of 256 bits
and a policy atom fields that its decoder admits; a category lens needs nothing. -/
theorem slotCodecs_roundTrip (state : CortexState) :
    (∀ slot words i, encodeMemoryIndexSlot slot = .ok words → slot.valid = true →
      i < memoryIndexSlotCount →
      (RoundTrips memoryIndexSlotCount (memoryIndexAt state)
        (memoryIndexAt (state.write [(Ranges.memoryIndexStart + i, words.headD 0)])) i
        { slot with slotIndex := i } words ↔ slot.recordId ≠ 0)) ∧
    (∀ edge w i, encodeRelationEdge edge = .ok w → i < relationsEntryCount →
      (RoundTrips relationsEntryCount (relationAt state)
        (relationAt (state.write [(Ranges.relationsStart + i, w)])) i
        (.edge { edge with entryIndex := i }) [w] ↔
          edge.sourceSlot < 256 ∧ edge.targetSlot < 256)) ∧
    (∀ lens w i, encodeRelationCategoryLens lens = .ok w → i < relationsEntryCount →
      RoundTrips relationsEntryCount (relationAt state)
        (relationAt (state.write [(Ranges.relationsStart + i, w)])) i
        (.categoryLens { lens with entryIndex := i }) [w]) ∧
    (∀ record words i, encodeTemporalRecord record = .ok words → i < temporalRecordCount →
      (RoundTrips temporalRecordCount (temporalAt state)
        (temporalAt (state.write [(Ranges.temporalStart + i, words.headD 0)])) i
        { record with recordIndex := i } words ↔ record.memorySlot < 256 ∧ ¬ record.Blank)) ∧
    (∀ entry words i, encodeCodebookEntry entry = .ok words → entry.valid = true →
      i < codebookEntryCount →
      (RoundTrips codebookEntryCount (codebookAt state)
        (codebookAt (state.write [(Ranges.codebookStart + i * 2, words.headD 0),
          (Ranges.codebookStart + i * 2 + 1, words.getD 1 0)])) i
        { entry with entryIndex := i } words ↔
          0 ≤ entry.payloadCont ∧ entry.payloadCont < 2 ^ 256)) ∧
    ∀ atom w i, encodePolicyAtom atom = .ok w → i < (policyRegions atom.family).count →
      (RoundTrips (policyRegions atom.family).count (policyAtomAt atom.family state)
        (policyAtomAt atom.family (state.write [((policyRegions atom.family).start + i, w)])) i
        { atom with atomIndex := i } [w] ↔ atom.Admitted) :=
  ⟨fun _ _ _ h hvalid hi => memoryIndexSlot_roundTrips state h hvalid hi,
    fun _ _ _ h hi => relationEdge_roundTrips state h hi,
    fun _ _ _ h hi => relationCategoryLens_roundTrips state h hi,
    fun _ _ _ h hi => temporalRecord_roundTrips state h hi,
    fun _ _ _ h hvalid hi => codebookEntry_roundTrips state h hvalid hi,
    fun _ _ _ h hi => policyAtom_roundTrips state h hi⟩

theorem length_blankWords :
    (List.replicate Ranges.wordCount (0 : Int)).length = Ranges.wordCount :=
  List.length_replicate

/-- A state whose words are all zero. -/
def blankState : CortexState :=
  ⟨List.replicate Ranges.wordCount 0, length_blankWords⟩

/-- An edge between the first and the last slot that a byte can hold. -/
def nearEdge : RelationEdge :=
  { entryIndex := 0, weight := 1, edgeType := .supports, sourceSlot := 255, targetSlot := 0 }

/-- `slotCodecs_roundTrip` at this edge. -/
theorem slotCodecs_roundTrip_sample : ∃ w, encodeRelationEdge nearEdge = .ok w ∧
    RoundTrips relationsEntryCount (relationAt blankState)
      (relationAt (blankState.write [(Ranges.relationsStart, w)])) 0 (.edge nearEdge) [w] := by
  have hencode : ∃ w, encodeRelationEdge nearEdge = .ok w := ⟨_, rfl⟩
  obtain ⟨w, hw⟩ := hencode
  have hpart := (slotCodecs_roundTrip blankState).2.1 nearEdge w 0 hw (by decide)
  exact ⟨w, hw, hpart.mpr ⟨by decide, by decide⟩⟩

/-- An edge from the first slot that a byte cannot hold. -/
def farEdge : RelationEdge :=
  { entryIndex := 0, weight := 1, edgeType := .supports, sourceSlot := 256, targetSlot := 0 }

/-- The encoder accepts the edge, and the decoder does not give it back. -/
theorem farEdge_lost : ∃ w, encodeRelationEdge farEdge = .ok w ∧
    ¬ RoundTrips relationsEntryCount (relationAt blankState)
      (relationAt (blankState.write [(Ranges.relationsStart, w)])) 0 (.edge farEdge) [w] := by
  have hencode : ∃ w, encodeRelationEdge farEdge = .ok w := ⟨_, rfl⟩
  obtain ⟨w, hw⟩ := hencode
  refine ⟨w, hw, fun h => ?_⟩
  have hbelow := (relationEdge_roundTrips blankState hw (i := 0) (by decide)).mp h
  exact absurd hbelow.1 (by decide)

end CoreTex
