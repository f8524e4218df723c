import CoreTex.Lib.CarryTree
import CoreTex.Replay.RigText

/-!
# CoreTex.Reducer.FundingTx

Merkle claims of merge bonuses (`reducer/funding-tx.ts`): the root over the leaves of an epoch, the
proof of a miner's claim, and its check.

`buildMinerClaimProof_verifies` is completeness. `verifyMinerClaimProof_sound` is soundness up to a
collision: leaves are hashes of 84 bytes and nodes of 64, so a proof of an accepted leaf leads from
the root down to a leaf of the list. An address is ASCII, where `toLower` is the host's
`toLowerCase`.
-/

namespace CoreTex.Reducer

open CoreTex.Lib

/-! ### Leaves and nodes -/

structure MinerBonusLeaf where
  miner : String
  bonusBotcoin : Int
  capBotcoin : Int
  deriving DecidableEq

def encodeUint256 (value : Int) : Bytes :=
  writeBE 32 (asUint256 value)

def bytesLessOrEq : Bytes → Bytes → Bool
  | [], _ => true
  | av :: a, b =>
    let bv := b.headD 0
    if av ≠ bv then av < bv else bytesLessOrEq a b.tail

/-- The smaller one first. -/
def sortedPair (a b : Bytes) : Bytes :=
  if bytesLessOrEq a b then a ++ b else b ++ a

/-- The bytes of a leaf's address. -/
def addressBytes (miner : String) : Except JsError Bytes :=
  hexToBytes (match miner.toList with
    | '0' :: 'x' :: _ => miner
    | _ => "0x" ++ miner)

/-- `abi.encodePacked(miner, bonusBOTCOIN, capBOTCOIN)`. -/
def packLeaf (leaf : MinerBonusLeaf) : Except JsError Bytes := do
  let addrBytes ← addressBytes leaf.miner
  let length := addrBytes.length
  refuseIf (addrBytes.length ≠ 20)
    (rangeError s!"computeLeafHash: address must be 20 bytes, got {length}")
  return addrBytes ++ encodeUint256 leaf.bonusBotcoin ++ encodeUint256 leaf.capBotcoin

variable (keccak256 : Bytes → Digest)

def hashPair (a b : Bytes) : Digest :=
  keccak256 (sortedPair a b)

def computeLeafHash (leaf : MinerBonusLeaf) : Except JsError Digest := do
  let packed ← packLeaf leaf
  return keccak256 packed

/-! ### The tree -/

/-- Two nodes of a level under a new one. -/
def nodePair (a b : Digest) : Digest :=
  hashPair keccak256 a.bytes b.bytes

/-- Every level, the leaves first; an unpaired last node is carried up. -/
def buildLevels (leafHashes : List Digest) : List (List Digest) :=
  if leafHashes.length = 0 then [[keccak256 []]] else levelsUp (nodePair keccak256) leafHashes

def computeBonusMerkleRoot (leaves : List MinerBonusLeaf) : Except JsError Digest := do
  let leafHashes ← leaves.mapM (computeLeafHash keccak256)
  return topNode keccak256 (buildLevels keccak256 leafHashes)

/-! ### Claim proofs -/

structure MinerClaimProof where
  miner : String
  bonusBotcoin : Int
  capBotcoin : Int
  proof : List String
  leafIndex : Nat

/-- The loop over the levels below the root, from a position. -/
def proofFrom : List (List Digest) → Nat → Except JsError (List String)
  | [], _ => .ok []
  | level :: above, pos =>
    if pos = level.length - 1 ∧ pos % 2 = 0 then proofFrom above (pos / 2)
    else
      match siblingAt level pos with
      | none => throw (typeError "bytes is not iterable")
      | some sibling => do
        let rest ← proofFrom above (pos / 2)
        return bytesToHex sibling.bytes :: rest

/-- `none` stands for `null`. -/
def buildMinerClaimProof (leaves : List MinerBonusLeaf) (miner : String) :
    Except JsError (Option MinerClaimProof) :=
  match leaves.findIdx? fun l => l.miner.toLower = miner.toLower with
  | none => .ok none
  | some idx =>
    match leaves[idx]? with
    | none => throw (typeError "Cannot read properties of undefined (reading 'miner')")
    | some leaf => do
      let leafHashes ← leaves.mapM (computeLeafHash keccak256)
      let proof ← proofFrom (buildLevels keccak256 leafHashes).dropLast idx
      return some
        { miner := leaf.miner.toLower
          bonusBotcoin := leaf.bonusBotcoin
          capBotcoin := leaf.capBotcoin
          proof := proof
          leafIndex := idx }

/-- One turn of the check. -/
def foldSibling (computed : Digest) (sib : String) : Except JsError Digest := do
  let sibling ← hexToBytes sib
  return hashPair keccak256 computed.bytes sibling

def verifyMinerClaimProof (leaf : MinerBonusLeaf) (proof : List String) (root : Bytes) :
    Except JsError Bool := do
  let computed ← computeLeafHash keccak256 leaf
  let computed ← proof.foldlM (foldSibling keccak256) computed
  return decide (computed.bytes = root)

/-! ### Pairs -/

theorem bytesLessOrEq_total {a b : Bytes} (hlength : a.length = b.length)
    (h : bytesLessOrEq a b = false) : bytesLessOrEq b a = true := by
  induction a generalizing b with
  | nil => simp [bytesLessOrEq] at h
  | cons av a ih =>
      match b with
      | [] => simp at hlength
      | bv :: b =>
          simp only [List.length_cons, Nat.add_right_cancel_iff] at hlength
          rw [bytesLessOrEq, List.headD_cons, List.tail_cons] at h ⊢
          by_cases heq : av = bv
          · rw [if_neg (not_not_intro heq)] at h
            rw [if_neg (not_not_intro heq.symm)]
            exact ih hlength h
          · rw [if_pos heq] at h
            rw [if_pos (Ne.symm heq)]
            have hnot : ¬ av < bv := of_decide_eq_false h
            have hne : av.toNat ≠ bv.toNat := fun hval => heq (UInt8.toNat_inj.mp hval)
            rw [UInt8.lt_iff_toNat_lt] at hnot
            refine decide_eq_true (UInt8.lt_iff_toNat_lt.mpr ?_)
            omega

theorem bytesLessOrEq_antisymm {a b : Bytes} (hlength : a.length = b.length)
    (h : bytesLessOrEq a b = true) (h' : bytesLessOrEq b a = true) : a = b := by
  induction a generalizing b with
  | nil => exact (List.length_eq_zero_iff.mp hlength.symm).symm
  | cons av a ih =>
      match b with
      | [] => simp at hlength
      | bv :: b =>
          simp only [List.length_cons, Nat.add_right_cancel_iff] at hlength
          rw [bytesLessOrEq, List.headD_cons, List.tail_cons] at h h'
          by_cases heq : av = bv
          · rw [if_neg (not_not_intro heq)] at h
            rw [if_neg (not_not_intro heq.symm)] at h'
            rw [heq, ih hlength h h']
          · rw [if_pos heq] at h
            rw [if_pos (Ne.symm heq)] at h'
            have hlt := UInt8.lt_iff_toNat_lt.mp (of_decide_eq_true h)
            have hgt := UInt8.lt_iff_toNat_lt.mp (of_decide_eq_true h')
            omega

/-- The order of two siblings does not matter. -/
theorem sortedPair_comm {a b : Bytes} (hlength : a.length = b.length) :
    sortedPair a b = sortedPair b a := by
  rw [sortedPair, sortedPair]
  cases hab : bytesLessOrEq a b with
  | false => rw [bytesLessOrEq_total hlength hab]; rfl
  | true =>
      cases hba : bytesLessOrEq b a with
      | false => rfl
      | true => rw [bytesLessOrEq_antisymm hlength hab hba]

theorem length_sortedPair (a b : Bytes) : (sortedPair a b).length = a.length + b.length := by
  rw [sortedPair]
  split
  · exact List.length_append
  · rw [List.length_append, Nat.add_comm]

/-- A sorted pair holds its two parts. -/
theorem sortedPair_inj {a b c d : Bytes} (hab : a.length = b.length) (hcd : c.length = d.length)
    (hac : a.length = c.length) (h : sortedPair a b = sortedPair c d) : c = a ∨ c = b := by
  rw [sortedPair, sortedPair] at h
  split at h <;> split at h
  · exact .inl (List.append_inj_left h hac).symm
  · exact .inr (List.append_inj_right h (hac.trans hcd)).symm
  · exact .inr (List.append_inj_left h (hab.symm.trans hac)).symm
  · exact .inl (List.append_inj_right h (hab.symm.trans (hac.trans hcd))).symm

theorem nodePair_comm (a b : Digest) : nodePair keccak256 a b = nodePair keccak256 b a := by
  rw [nodePair, nodePair, hashPair, hashPair,
    sortedPair_comm (a.length_bytes.trans b.length_bytes.symm)]

variable {keccak256}

/-! ### Leaves of a list -/

theorem packLeaf_eq_ok {leaf : MinerBonusLeaf} {packed : Bytes} : packLeaf leaf = .ok packed ↔
    ∃ address, addressBytes leaf.miner = .ok address ∧ address.length = 20 ∧
      packed = address ++ encodeUint256 leaf.bonusBotcoin ++ encodeUint256 leaf.capBotcoin := by
  rw [packLeaf, bind_eq_ok]
  constructor
  · intro h
    obtain ⟨address, haddress, h⟩ := h
    dsimp only at h
    rw [refuseIf_bind_eq_ok, pure_eq_ok, not_not] at h
    exact ⟨address, haddress, h.1, h.2.symm⟩
  · intro h
    obtain ⟨address, haddress, hlength, rfl⟩ := h
    refine ⟨address, haddress, ?_⟩
    dsimp only
    rw [refuseIf_bind_eq_ok, pure_eq_ok, not_not]
    exact ⟨hlength, rfl⟩

theorem length_packLeaf {leaf : MinerBonusLeaf} {packed : Bytes} (h : packLeaf leaf = .ok packed) :
    packed.length = 84 := by
  obtain ⟨address, -, hlength, rfl⟩ := packLeaf_eq_ok.mp h
  rw [List.length_append, List.length_append, encodeUint256, encodeUint256, length_writeBE,
    length_writeBE, hlength]

/-- What packed leaves keep: the address, and the amounts modulo `2 ^ 256`. -/
theorem packLeaf_inj {leaf leaf' : MinerBonusLeaf} {packed : Bytes}
    (h : packLeaf leaf = .ok packed) (h' : packLeaf leaf' = .ok packed) :
    addressBytes leaf.miner = addressBytes leaf'.miner ∧
      asUint256 leaf.bonusBotcoin = asUint256 leaf'.bonusBotcoin ∧
      asUint256 leaf.capBotcoin = asUint256 leaf'.capBotcoin := by
  obtain ⟨address, haddress, hlength, hpacked⟩ := packLeaf_eq_ok.mp h
  obtain ⟨address', haddress', hlength', hpacked'⟩ := packLeaf_eq_ok.mp h'
  rw [hpacked, List.append_assoc, List.append_assoc] at hpacked'
  obtain ⟨haddr, hamounts⟩ := List.append_inj hpacked' (hlength.trans hlength'.symm)
  obtain ⟨hbonus, hcap⟩ := List.append_inj hamounts
    ((length_writeBE 32 _).trans (length_writeBE 32 _).symm)
  have hamount : ∀ v w : Int, encodeUint256 v = encodeUint256 w → asUint256 v = asUint256 w := by
    intro v w hvw
    have hread := congrArg readBE hvw
    rw [encodeUint256, encodeUint256, readBE_writeBE, readBE_writeBE, asUint256, asUint256] at hread
    rw [asUint256, asUint256]
    omega
  exact ⟨by rw [haddress, haddress', haddr], hamount _ _ hbonus, hamount _ _ hcap⟩

/-- A leaf whose address is 20 bytes is hashed. -/
def HasAddress (leaf : MinerBonusLeaf) : Prop :=
  ∃ address, addressBytes leaf.miner = .ok address ∧ address.length = 20

theorem exists_packLeaf {leaf : MinerBonusLeaf} (h : HasAddress leaf) :
    ∃ packed, packLeaf leaf = .ok packed := by
  obtain ⟨address, haddress, hlength⟩ := h
  exact ⟨_, packLeaf_eq_ok.mpr ⟨address, haddress, hlength, rfl⟩⟩

theorem computeLeafHash_eq_ok {leaf : MinerBonusLeaf} {hash : Digest} :
    computeLeafHash keccak256 leaf = .ok hash ↔
      ∃ packed, packLeaf leaf = .ok packed ∧ hash = keccak256 packed := by
  rw [computeLeafHash, bind_eq_ok]
  constructor
  · intro h
    obtain ⟨packed, hpacked, h⟩ := h
    exact ⟨packed, hpacked, (pure_eq_ok.mp h).symm⟩
  · intro h
    obtain ⟨packed, hpacked, rfl⟩ := h
    exact ⟨packed, hpacked, rfl⟩

/-- The hashes of a list of leaves, in order. -/
theorem mapM_computeLeafHash (keccak256 : Bytes → Digest) {leaves : List MinerBonusLeaf}
    (h : ∀ l ∈ leaves, HasAddress l) : ∃ packed : List Bytes,
      List.Forall₂ (fun l bytes => packLeaf l = .ok bytes) leaves packed ∧
      leaves.mapM (computeLeafHash keccak256) = .ok (packed.map keccak256) := by
  obtain ⟨packed, hpacked⟩ := exists_mapM_eq_ok fun l hl => exists_packLeaf (h l hl)
  have hall := mapM_eq_ok.mp hpacked
  refine ⟨packed, hall, ?_⟩
  rw [mapM_eq_ok, List.forall₂_map_right_iff]
  exact hall.imp fun l bytes hbytes => computeLeafHash_eq_ok.mpr ⟨bytes, hbytes, rfl⟩

/-- The root of a list that is not empty is the top of its tree. -/
theorem computeBonusMerkleRoot_eq {leaves : List MinerBonusLeaf} {hashes : List Digest}
    (hhashes : leaves.mapM (computeLeafHash keccak256) = .ok hashes) (hne : hashes ≠ []) :
    buildLevels keccak256 hashes = levelsUp (nodePair keccak256) hashes ∧
      ∃ root, computeBonusMerkleRoot keccak256 leaves = .ok root ∧
        topOf (nodePair keccak256) hashes = some root := by
  have hlevels : buildLevels keccak256 hashes = levelsUp (nodePair keccak256) hashes := by
    rw [buildLevels, if_neg fun h => hne (List.length_eq_zero_iff.mp h)]
  obtain ⟨x, hashes', rfl⟩ := List.exists_cons_of_ne_nil hne
  have htop := @foldl_siblings Digest (nodePair keccak256) (nodePair_comm keccak256) (x :: hashes')
    0 x rfl
  refine ⟨hlevels, _, ?_, htop⟩
  rw [computeBonusMerkleRoot, hhashes, ok_bind, hlevels]
  rw [topOf] at htop
  rw [topNode, htop]
  rfl

/-! ### Completeness -/

/-- The test for an unpaired last node, on a position of the level. -/
theorem siblingAt_eq_none {level : List Digest} {pos : Nat} (h : pos < level.length) :
    siblingAt level pos = none ↔ pos = level.length - 1 ∧ pos % 2 = 0 := by
  rw [siblingAt]
  by_cases heven : pos % 2 = 0
  · rw [if_pos heven, List.getElem?_eq_none_iff]
    omega
  · rw [if_neg heven, List.getElem?_eq_none_iff]
    omega

/-- The loop collects the siblings on the way up. -/
theorem proofFrom_levelsUp {level : List Digest} {pos : Nat} (h : pos < level.length) :
    proofFrom (levelsUp (nodePair keccak256) level).dropLast pos =
      .ok ((siblings (levelsUp (nodePair keccak256) level).dropLast pos).map
        fun d => bytesToHex d.bytes) := by
  induction level using levelInduction (nodePair keccak256) generalizing pos with
  | top level hshort =>
      rw [levelsUp_of_le_one _ hshort]
      rfl
  | up level hlong ih =>
      have habove : pos / 2 < (joinPairs (nodePair keccak256) level).length := by
        rw [length_joinPairs]
        omega
      have hnone := siblingAt_eq_none h
      rw [levelsUp_of_one_lt _ hlong, List.dropLast_cons_of_ne_nil (levelsUp_ne_nil _ _), proofFrom,
        siblings, List.map_append, ih habove]
      cases hsibling : siblingAt level pos with
      | none =>
          rw [if_pos (hnone.mp hsibling)]
          rfl
      | some sibling =>
          rw [if_neg fun hlast => by rw [hnone.mpr hlast] at hsibling; cases hsibling]
          rfl

/-- The check reads the siblings back and joins them. -/
theorem foldlM_foldSibling (siblings : List Digest) (computed : Digest) :
    (siblings.map fun d => bytesToHex d.bytes).foldlM (foldSibling keccak256) computed =
      .ok (siblings.foldl (nodePair keccak256) computed) := by
  induction siblings generalizing computed with
  | nil => rfl
  | cons sibling siblings ih =>
      have hstep : foldSibling keccak256 computed (bytesToHex sibling.bytes) =
          .ok (nodePair keccak256 computed sibling) := by
        rw [foldSibling, CoreTex.hexToBytes_bytesToHex]
        rfl
      rw [List.map_cons, List.foldlM_cons, hstep, ok_bind, ih, List.foldl_cons]

/-- **Completeness.** Every miner of the list gets a proof, short and accepted. -/
theorem buildMinerClaimProof_verifies (keccak256 : Bytes → Digest) {leaves : List MinerBonusLeaf}
    (hdistinct : (leaves.map fun l => l.miner.toLower).Nodup)
    (haddress : ∀ l ∈ leaves, HasAddress l) {leaf : MinerBonusLeaf} (hleaf : leaf ∈ leaves) {miner : String}
    (hminer : miner.toLower = leaf.miner.toLower) :
    ∃ claim root, buildMinerClaimProof keccak256 leaves miner = .ok (some claim) ∧
      computeBonusMerkleRoot keccak256 leaves = .ok root ∧
      claim.proof.length ≤ Nat.clog 2 leaves.length ∧
      verifyMinerClaimProof keccak256 leaf claim.proof root.bytes = .ok true := by
  obtain ⟨packed, hpacked, hhashes⟩ := mapM_computeLeafHash keccak256 haddress
  have hlength := hpacked.length_eq
  -- the first leaf of that miner is the leaf
  have hfind : ∃ idx, leaves.findIdx? (fun l => decide (l.miner.toLower = miner.toLower)) =
      some idx ∧ leaves[idx]? = some leaf := by
    cases hfound : leaves.findIdx? fun l => decide (l.miner.toLower = miner.toLower) with
    | none =>
        have hnot := List.findIdx?_eq_none_iff.mp hfound leaf hleaf
        exact absurd hminer.symm (of_decide_eq_false hnot)
    | some idx =>
        obtain ⟨hidx, hlower, -⟩ := List.findIdx?_eq_some_iff_getElem.mp hfound
        have hsame := (of_decide_eq_true hlower).trans hminer
        have heq := List.inj_on_of_nodup_map hdistinct (List.getElem_mem hidx) hleaf hsame
        exact ⟨idx, rfl, by rw [List.getElem?_eq_getElem hidx, heq]⟩
  obtain ⟨idx, hfound, hget⟩ := hfind
  obtain ⟨hidx, hgetElem⟩ := List.getElem?_eq_some_iff.mp hget
  have hidx' : idx < packed.length := hlength ▸ hidx
  have hpack : packLeaf leaf = .ok packed[idx] := by
    have hat := (List.forall₂_iff_get.mp hpacked).2 idx hidx hidx'
    simp only [List.get_eq_getElem, hgetElem] at hat
    exact hat
  have hhash : (packed.map keccak256)[idx]? = some (keccak256 packed[idx]) := by
    rw [List.getElem?_map, List.getElem?_eq_getElem hidx']
    rfl
  have hne : packed.map keccak256 ≠ [] := by
    intro hempty
    rw [hempty] at hhash
    cases hhash
  obtain ⟨hlevels, root, hroot, htop⟩ := computeBonusMerkleRoot_eq hhashes hne
  rw [foldl_siblings (nodePair_comm keccak256) hhash] at htop
  have hproof := @proofFrom_levelsUp keccak256 (packed.map keccak256) idx
    (by rwa [List.length_map])
  have hshort := length_siblings_le
    (levelsUp (nodePair keccak256) (packed.map keccak256)).dropLast idx
  rw [List.length_dropLast, length_levelsUp, List.length_map, ← hlength] at hshort
  generalize siblings (levelsUp (nodePair keccak256) (packed.map keccak256)).dropLast idx = way
    at htop hproof hshort
  refine ⟨⟨leaf.miner.toLower, leaf.bonusBotcoin, leaf.capBotcoin,
    way.map fun d => bytesToHex d.bytes, idx⟩, root, ?_, hroot, ?_, ?_⟩
  · rw [buildMinerClaimProof, hfound]
    dsimp only
    rw [hget]
    dsimp only
    rw [hhashes, ok_bind, hlevels, hproof, ok_bind]
    rfl
  · dsimp only
    rw [List.length_map]
    exact hshort
  · rw [verifyMinerClaimProof, computeLeafHash_eq_ok.mpr ⟨_, hpack, rfl⟩, ok_bind]
    dsimp only
    rw [foldlM_foldSibling, ok_bind, Option.some.inj htop]
    exact congrArg Except.ok (decide_eq_true rfl)

/-! ### Soundness -/

theorem digest_ext {d e : Digest} (h : d.bytes = e.bytes) : d = e := by
  cases d
  cases e
  cases h
  rfl

/-- What the check of a proof hashes, from a node on the way. -/
def checkPreimages (keccak256 : Bytes → Digest) : Digest → List Bytes → List Bytes
  | _, [] => []
  | computed, sibling :: rest => sortedPair computed.bytes sibling ::
      checkPreimages keccak256 (hashPair keccak256 computed.bytes sibling) rest

/-- What the root of a list hashes: its packed leaves, and the pairs of every level. -/
def rootPreimages (keccak256 : Bytes → Digest) (packed : List Bytes) : List Bytes :=
  packed ++ (allPairs (nodePair keccak256) (packed.map keccak256)).map
    fun p => sortedPair p.1.bytes p.2.bytes

/-- The bytes of a leaf, or nothing when it is refused. -/
def packedBytes (leaf : MinerBonusLeaf) : List Bytes :=
  (packLeaf leaf).toOption.toList

/-- Every string that the root of a list and the check of a proof hash. -/
def hashed (keccak256 : Bytes → Digest) (leaves : List MinerBonusLeaf) (leaf : MinerBonusLeaf)
    (siblings : List Bytes) : List Bytes :=
  rootPreimages keccak256 (leaves.flatMap packedBytes) ++ packedBytes leaf ++
    (packedBytes leaf).flatMap fun bytes => checkPreimages keccak256 (keccak256 bytes) siblings

/-- The nodes on the way of a check. -/
def walk (keccak256 : Bytes → Digest) (computed : Digest) (siblings : List Bytes) : Digest :=
  siblings.foldl (fun computed sibling => hashPair keccak256 computed.bytes sibling) computed

theorem walk_append_singleton (computed : Digest) (siblings : List Bytes) (sibling : Bytes) :
    walk keccak256 computed (siblings ++ [sibling]) =
      hashPair keccak256 (walk keccak256 computed siblings).bytes sibling :=
  List.foldl_concat _ _ _ _

theorem checkPreimages_append_singleton (computed : Digest) (siblings : List Bytes)
    (sibling : Bytes) : checkPreimages keccak256 computed (siblings ++ [sibling]) =
      checkPreimages keccak256 computed siblings ++
        [sortedPair (walk keccak256 computed siblings).bytes sibling] := by
  induction siblings generalizing computed with
  | nil => rfl
  | cons first siblings ih =>
      rw [List.cons_append, checkPreimages, ih, checkPreimages, List.cons_append]
      rfl

/-- **Soundness, step by step.** A walk from a packed leaf that ends in a node of the tree starts
at a leaf of the tree. -/
theorem mem_of_grown_walk {packed : List Bytes} {s : Set Bytes} (hinj : Set.InjOn keccak256 s)
    (hpacked : ∀ x ∈ packed, x.length = 84)
    (hroot : ∀ x ∈ rootPreimages keccak256 packed, x ∈ s) {leafBytes : Bytes}
    (hleaf84 : leafBytes.length = 84) (hleaf : leafBytes ∈ s) {siblings : List Bytes}
    (hsiblings : ∀ x ∈ siblings, x.length = 32)
    (hcheck : ∀ x ∈ checkPreimages keccak256 (keccak256 leafBytes) siblings, x ∈ s)
    (hgrown : Grown (nodePair keccak256) (allPairs (nodePair keccak256) (packed.map keccak256))
      (packed.map keccak256) (walk keccak256 (keccak256 leafBytes) siblings)) :
    leafBytes ∈ packed := by
  have hpair : ∀ a b, (a, b) ∈ allPairs (nodePair keccak256) (packed.map keccak256) →
      sortedPair a.bytes b.bytes ∈ s := by
    intro a b hab
    exact hroot _ (List.mem_append_right _ (List.mem_map.mpr ⟨(a, b), hab, rfl⟩))
  have hpair64 : ∀ a b : Digest, (sortedPair a.bytes b.bytes).length = 64 := by
    intro a b
    rw [length_sortedPair, a.length_bytes, b.length_bytes]
  induction siblings using List.reverseRecOn with
  | nil =>
      generalize hnode : walk keccak256 (keccak256 leafBytes) [] = node at hgrown
      cases hgrown with
      | leaf h =>
          obtain ⟨bytes, hbytes, hhash⟩ := List.mem_map.mp h
          have hsame := hinj (hroot _ (List.mem_append_left _ hbytes)) hleaf
            (hhash.trans hnode.symm)
          rwa [← hsame]
      | @join a b hab _ _ =>
          -- a leaf and a node are hashes of strings of different lengths
          have hsame := congrArg List.length (hinj (hpair a b hab) hleaf hnode.symm)
          rw [hpair64, hleaf84] at hsame
          cases hsame
  | append_singleton siblings sibling ih =>
      rw [checkPreimages_append_singleton] at hcheck
      rw [walk_append_singleton] at hgrown
      have hlast := hcheck _ (List.mem_append_right _ (List.mem_singleton_self _))
      have h32 := hsiblings sibling (by simp)
      have hnode64 : (sortedPair (walk keccak256 (keccak256 leafBytes) siblings).bytes
          sibling).length = 64 := by
        rw [length_sortedPair, Digest.length_bytes, h32]
      have hbelow := ih (fun x hx => hsiblings x (List.mem_append_left _ hx))
        fun x hx => hcheck x (List.mem_append_left _ hx)
      generalize hnode : hashPair keccak256 (walk keccak256 (keccak256 leafBytes) siblings).bytes
        sibling = node at hgrown
      cases hgrown with
      | leaf h =>
          obtain ⟨bytes, hbytes, hhash⟩ := List.mem_map.mp h
          have hsame := congrArg List.length
            (hinj (hroot _ (List.mem_append_left _ hbytes)) hlast (hhash.trans hnode.symm))
          rw [hpacked bytes hbytes, hnode64] at hsame
          cases hsame
      | @join a b hab ha hb =>
          have hsame := hinj (hpair a b hab) hlast hnode.symm
          have hparts := sortedPair_inj (a.length_bytes.trans b.length_bytes.symm)
            ((Digest.length_bytes _).trans h32.symm)
            (a.length_bytes.trans (Digest.length_bytes _).symm) hsame
          rcases hparts with heq | heq
          · exact hbelow (digest_ext heq ▸ ha)
          · exact hbelow (digest_ext heq ▸ hb)

theorem flatMap_packedBytes {leaves : List MinerBonusLeaf} {packed : List Bytes}
    (h : List.Forall₂ (fun l bytes => packLeaf l = .ok bytes) leaves packed) :
    leaves.flatMap packedBytes = packed := by
  induction h with
  | nil => rfl
  | cons hleaf _ ih =>
      rw [List.flatMap_cons, packedBytes, hleaf, ih]
      rfl

/-- The check walks along the bytes of its proof. -/
theorem foldlM_eq_walk {proof : List String} {siblings : List Bytes} (computed : Digest)
    (h : proof.mapM CoreTex.hexToBytes = .ok siblings) :
    proof.foldlM (foldSibling keccak256) computed = .ok (walk keccak256 computed siblings) := by
  have hall := mapM_eq_ok.mp h
  clear h
  induction hall generalizing computed with
  | nil => rfl
  | cons hsibling _ ih =>
      rw [List.foldlM_cons, foldSibling, hsibling, ok_bind]
      exact ih _

/-- A leaf of the list with this address and, modulo `2 ^ 256`, these amounts. -/
def Listed (leaves : List MinerBonusLeaf) (leaf : MinerBonusLeaf) : Prop :=
  ∃ l ∈ leaves, addressBytes l.miner = addressBytes leaf.miner ∧
    asUint256 l.bonusBotcoin = asUint256 leaf.bonusBotcoin ∧
    asUint256 l.capBotcoin = asUint256 leaf.capBotcoin

/-- Amounts that `uint256` holds. -/
def Uint256Amounts (leaf : MinerBonusLeaf) : Prop :=
  (0 ≤ leaf.bonusBotcoin ∧ leaf.bonusBotcoin < 2 ^ 256) ∧
    (0 ≤ leaf.capBotcoin ∧ leaf.capBotcoin < 2 ^ 256)

theorem asUint256_inj {v w : Int} (hv : 0 ≤ v ∧ v < 2 ^ 256) (hw : 0 ≤ w ∧ w < 2 ^ 256)
    (h : asUint256 v = asUint256 w) : v = w := by
  rw [asUint256, asUint256] at h
  omega

/-- Among `uint256` amounts the amounts are the same. -/
theorem Listed.amounts {leaves : List MinerBonusLeaf} {leaf : MinerBonusLeaf}
    (h : Listed leaves leaf) (hleaf : Uint256Amounts leaf)
    (hleaves : ∀ l ∈ leaves, Uint256Amounts l) :
    ∃ l ∈ leaves, addressBytes l.miner = addressBytes leaf.miner ∧
      l.bonusBotcoin = leaf.bonusBotcoin ∧ l.capBotcoin = leaf.capBotcoin := by
  obtain ⟨l, hl, haddress, hbonus, hcap⟩ := h
  exact ⟨l, hl, haddress, asUint256_inj (hleaves l hl).1 hleaf.1 hbonus,
    asUint256_inj (hleaves l hl).2 hleaf.2 hcap⟩

/-- **Soundness.** Without a collision among the strings that are hashed, an accepted leaf is in
the list. -/
theorem verifyMinerClaimProof_sound (keccak256 : Bytes → Digest) {leaves : List MinerBonusLeaf}
    (hne : leaves ≠ []) (haddress : ∀ l ∈ leaves, HasAddress l) {leaf : MinerBonusLeaf}
    {proof : List String} {siblings : List Bytes} {root : Digest}
    (hproof : proof.mapM CoreTex.hexToBytes = .ok siblings)
    (hsiblings : ∀ x ∈ siblings, x.length = 32)
    (hinj : Set.InjOn keccak256 {x | x ∈ hashed keccak256 leaves leaf siblings})
    (hroot : computeBonusMerkleRoot keccak256 leaves = .ok root)
    (h : verifyMinerClaimProof keccak256 leaf proof root.bytes = .ok true) :
    Listed leaves leaf := by
  obtain ⟨packed, hpacked, hhashes⟩ := mapM_computeLeafHash keccak256 haddress
  have hpackedList := flatMap_packedBytes hpacked
  have hnonempty : packed.map keccak256 ≠ [] := by
    intro hempty
    have hlength := hpacked.length_eq
    rw [List.map_eq_nil_iff.mp hempty, List.length_nil] at hlength
    exact hne (List.length_eq_zero_iff.mp hlength)
  obtain ⟨-, root', hroot', htop⟩ := computeBonusMerkleRoot_eq hhashes hnonempty
  obtain rfl : root' = root := Except.ok.inj (hroot'.symm.trans hroot)
  -- the check accepts, so the walk ends in the root
  rw [verifyMinerClaimProof, bind_eq_ok] at h
  obtain ⟨computed, hcomputed, h⟩ := h
  obtain ⟨leafBytes, hleafBytes, rfl⟩ := computeLeafHash_eq_ok.mp hcomputed
  rw [foldlM_eq_walk _ hproof, ok_bind, pure_eq_ok, decide_eq_true_eq] at h
  have hend : walk keccak256 (keccak256 leafBytes) siblings = root' := digest_ext h
  have hbytesOf : packedBytes leaf = [leafBytes] := by
    rw [packedBytes, hleafBytes]
    rfl
  have hhashed : hashed keccak256 leaves leaf siblings = rootPreimages keccak256 packed ++
      [leafBytes] ++ checkPreimages keccak256 (keccak256 leafBytes) siblings := by
    rw [hashed, hpackedList, hbytesOf, List.flatMap_singleton]
  rw [hhashed] at hinj
  have h84 : ∀ x ∈ packed, ∃ l ∈ leaves, packLeaf l = .ok x := by
    intro x hx
    obtain ⟨i, hi, rfl⟩ := List.mem_iff_getElem.mp hx
    have hi' : i < leaves.length := hpacked.length_eq ▸ hi
    have hat := (List.forall₂_iff_get.mp hpacked).2 i hi' hi
    exact ⟨leaves[i], List.getElem_mem hi', hat⟩
  have hmem : leafBytes ∈ packed := by
    refine mem_of_grown_walk hinj (fun x hx => ?_) (fun x hx => ?_) (length_packLeaf hleafBytes)
      ?_ hsiblings (fun x hx => ?_) ?_
    · obtain ⟨l, -, hl⟩ := h84 x hx
      exact length_packLeaf hl
    · exact List.mem_append_left _ (List.mem_append_left _ hx)
    · exact List.mem_append_left _ (List.mem_append_right _ (List.mem_singleton_self _))
    · exact List.mem_append_right _ hx
    · rw [hend]
      exact grown_top htop
  obtain ⟨l, hl, hpack⟩ := h84 leafBytes hmem
  exact ⟨l, hl, packLeaf_inj hpack hleafBytes⟩

/-- **Bonus Merkle claims.** Every miner of the list gets a short proof that is accepted, and
without a collision among the strings that are hashed only leaves of the list are accepted. -/
theorem bonusMerkleClaims (keccak256 : Bytes → Digest) {leaves : List MinerBonusLeaf}
    (hne : leaves ≠ []) (hdistinct : (leaves.map fun l => l.miner.toLower).Nodup)
    (haddress : ∀ l ∈ leaves, HasAddress l) :
    (∀ leaf ∈ leaves, ∀ miner : String, miner.toLower = leaf.miner.toLower →
      ∃ claim root, buildMinerClaimProof keccak256 leaves miner = .ok (some claim) ∧
        computeBonusMerkleRoot keccak256 leaves = .ok root ∧
        claim.proof.length ≤ Nat.clog 2 leaves.length ∧
        verifyMinerClaimProof keccak256 leaf claim.proof root.bytes = .ok true) ∧
    ∀ leaf proof siblings root, proof.mapM CoreTex.hexToBytes = .ok siblings →
      (∀ x ∈ siblings, x.length = 32) →
      Set.InjOn keccak256 {x | x ∈ hashed keccak256 leaves leaf siblings} →
      computeBonusMerkleRoot keccak256 leaves = .ok root →
      verifyMinerClaimProof keccak256 leaf proof root.bytes = .ok true →
      Listed leaves leaf ∧ (Uint256Amounts leaf → (∀ l ∈ leaves, Uint256Amounts l) →
        ∃ l ∈ leaves, addressBytes l.miner = addressBytes leaf.miner ∧
          l.bonusBotcoin = leaf.bonusBotcoin ∧ l.capBotcoin = leaf.capBotcoin) := by
  constructor
  · intro leaf hleaf miner hminer
    exact buildMinerClaimProof_verifies keccak256 hdistinct haddress hleaf hminer
  · intro leaf proof siblings root hproof hsiblings hinj hroot h
    have hlisted := verifyMinerClaimProof_sound keccak256 hne haddress hproof hsiblings hinj hroot h
    exact ⟨hlisted, hlisted.amounts⟩

/-! ### Runs -/

/-- A stand-in for a hash in concrete runs that takes in every byte. -/
def rollingDigest (bytes : Bytes) : Digest where
  bytes := writeBE 32 (bytes.foldl (fun acc b => acc * 257 + b.toNat + 1) 0)
  length_bytes := length_writeBE 32 _

def sampleMiner (digit : Char) : String :=
  "0x" ++ String.ofList (List.replicate 40 digit)

def sampleLeaves : List MinerBonusLeaf :=
  [⟨sampleMiner 'a', 5, 5⟩, ⟨sampleMiner 'b', 7, 9⟩, ⟨sampleMiner '3', 1, 2⟩]

theorem addressBytes_of_0x {miner : String} {digits : List Char}
    (h : miner.toList = '0' :: 'x' :: digits) (heven : digits.length % 2 = 0) :
    addressBytes miner = .ok (hexPairs digits) := by
  have hself : addressBytes miner = CoreTex.hexToBytes miner := by
    unfold addressBytes
    rw [h]
    rfl
  rw [hself, CoreTex.hexToBytes, h]
  exact if_neg (not_not_intro heven)

theorem toList_sampleMiner (digit : Char) :
    (sampleMiner digit).toList = '0' :: 'x' :: List.replicate 40 digit := by
  simp [sampleMiner]

theorem toLower_sampleMiner (digit : Char) :
    (sampleMiner digit).toLower = sampleMiner digit.toLower := by
  apply String.toList_inj.mp
  rw [toList_toLower, toList_sampleMiner, toList_sampleMiner, List.map_cons, List.map_cons,
    List.map_replicate]
  rfl

theorem hasAddress_sampleMiner (digit : Char) (bonus cap : Int) :
    HasAddress ⟨sampleMiner digit, bonus, cap⟩ := by
  have heven : (List.replicate 40 digit).length % 2 = 0 := by rw [List.length_replicate]
  refine ⟨_, addressBytes_of_0x (toList_sampleMiner digit) heven, ?_⟩
  have hlength := RigDispatch.length_hexPairs heven
  rw [List.length_replicate] at hlength
  omega

/-- The leaf of a list of one is accepted without siblings, and one string is hashed. -/
theorem single_accepts (keccak256 : Bytes → Digest) {l leaf : MinerBonusLeaf} {bytes : Bytes}
    (hl : packLeaf l = .ok bytes) (hleaf : packLeaf leaf = .ok bytes) :
    ∃ root, computeBonusMerkleRoot keccak256 [l] = .ok root ∧
      verifyMinerClaimProof keccak256 leaf [] root.bytes = .ok true ∧
      Set.InjOn keccak256 {x | x ∈ hashed keccak256 [l] leaf []} := by
  have hhashes : [l].mapM (computeLeafHash keccak256) = .ok [keccak256 bytes] := by
    rw [List.mapM_cons, computeLeafHash_eq_ok.mpr ⟨bytes, hl, rfl⟩]
    rfl
  obtain ⟨-, root, hroot, htop⟩ := computeBonusMerkleRoot_eq hhashes (List.cons_ne_nil _ _)
  rw [topOf_of_le_one _ le_rfl] at htop
  cases htop
  refine ⟨_, hroot, ?_, ?_⟩
  · rw [verifyMinerClaimProof, computeLeafHash_eq_ok.mpr ⟨bytes, hleaf, rfl⟩, ok_bind]
    exact congrArg Except.ok (decide_eq_true rfl)
  · have hone : ∀ x ∈ hashed keccak256 [l] leaf [], x = bytes := by
      intro x hx
      have hpacked : packedBytes l = [bytes] ∧ packedBytes leaf = [bytes] := by
        rw [packedBytes, packedBytes, hl, hleaf]
        exact ⟨rfl, rfl⟩
      have hpairs : allPairs (nodePair keccak256) [keccak256 bytes] = [] := by
        rw [allPairs, levelsUp_of_le_one _ le_rfl]
        rfl
      rw [hashed, List.flatMap_singleton, hpacked.1, hpacked.2, List.flatMap_singleton,
        rootPreimages, List.map_singleton, hpairs, checkPreimages] at hx
      simpa using hx
    intro x hx y hy _
    rw [hone x hx, hone y hy]

theorem bonusMerkleClaims_sample :
    (∃ claim root, buildMinerClaimProof rollingDigest sampleLeaves (sampleMiner 'A') =
        .ok (some claim) ∧
      computeBonusMerkleRoot rollingDigest sampleLeaves = .ok root ∧
      claim.proof.length ≤ Nat.clog 2 sampleLeaves.length ∧
      verifyMinerClaimProof rollingDigest ⟨sampleMiner 'a', 5, 5⟩ claim.proof root.bytes =
        .ok true) ∧
    Listed [⟨sampleMiner 'a', 5, 5⟩] ⟨sampleMiner 'a', 5, 5⟩ := by
  have haddress : ∀ l ∈ sampleLeaves, HasAddress l := by
    intro l hl
    simp only [sampleLeaves, List.mem_cons, List.not_mem_nil, or_false] at hl
    rcases hl with rfl | rfl | rfl <;> exact hasAddress_sampleMiner _ _ _
  have hdistinct : (sampleLeaves.map fun l => l.miner.toLower).Nodup := by
    refine List.Nodup.of_map String.toList ?_
    simp only [sampleLeaves, List.map_cons, List.map_nil, toLower_sampleMiner, toList_sampleMiner]
    decide
  have hlower : (sampleMiner 'A').toLower = (sampleMiner 'a').toLower := by
    rw [toLower_sampleMiner, toLower_sampleMiner]
    rfl
  constructor
  · have h := bonusMerkleClaims rollingDigest (List.cons_ne_nil _ _) hdistinct haddress
    exact h.1 ⟨sampleMiner 'a', 5, 5⟩ List.mem_cons_self (sampleMiner 'A') hlower
  · obtain ⟨bytes, hbytes⟩ := exists_packLeaf (hasAddress_sampleMiner 'a' 5 5)
    obtain ⟨root, hroot, haccepts, hinj⟩ := single_accepts rollingDigest hbytes hbytes
    have h := @bonusMerkleClaims rollingDigest [⟨sampleMiner 'a', 5, 5⟩] (List.cons_ne_nil _ _)
      (List.nodup_singleton _) fun l hl => by
        rw [List.mem_singleton.mp hl]
        exact hasAddress_sampleMiner 'a' 5 5
    exact (h.2 _ [] [] root rfl (fun x hx => absurd hx List.not_mem_nil) hinj hroot haccepts).1

/-- An amount of `2 ^ 256` is written as none, so the list with it accepts a leaf it does not
hold. -/
theorem verifyMinerClaimProof_wrapped :
    ∃ root, computeBonusMerkleRoot rollingDigest [⟨sampleMiner 'a', 2 ^ 256, 0⟩] = .ok root ∧
      verifyMinerClaimProof rollingDigest ⟨sampleMiner 'a', 0, 0⟩ [] root.bytes = .ok true ∧
      Set.InjOn rollingDigest
        {x | x ∈ hashed rollingDigest [⟨sampleMiner 'a', 2 ^ 256, 0⟩] ⟨sampleMiner 'a', 0, 0⟩ []} ∧
      Uint256Amounts ⟨sampleMiner 'a', 0, 0⟩ ∧
      ∀ l ∈ [(⟨sampleMiner 'a', 2 ^ 256, 0⟩ : MinerBonusLeaf)], l.bonusBotcoin ≠ 0 := by
  obtain ⟨bytes, hbytes⟩ := exists_packLeaf (hasAddress_sampleMiner 'a' 0 0)
  have hwrap : encodeUint256 (2 ^ 256) = encodeUint256 0 := by
    rw [encodeUint256, encodeUint256, asUint256, asUint256]
    rfl
  have hsame : packLeaf ⟨sampleMiner 'a', 2 ^ 256, 0⟩ = .ok bytes := by
    rw [← hbytes, packLeaf, packLeaf]
    dsimp only
    rw [hwrap]
  obtain ⟨root, hroot, haccepts, hinj⟩ := single_accepts rollingDigest hsame hbytes
  refine ⟨root, hroot, haccepts, hinj, ⟨by decide, by decide⟩, ?_⟩
  intro l hl
  rw [List.mem_singleton.mp hl]
  decide

end CoreTex.Reducer
