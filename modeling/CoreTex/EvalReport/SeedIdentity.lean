import CoreTex.EvalReport.Seeds
import CoreTex.Replay.RigText
import CoreTex.State.WireForm

/-!
# CoreTex.EvalReport.SeedIdentity

What the eval seeds, the patch hash and the dedup key are hashes of (`eval/seed-derivation.ts`).

`seedPreimage_eq_iff` says when two seeds hash the same bytes, `zeroScoreDelta_eq_iff` when two
patches do. Both rest on fixed widths: the domain prefixes differ inside the shorter one, and the
score delta has its own eight bytes.
-/

namespace CoreTex.EvalReport

open CoreTex.Lib

/-! ### The semantic patch hash -/

def scoreDeltaWireOffset : Nat := 2

def scoreDeltaWireBytes : Nat := 8

/-- `norm.fill(0, SCORE_DELTA_WIRE_OFFSET, …)` on a copy. -/
def zeroScoreDelta (compactPatchBytes : Bytes) : Bytes :=
  compactPatchBytes.take scoreDeltaWireOffset ++ List.replicate scoreDeltaWireBytes 0 ++
    compactPatchBytes.drop (scoreDeltaWireOffset + scoreDeltaWireBytes)

def semanticPatchHash (keccak256 : Bytes → Digest) (compactPatchBytes : Bytes) :
    Except String String := do
  refuseIf (compactPatchBytes.length < scoreDeltaWireOffset + scoreDeltaWireBytes)
    "semanticPatchHash: compact patch shorter than the fixed header"
  return computePatchHash keccak256 (zeroScoreDelta compactPatchBytes)

/-! ### The hashed bytes -/

/-- The two seeds. -/
inductive SeedKind
  | gate | confirm
  deriving DecidableEq

def SeedKind.domain : SeedKind → String
  | .gate => evalSeedGateDomainPrefix
  | .confirm => evalSeedConfirmDomainPrefix

def SeedKind.derive (keccak256 : Bytes → Digest) :
    SeedKind → EvalSeedInput → Except String String
  | .gate => deriveGateEvalSeed keccak256
  | .confirm => deriveConfirmEvalSeed keccak256

/-- What a seed is the hash of. -/
def seedPreimage (kind : SeedKind) (input : EvalSeedInput) : Bytes :=
  encodeUtf8 kind.domain ++ hexBytes input.epochSecret ++ hexBytes input.blockhash ++
    u64BE input.epochId ++ hexBytes input.patchHash ++ hexBytes input.parentRoot ++
    hexBytes input.corpusRoot ++ hexBytes input.bundleHash

/-- What a patch hash is the hash of. -/
def patchHashPreimage (normalizedPatchBytes : Bytes) : Bytes :=
  encodeUtf8 patchHashDomainPrefix ++ normalizedPatchBytes

/-- What a dedup key is the hash of. -/
def dedupKeyPreimage (parentRoot : String) (normalizedPatchBytes : Bytes) : Bytes :=
  encodeUtf8 dedupKeyDomainPrefix ++ hexBytes parentRoot ++ normalizedPatchBytes

/-! ### Hex fields -/

/-- Text of 32 bytes in hex. -/
def IsBytes32 (value : String) : Prop :=
  (clean value).length = 64 ∧ ∀ c ∈ clean value, IsHex c

/-- One hex text but for the prefix and the case. -/
def SameHexText (a b : String) : Prop :=
  (clean a).map Char.toLower = (clean b).map Char.toLower

theorem assertBytes32Hex_eq_ok {value field : String} :
    assertBytes32Hex value field = .ok () ↔ IsBytes32 value := by
  have hall : (clean value).all isHexChar = true ↔ ∀ c ∈ clean value, IsHex c := List.all_eq_true
  rw [assertBytes32Hex, refuseIf_bind_eq_ok, refuseIf_eq_ok, IsBytes32, ← hall, not_not,
    Bool.not_eq_false]

theorem IsBytes32.even {value : String} (h : IsBytes32 value) : (clean value).length % 2 = 0 := by
  rw [h.1]

theorem IsBytes32.length_hexBytes {value : String} (h : IsBytes32 value) :
    (hexBytes value).length = 32 := by
  have hlength := RigDispatch.length_hexPairs h.even
  rw [h.1] at hlength
  rw [hexBytes]
  omega

/-- The bytes do not depend on the prefix and the case, and nothing else is lost. -/
theorem hexBytes_eq_iff {a b : String} (ha : IsBytes32 a) (hb : IsBytes32 b) :
    hexBytes a = hexBytes b ↔ SameHexText a b := by
  rw [hexBytes, hexBytes, RigDispatch.hexPairs_eq_hexSpelled ha.2 ha.even,
    RigDispatch.hexPairs_eq_hexSpelled hb.2 hb.even, SameHexText,
    RigDispatch.map_toLower_digits ha.2 ha.even, RigDispatch.map_toLower_digits hb.2 hb.even]
  exact ⟨congrArg hexChars, fun h => hexChars_injective h⟩

/-- Among the spellings of the zero hash, the test misses the one without a prefix. -/
theorem isZeroBlockhash_of_zero {blockhash : String}
    (h : clean blockhash = List.replicate 64 '0') :
    isZeroBlockhash blockhash = false ↔ blockhash.toList = List.replicate 64 '0' := by
  rw [clean] at h
  rw [isZeroBlockhash]
  generalize blockhash.toList = cs at h ⊢
  split at h
  · simp [h, List.replicate]
  · simp [h, List.replicate]
  · subst h
    simp [List.replicate]

/-! ### Seeds -/

/-- Every hex field is 32 bytes. -/
structure EvalSeedInput.Accepted (input : EvalSeedInput) : Prop where
  epochSecret : IsBytes32 input.epochSecret
  blockhash : IsBytes32 input.blockhash
  patchHash : IsBytes32 input.patchHash
  parentRoot : IsBytes32 input.parentRoot
  corpusRoot : IsBytes32 input.corpusRoot
  bundleHash : IsBytes32 input.bundleHash

/-- The same input, hex read without prefix and case. -/
structure EvalSeedInput.Same (a b : EvalSeedInput) : Prop where
  epochSecret : SameHexText a.epochSecret b.epochSecret
  blockhash : SameHexText a.blockhash b.blockhash
  epochId : a.epochId = b.epochId
  patchHash : SameHexText a.patchHash b.patchHash
  parentRoot : SameHexText a.parentRoot b.parentRoot
  corpusRoot : SameHexText a.corpusRoot b.corpusRoot
  bundleHash : SameHexText a.bundleHash b.bundleHash

/-- An accepted input of which a seed is the hash. -/
theorem derive_eq_ok {keccak256 : Bytes → Digest} {kind : SeedKind} {input : EvalSeedInput}
    {seed : String} : kind.derive keccak256 input = .ok seed ↔ input.Accepted ∧
      isZeroBlockhash input.blockhash = false ∧
      seed = bytesToHex (keccak256 (seedPreimage kind input)).bytes := by
  have hderive : kind.derive keccak256 input =
      deriveEvalSeedWithPrefix keccak256 kind.domain input := by
    cases kind <;> rfl
  have hfield : ∀ {value field : String} {f : Unit → Except String String},
      (assertBytes32Hex value field >>= f) = .ok seed ↔ IsBytes32 value ∧ f () = .ok seed := by
    intro value field f
    rw [bind_eq_ok, ← @assertBytes32Hex_eq_ok value field]
    exact ⟨fun ⟨_, h, hf⟩ => ⟨h, hf⟩, fun ⟨h, hf⟩ => ⟨(), h, hf⟩⟩
  rw [hderive, deriveEvalSeedWithPrefix, hfield, hfield, hfield, hfield, hfield, hfield,
    refuseIf_bind_eq_ok, pure_eq_ok, Bool.not_eq_true]
  constructor
  · intro h
    obtain ⟨hsecret, hblock, hpatch, hparent, hcorpus, hbundle, hzero, rfl⟩ := h
    exact ⟨⟨hsecret, hblock, hpatch, hparent, hcorpus, hbundle⟩, hzero, rfl⟩
  · intro h
    obtain ⟨⟨hsecret, hblock, hpatch, hparent, hcorpus, hbundle⟩, hzero, rfl⟩ := h
    exact ⟨hsecret, hblock, hpatch, hparent, hcorpus, hbundle, hzero, rfl⟩

/-- The prefixes of the two seeds differ at their seventeenth byte. -/
theorem seedPreimage_gate_ne_confirm (a b : EvalSeedInput) :
    seedPreimage .gate a ≠ seedPreimage .confirm b := by
  intro h
  have htake := congrArg (List.take 17) h
  have hlong : 17 ≤ (encodeUtf8 evalSeedGateDomainPrefix).length ∧
      17 ≤ (encodeUtf8 evalSeedConfirmDomainPrefix).length := by decide +kernel
  simp only [seedPreimage, SeedKind.domain, List.append_assoc] at htake
  rw [List.take_append_of_le_length hlong.1, List.take_append_of_le_length hlong.2] at htake
  revert htake
  decide +kernel

/-- The prefix of a seed differs from the other ones at its ninth byte. -/
theorem take_seedPreimage (kind : SeedKind) (input : EvalSeedInput) :
    (seedPreimage kind input).take 9 = encodeUtf8 "coretex-e" := by
  have hlong : ∀ kind : SeedKind, 9 ≤ (encodeUtf8 kind.domain).length ∧
      (encodeUtf8 kind.domain).take 9 = encodeUtf8 "coretex-e" := by
    intro kind
    cases kind <;> decide +kernel
  simp only [seedPreimage, List.append_assoc]
  rw [List.take_append_of_le_length (hlong kind).1, (hlong kind).2]

theorem seedPreimage_ne_patchHashPreimage (kind : SeedKind) (input : EvalSeedInput)
    (bytes : Bytes) : seedPreimage kind input ≠ patchHashPreimage bytes := by
  intro h
  have htake := congrArg (List.take 9) h
  rw [take_seedPreimage, patchHashPreimage,
    List.take_append_of_le_length (by decide +kernel)] at htake
  revert htake
  decide +kernel

theorem seedPreimage_ne_dedupKeyPreimage (kind : SeedKind) (input : EvalSeedInput)
    (root : String) (bytes : Bytes) : seedPreimage kind input ≠ dedupKeyPreimage root bytes := by
  intro h
  have htake := congrArg (List.take 9) h
  rw [take_seedPreimage, dedupKeyPreimage, List.append_assoc,
    List.take_append_of_le_length (by decide +kernel)] at htake
  revert htake
  decide +kernel

theorem u64BE_injective {m n : Int} (hm : 0 ≤ m ∧ m < 2 ^ 64) (hn : 0 ≤ n ∧ n < 2 ^ 64)
    (h : u64BE m = u64BE n) : m = n := by
  have hread := congrArg readBE h
  rw [u64BE, u64BE, readBE_writeBE, readBE_writeBE] at hread
  omega

/-- **Two seeds hash the same bytes** only of one kind and for one input. -/
theorem seedPreimage_eq_iff {kind kind' : SeedKind} {a b : EvalSeedInput} (ha : a.Accepted)
    (hb : b.Accepted) (haEpoch : 0 ≤ a.epochId ∧ a.epochId < 2 ^ 64)
    (hbEpoch : 0 ≤ b.epochId ∧ b.epochId < 2 ^ 64) :
    seedPreimage kind a = seedPreimage kind' b ↔ kind = kind' ∧ a.Same b := by
  constructor
  · intro h
    have hkind : kind = kind' := by
      match kind, kind' with
      | .gate, .gate => rfl
      | .confirm, .confirm => rfl
      | .gate, .confirm => exact absurd h (seedPreimage_gate_ne_confirm a b)
      | .confirm, .gate => exact absurd h.symm (seedPreimage_gate_ne_confirm b a)
    subst hkind
    simp only [seedPreimage, List.append_assoc, List.append_cancel_left_eq] at h
    -- every part has a fixed width
    obtain ⟨hsecret, h⟩ := List.append_inj h
      (ha.epochSecret.length_hexBytes.trans hb.epochSecret.length_hexBytes.symm)
    obtain ⟨hblock, h⟩ := List.append_inj h
      (ha.blockhash.length_hexBytes.trans hb.blockhash.length_hexBytes.symm)
    obtain ⟨hepoch, h⟩ := List.append_inj h
      ((length_writeBE 8 _).trans (length_writeBE 8 _).symm)
    obtain ⟨hpatch, h⟩ := List.append_inj h
      (ha.patchHash.length_hexBytes.trans hb.patchHash.length_hexBytes.symm)
    obtain ⟨hparent, h⟩ := List.append_inj h
      (ha.parentRoot.length_hexBytes.trans hb.parentRoot.length_hexBytes.symm)
    obtain ⟨hcorpus, hbundle⟩ := List.append_inj h
      (ha.corpusRoot.length_hexBytes.trans hb.corpusRoot.length_hexBytes.symm)
    exact ⟨rfl, (hexBytes_eq_iff ha.epochSecret hb.epochSecret).mp hsecret,
      (hexBytes_eq_iff ha.blockhash hb.blockhash).mp hblock,
      u64BE_injective haEpoch hbEpoch hepoch,
      (hexBytes_eq_iff ha.patchHash hb.patchHash).mp hpatch,
      (hexBytes_eq_iff ha.parentRoot hb.parentRoot).mp hparent,
      (hexBytes_eq_iff ha.corpusRoot hb.corpusRoot).mp hcorpus,
      (hexBytes_eq_iff ha.bundleHash hb.bundleHash).mp hbundle⟩
  · intro h
    obtain ⟨rfl, hsame⟩ := h
    rw [seedPreimage, seedPreimage, (hexBytes_eq_iff ha.epochSecret hb.epochSecret).mpr
      hsame.epochSecret, (hexBytes_eq_iff ha.blockhash hb.blockhash).mpr hsame.blockhash,
      hsame.epochId, (hexBytes_eq_iff ha.patchHash hb.patchHash).mpr hsame.patchHash,
      (hexBytes_eq_iff ha.parentRoot hb.parentRoot).mpr hsame.parentRoot,
      (hexBytes_eq_iff ha.corpusRoot hb.corpusRoot).mpr hsame.corpusRoot,
      (hexBytes_eq_iff ha.bundleHash hb.bundleHash).mpr hsame.bundleHash]

/-! ### Patches -/

/-- The patch with no score delta. -/
def withoutScore (p : Patch) : Patch :=
  { p with scoreDelta := 0 }

/-- The patch with no score delta and its words as the wire has them. -/
def onWire (p : Patch) : Patch :=
  { withoutScore p with newWords := p.newWords.map (· % 2 ^ 256) }

theorem onWire_of_uint256 {p : Patch} (h : p.Uint256Words) : onWire p = withoutScore p := by
  have hwords : p.newWords.map (· % 2 ^ 256) = p.newWords := by
    conv_rhs => rw [← List.map_id p.newWords]
    exact List.map_congr_left fun w hw => Int.emod_eq_of_lt (h w hw).1 (h w hw).2
  rw [onWire, hwords]
  rfl

theorem uint256_onWire (p : Patch) : (onWire p).Uint256Words := by
  intro w hw
  obtain ⟨v, -, rfl⟩ := List.mem_map.mp hw
  exact ⟨Int.emod_nonneg _ (by decide), Int.emod_lt_of_pos _ (by decide)⟩

theorem zeroScoreDelta_append {front window : Bytes} (rest : Bytes)
    (hfront : front.length = scoreDeltaWireOffset) (hwindow : window.length = scoreDeltaWireBytes) :
    zeroScoreDelta (front ++ (window ++ rest)) =
      front ++ (List.replicate scoreDeltaWireBytes 0 ++ rest) := by
  rw [zeroScoreDelta, List.take_left' hfront, ← List.drop_drop, List.drop_left' hfront,
    List.drop_left' hwindow, List.append_assoc]

/-- **The zeroed window** is the encoding of the patch with no score delta. -/
theorem encodePatch_withoutScore {p : Patch} {bytes : Bytes} (h : encodePatch p = .ok bytes) :
    encodePatch (withoutScore p) = .ok (zeroScoreDelta bytes) := by
  rw [withoutScore]
  unfold encodePatch at h ⊢
  dsimp only at h ⊢
  rw [refuseIf_bind_eq_ok, refuseIf_bind_eq_ok] at h
  rw [refuseIf_bind_eq_ok, refuseIf_bind_eq_ok]
  obtain ⟨hcount, hlengths, h⟩ := h
  refine ⟨hcount, hlengths, ?_⟩
  cases htype : validatePatchType p.patchType p.indices with
  | error reason =>
      rw [htype] at h
      exact absurd h throw_ne_ok
  | ok u =>
      rw [htype] at h
      dsimp only at h ⊢
      rw [bind_eq_ok] at h
      obtain ⟨encodedIndices, hindices, h⟩ := h
      rw [refuseIf_bind_eq_ok, refuseIf_bind_eq_ok, pure_eq_ok] at h
      obtain ⟨-, hroot, rfl⟩ := h
      rw [hindices, ok_bind, refuseIf_bind_eq_ok, refuseIf_bind_eq_ok, pure_eq_ok]
      refine ⟨by decide, hroot, ?_⟩
      have hdelta : (writeBE 4 (p.scoreDelta.toNat / 2 ^ 32) ++
          writeBE 4 (p.scoreDelta.toNat % 2 ^ 32)).length = scoreDeltaWireBytes := by
        rw [List.length_append, length_writeBE, length_writeBE]
        rfl
      have hzero := @zeroScoreDelta_append [UInt8.ofNat (p.patchType % 256).toNat,
        UInt8.ofNat (p.wordCount % 256).toNat] _ (p.parentStateRoot ++
          ((encodedIndices.zip p.newWords).map fun c => encodeCell c.1 c.2).flatten) rfl hdelta
      simp only [List.append_assoc] at hzero ⊢
      rw [hzero]
      rfl

/-- Words are written modulo `2 ^ 256`. -/
theorem encodePatch_onWire (p : Patch) : encodePatch (onWire p) = encodePatch (withoutScore p) := by
  have hcell : ∀ c : Bytes × Int, encodeCell c.1 (c.2 % 2 ^ 256) = encodeCell c.1 c.2 := by
    intro c
    rw [encodeCell, encodeCell, writeBigEndian32, writeBigEndian32, asUint256, asUint256]
    congr 3
    omega
  have hcells : ∀ encodedIndices : List Bytes,
      ((encodedIndices.zip (p.newWords.map (· % 2 ^ 256))).map fun c => encodeCell c.1 c.2) =
        (encodedIndices.zip p.newWords).map fun c => encodeCell c.1 c.2 := by
    intro encodedIndices
    rw [List.zip_map_right, List.map_map]
    exact List.map_congr_left fun c _ => hcell c
  rw [onWire, withoutScore]
  unfold encodePatch
  dsimp only
  simp only [List.length_map, hcells]

/-- **Two patches hash the same bytes** when they are one on the wire but for the score delta. -/
theorem zeroScoreDelta_eq_iff {p q : Patch} {x y : Bytes} (hp : encodePatch p = .ok x)
    (hq : encodePatch q = .ok y) : zeroScoreDelta x = zeroScoreDelta y ↔ onWire p = onWire q := by
  have hx := (encodePatch_onWire p).trans (encodePatch_withoutScore hp)
  have hy := (encodePatch_onWire q).trans (encodePatch_withoutScore hq)
  constructor
  · intro h
    rw [h] at hx
    have hread := decodePatch_of_encodePatch (uint256_onWire p) hx
    rw [decodePatch_of_encodePatch (uint256_onWire q) hy] at hread
    exact (Except.ok.inj hread).symm
  · intro h
    rw [h, hy] at hx
    exact (Except.ok.inj hx).symm

/-! ### The identities -/

/-- The zero blockhash without a prefix, in an input whose fields are well formed. -/
def BareZero (input : EvalSeedInput) : Prop :=
  input.Accepted ∧ input.blockhash.toList = List.replicate 64 '0'

/-- Two patches that the encoder accepts, and whose words differ by multiples of `2 ^ 256` alone. -/
def WordsAlias (p q : Patch) : Prop :=
  (∃ x, encodePatch p = .ok x) ∧ (∃ y, encodePatch q = .ok y) ∧ onWire p = onWire q ∧
    withoutScore p ≠ withoutScore q

theorem not_wordsAlias {p q : Patch} (hp : p.Uint256Words) (hq : q.Uint256Words) :
    ¬ WordsAlias p q := by
  intro h
  obtain ⟨-, -, hwire, hne⟩ := h
  rw [onWire_of_uint256 hp, onWire_of_uint256 hq] at hwire
  exact hne hwire

/-- What the seeds and the hash of a patch identify, for two inputs and two patches. -/
structure Identities (keccak256 : Bytes → Digest) (a b : EvalSeedInput) (p q : Patch) : Prop where
  /-- A seed is the hash of its preimage. -/
  hashed : ∀ (kind : SeedKind) seed, kind.derive keccak256 a = .ok seed →
    seed = bytesToHex (keccak256 (seedPreimage kind a)).bytes
  /-- Seeds of two kinds or of two inputs hash different bytes. -/
  apart : ∀ (kind kind' : SeedKind) seed seed', kind.derive keccak256 a = .ok seed →
    kind'.derive keccak256 b = .ok seed' → 0 ≤ a.epochId ∧ a.epochId < 2 ^ 64 →
    0 ≤ b.epochId ∧ b.epochId < 2 ^ 64 →
    (seedPreimage kind a = seedPreimage kind' b ↔ kind = kind' ∧ a.Same b)
  /-- No seed hashes what a patch hash or a dedup key does. -/
  domains : ∀ (kind : SeedKind) root bytes, seedPreimage kind a ≠ patchHashPreimage bytes ∧
    seedPreimage kind a ≠ dedupKeyPreimage root bytes
  /-- The zero blockhash, in whatever spelling, yields no seed. -/
  observed : clean a.blockhash = List.replicate 64 '0' →
    ∀ (kind : SeedKind) seed, kind.derive keccak256 a ≠ .ok seed
  /-- The hash of a patch is that of its encoding with no score delta. -/
  semantic : ∀ x, encodePatch p = .ok x → encodePatch (withoutScore p) = .ok (zeroScoreDelta x) ∧
    semanticPatchHash keccak256 x =
      .ok (bytesToHex (keccak256 (patchHashPreimage (zeroScoreDelta x))).bytes)
  /-- Two patches hash the same bytes when they differ in their score delta at most. -/
  patches : ∀ x y, encodePatch p = .ok x → encodePatch q = .ok y →
    (zeroScoreDelta x = zeroScoreDelta y ↔ withoutScore p = withoutScore q)

/-- An encoded patch is longer than the header that the semantic hash needs. -/
theorem semanticPatchHash_of_encodePatch (keccak256 : Bytes → Digest) {p : Patch} {x : Bytes}
    (h : encodePatch p = .ok x) : semanticPatchHash keccak256 x =
      .ok (bytesToHex (keccak256 (patchHashPreimage (zeroScoreDelta x))).bytes) := by
  have hlong : ¬ x.length < scoreDeltaWireOffset + scoreDeltaWireBytes := by
    have hzero := (encodePatch_onWire p).trans (encodePatch_withoutScore h)
    obtain ⟨patchType, delta, root, cells, hform, hx, -⟩ :=
      encodePatch_wireForm (uint256_onWire p) hzero
    have hlength := congrArg List.length hx
    have hroot := hform.length_root
    simp only [zeroScoreDelta, wireBytes, List.length_append, List.length_take,
      List.length_replicate, List.length_drop, length_writeBE, List.length_cons,
      List.length_nil, scoreDeltaWireOffset, scoreDeltaWireBytes] at hlength ⊢
    omega
  rw [semanticPatchHash, refuseIf_of_not hlong]
  rfl

/-- The zero blockhash yields no seed but without a prefix. -/
theorem observed_iff (keccak256 : Bytes → Digest) (a : EvalSeedInput) :
    (clean a.blockhash = List.replicate 64 '0' →
      ∀ (kind : SeedKind) seed, kind.derive keccak256 a ≠ .ok seed) ↔ ¬ BareZero a := by
  constructor
  · intro h hbare
    obtain ⟨haccepted, hblock⟩ := hbare
    have hclean : clean a.blockhash = List.replicate 64 '0' := by
      rw [clean, hblock]
      rfl
    have hpassed := (isZeroBlockhash_of_zero hclean).mpr hblock
    exact h hclean .gate _ (derive_eq_ok.mpr ⟨haccepted, hpassed, rfl⟩)
  · intro hbare hclean kind seed hseed
    obtain ⟨haccepted, hpassed, -⟩ := derive_eq_ok.mp hseed
    exact hbare ⟨haccepted, (isZeroBlockhash_of_zero hclean).mp hpassed⟩

theorem patches_iff (p q : Patch) :
    (∀ x y, encodePatch p = .ok x → encodePatch q = .ok y →
      (zeroScoreDelta x = zeroScoreDelta y ↔ withoutScore p = withoutScore q)) ↔
      ¬ WordsAlias p q := by
  constructor
  · intro h halias
    obtain ⟨⟨x, hx⟩, ⟨y, hy⟩, hwire, hne⟩ := halias
    exact hne ((h x y hx hy).mp ((zeroScoreDelta_eq_iff hx hy).mpr hwire))
  · intro halias x y hx hy
    rw [zeroScoreDelta_eq_iff hx hy]
    constructor
    · intro hwire
      by_contra hne
      exact halias ⟨⟨x, hx⟩, ⟨y, hy⟩, hwire, hne⟩
    · intro heq
      have hwords : (withoutScore p).newWords = (withoutScore q).newWords := by rw [heq]
      have hwords : p.newWords = q.newWords := hwords
      rw [onWire, onWire, heq, hwords]

/-- **Seed and patch identities.** They hold but for the zero blockhash without a prefix, which
the test for an unobserved block lets through, and for words that are one modulo `2 ^ 256`. -/
theorem identities_iff (keccak256 : Bytes → Digest) (a b : EvalSeedInput) (p q : Patch) :
    Identities keccak256 a b p q ↔ ¬ BareZero a ∧ ¬ WordsAlias p q := by
  constructor
  · intro h
    exact ⟨(observed_iff keccak256 a).mp h.observed, (patches_iff p q).mp h.patches⟩
  · intro h
    obtain ⟨hbare, halias⟩ := h
    exact {
      hashed := fun kind seed hseed => (derive_eq_ok.mp hseed).2.2
      apart := fun kind kind' seed seed' hseed hseed' haEpoch hbEpoch =>
        seedPreimage_eq_iff (derive_eq_ok.mp hseed).1 (derive_eq_ok.mp hseed').1 haEpoch hbEpoch
      domains := fun kind root bytes => ⟨seedPreimage_ne_patchHashPreimage kind a bytes,
        seedPreimage_ne_dedupKeyPreimage kind a root bytes⟩
      observed := (observed_iff keccak256 a).mpr hbare
      semantic := fun x hx =>
        ⟨encodePatch_withoutScore hx, semanticPatchHash_of_encodePatch keccak256 hx⟩
      patches := (patches_iff p q).mpr halias }

/-- An input whose block is not observed, spelled without a prefix. -/
def bareInput : EvalSeedInput where
  epochSecret := "0x" ++ String.ofList (List.replicate 64 '1')
  blockhash := String.ofList (List.replicate 64 '0')
  epochId := 7
  patchHash := "0x" ++ String.ofList (List.replicate 64 '2')
  parentRoot := "0x" ++ String.ofList (List.replicate 64 '3')
  corpusRoot := "0x" ++ String.ofList (List.replicate 64 '4')
  bundleHash := "0x" ++ String.ofList (List.replicate 64 '5')

/-- Its blockhash is zero, and there are seeds; with `0x` before the zeros there are none. -/
theorem deriveEvalSeed_bareZero :
    clean bareInput.blockhash = List.replicate 64 '0' ∧
      (∃ seed, deriveGateEvalSeed tailDigest bareInput = .ok seed) ∧
      (∃ seed, deriveConfirmEvalSeed tailDigest bareInput = .ok seed) ∧
      deriveGateEvalSeed tailDigest { bareInput with blockhash := "0x" ++ bareInput.blockhash } =
        .error "deriveEvalSeed: blockhash is zero — wait for the target block before deriving" := by
  refine ⟨by decide +kernel, ⟨_, rfl⟩, ⟨_, rfl⟩, by decide +kernel⟩

end CoreTex.EvalReport
