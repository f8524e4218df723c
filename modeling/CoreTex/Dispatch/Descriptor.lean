import CoreTex.Frontier.Manifest

/-!
# CoreTex.Dispatch.Descriptor

The 97-byte transition descriptor (`dispatch.py`): version byte, artifact address, parent
root and new root, decoded with the cross-checks against a signed receipt in the order the
deployed verifier makes them.
-/

namespace CoreTex

open CoreTex.Lib

/-- `TRANSITION_DESCRIPTOR_BYTES`. -/
def transitionDescriptorBytes : Nat := 97

/-- `TRANSITION_DESCRIPTOR_VERSION`. -/
def transitionDescriptorVersion : UInt8 := 0x21

/-- `TRANSITION_DESCRIPTOR_ARTIFACT_OFFSET`. -/
def transitionDescriptorArtifactOffset : Nat := 1

/-- `TRANSITION_DESCRIPTOR_PARENT_OFFSET`. -/
def transitionDescriptorParentOffset : Nat := 33

/-- `TRANSITION_DESCRIPTOR_NEW_ROOT_OFFSET`. -/
def transitionDescriptorNewRootOffset : Nat := 65

/-- `TRANSITION_DESCRIPTOR_HASH_LABEL`. -/
def transitionDescriptorHashLabel : Bytes := ascii "coretex-transition-descriptor-v3"

/-- `ZERO_WORD` and `DESCRIPTOR_ZERO_PATCH_HASH`. -/
def zeroWord : PyStr := List.replicate 64 48

/-- The refusal codes of the decoder. -/
inductive DescriptorRefusal
  | empty
  | versionUnsupported
  | lengthInvalid
  | advancePatchHashZero
  | hashMismatch
  | artifactHashZero
  | parentMismatch
  | newRootMismatch
  | formatVersionMismatch
  deriving DecidableEq

/-- A decoded descriptor. Roots are bare lower-case hex. -/
structure TransitionDescriptor where
  version : UInt8
  patchArtifactHash : PyStr
  parentStateRoot : PyStr
  newStateRoot : PyStr
  raw : Bytes
  deriving DecidableEq

/-- `str(word).lower().removeprefix("0x")`. Only ASCII letters fold here: no other
character has a lower case among the hex digits a word is compared with. -/
def bareLower (word : PyStr) : PyStr :=
  let lower := word.map fun c => if 65 ≤ c ∧ c ≤ 90 then c + 32 else c
  if (py "0x").isPrefixOf lower then lower.drop 2 else lower

variable (keccak256 : Bytes → Bytes)

/-- `transition_descriptor_hash`. -/
def transitionDescriptorHash (descriptorBytes : Bytes) : PyStr :=
  hexText (keccak256 (transitionDescriptorHashLabel ++ descriptorBytes))

/-- `decode_transition_descriptor`. An argument that is `none` is not checked. -/
def decodeTransitionDescriptor (raw : Bytes) (parentStateRoot newStateRoot expectedPatchHash :
    Option PyStr) (transitionFormatVersion : Option Int) :
    Except DescriptorRefusal TransitionDescriptor := do
  refuseIf (raw = []) .empty
  let version := raw.headD 0
  refuseIf (version ≠ transitionDescriptorVersion) .versionUnsupported
  refuseIf (raw.length ≠ transitionDescriptorBytes) .lengthInvalid
  let expected := expectedPatchHash.map bareLower
  refuseIf (expected = some zeroWord) .advancePatchHashZero
  refuseIf (∃ e ∈ expected, transitionDescriptorHash keccak256 raw ≠ e) .hashMismatch
  let artifactHash := hexText ((raw.drop transitionDescriptorArtifactOffset).take 32)
  refuseIf (artifactHash = zeroWord) .artifactHashZero
  let parent := hexText ((raw.drop transitionDescriptorParentOffset).take 32)
  let newRoot := hexText (raw.drop transitionDescriptorNewRootOffset)
  refuseIf (∃ e ∈ parentStateRoot.map bareLower, parent ≠ e) .parentMismatch
  refuseIf (∃ e ∈ newStateRoot.map bareLower, newRoot ≠ e) .newRootMismatch
  refuseIf (∃ e ∈ transitionFormatVersion, e ≠ version.toNat) .formatVersionMismatch
  .ok {
    version := version
    patchArtifactHash := artifactHash
    parentStateRoot := parent
    newStateRoot := newRoot
    raw := raw }

/-- What a decoded descriptor says: 97 bytes, the version, and three fields that spell the
rest of the bytes. -/
theorem decodeTransitionDescriptor_inv {raw : Bytes} {parentStateRoot newStateRoot
    expectedPatchHash : Option PyStr} {transitionFormatVersion : Option Int}
    {descriptor : TransitionDescriptor}
    (h : decodeTransitionDescriptor keccak256 raw parentStateRoot newStateRoot expectedPatchHash
      transitionFormatVersion = .ok descriptor) :
    descriptor.raw = raw ∧ raw.length = transitionDescriptorBytes ∧
      descriptor.version = transitionDescriptorVersion ∧
      descriptor.patchArtifactHash ≠ zeroWord ∧
      descriptor.patchArtifactHash = hexText ((raw.drop 1).take 32) ∧
      descriptor.parentStateRoot = hexText ((raw.drop 33).take 32) ∧
      descriptor.newStateRoot = hexText (raw.drop 65) := by
  rw [decodeTransitionDescriptor] at h
  obtain ⟨-, h⟩ := refuseIf_bind_eq_ok.mp h
  obtain ⟨hversion, h⟩ := refuseIf_bind_eq_ok.mp h
  obtain ⟨hlength, h⟩ := refuseIf_bind_eq_ok.mp h
  obtain ⟨-, h⟩ := refuseIf_bind_eq_ok.mp h
  obtain ⟨-, h⟩ := refuseIf_bind_eq_ok.mp h
  obtain ⟨hartifact, h⟩ := refuseIf_bind_eq_ok.mp h
  obtain ⟨-, h⟩ := refuseIf_bind_eq_ok.mp h
  obtain ⟨-, h⟩ := refuseIf_bind_eq_ok.mp h
  obtain ⟨-, h⟩ := refuseIf_bind_eq_ok.mp h
  cases h
  exact ⟨rfl, Decidable.not_not.mp hlength, Decidable.not_not.mp hversion, hartifact, rfl, rfl,
    rfl⟩

/-! ### The encoder -/

/-- `bytes.fromhex`, on an even number of lower-case digits. -/
def bytesFromHex : PyStr → Bytes
  | a :: b :: rest =>
      UInt8.ofNat ((hexValue a).getD 0 * 16 + (hexValue b).getD 0) :: bytesFromHex rest
  | _ => []

/-- A root argument of the encoder. -/
def descriptorRoot (value : Json) (name : String) : Except DescriptorRefusal Root :=
  match checkRoot value name with
  | .ok root => .ok root
  | .error _ => .error .lengthInvalid

/-- `encode_transition_descriptor`: what it returns has been read back. -/
def encodeTransitionDescriptor (patchArtifactHash parentStateRoot newStateRoot : Json) :
    Except DescriptorRefusal Bytes := do
  let artifact ← descriptorRoot patchArtifactHash "patch_artifact_hash"
  let parent ← descriptorRoot parentStateRoot "parent_state_root"
  let newRoot ← descriptorRoot newStateRoot "new_state_root"
  refuseIf (artifact.hex = zeroWord) .artifactHashZero
  let raw := [transitionDescriptorVersion] ++ bytesFromHex artifact.hex ++
    bytesFromHex parent.hex ++ bytesFromHex newRoot.hex
  let _ ← decodeTransitionDescriptor keccak256 raw (some parent.hex) (some newRoot.hex) none none
  .ok raw

theorem hexValue_of_isHexDigit {c : Nat} (h : isHexDigit c = true) :
    ∃ v, hexValue c = some v ∧ v < 16 ∧ (hexDigit v).toNat = c := by
  have hc : c < 103 := by
    have := of_decide_eq_true h
    omega
  have hall : ∀ d : Fin 103, isHexDigit d = true →
      ∃ v : Fin 16, hexValue d = some v.val ∧ (hexDigit v).toNat = d := by
    decide +kernel
  obtain ⟨v, hv, hd⟩ := hall ⟨c, hc⟩ h
  exact ⟨v, hv, v.isLt, hd⟩

theorem hexText_cons (b : UInt8) (bytes : Bytes) :
    hexText (b :: bytes) =
      (hexDigit (b.toNat / 16)).toNat :: (hexDigit (b.toNat % 16)).toNat :: hexText bytes := by
  simp [hexText, hexChars, hexByte]

/-- Hex digits survive the way to bytes and back. -/
theorem hexText_bytesFromHex {s : PyStr} (hdigits : ∀ c ∈ s, isHexDigit c = true)
    (heven : s.length % 2 = 0) : hexText (bytesFromHex s) = s := by
  induction s using bytesFromHex.induct with
  | case1 a b rest ih =>
      obtain ⟨x, hx, hxlt, hxa⟩ := hexValue_of_isHexDigit (hdigits a (by simp))
      obtain ⟨y, hy, hylt, hyb⟩ := hexValue_of_isHexDigit (hdigits b (by simp))
      rw [List.length_cons, List.length_cons] at heven
      have hrest := ih (fun c hc => hdigits c (by simp [hc])) (by omega)
      have hbyte : (UInt8.ofNat (x * 16 + y)).toNat = x * 16 + y := by
        rw [UInt8.toNat_ofNat', Nat.mod_eq_of_lt (by omega)]
      have hhigh : (x * 16 + y) / 16 = x := by omega
      have hlow : (x * 16 + y) % 16 = y := by omega
      rw [bytesFromHex, hx, hy, Option.getD_some, Option.getD_some, hexText_cons, hbyte, hhigh,
        hlow, hxa, hyb, hrest]
  | case2 s hs =>
      cases s with
      | nil => rfl
      | cons a s =>
          cases s with
          | nil => simp at heven
          | cons b s => exact absurd rfl (hs a b s)

theorem length_bytesFromHex {s : PyStr} (heven : s.length % 2 = 0)
    (hdigits : ∀ c ∈ s, isHexDigit c = true) : 2 * (bytesFromHex s).length = s.length := by
  have := congrArg List.length (hexText_bytesFromHex hdigits heven)
  rwa [hexText, List.length_map, length_hexChars] at this

theorem Root.hexText_hex (r : Root) : hexText (bytesFromHex r.hex) = r.hex :=
  hexText_bytesFromHex (fun _ hc => r.isHexDigit_of_mem hc) (by simp)

theorem Root.length_bytesFromHex (r : Root) : (bytesFromHex r.hex).length = 32 := by
  have := CoreTex.length_bytesFromHex (by simp) fun _ hc => r.isHexDigit_of_mem hc
  rw [r.length_hex] at this
  omega

/-- What the encoder returns decodes to the roots it was given. -/
theorem decodeTransitionDescriptor_encode {artifact parent newRoot : Root} {raw : Bytes}
    (h : encodeTransitionDescriptor keccak256 artifact.json parent.json newRoot.json = .ok raw) :
    decodeTransitionDescriptor keccak256 raw none none none none = .ok {
      version := transitionDescriptorVersion
      patchArtifactHash := artifact.hex
      parentStateRoot := parent.hex
      newStateRoot := newRoot.hex
      raw := raw } := by
  have hroot : ∀ (r : Root) (name : String), descriptorRoot r.json name = .ok r := by
    intro r name
    rw [descriptorRoot, checkRoot_eq_ok.mpr rfl]
  rw [encodeTransitionDescriptor, hroot, ok_bind, hroot, ok_bind, hroot, ok_bind,
    refuseIf_bind_eq_ok] at h
  obtain ⟨hzero, h⟩ := h
  obtain ⟨_, _, h⟩ := bind_eq_ok.mp h
  cases h
  have hartifact : ((([transitionDescriptorVersion] ++ bytesFromHex artifact.hex ++
      bytesFromHex parent.hex ++ bytesFromHex newRoot.hex).drop 1).take 32) =
      bytesFromHex artifact.hex := by
    simp [artifact.length_bytesFromHex]
  have hparent : ((([transitionDescriptorVersion] ++ bytesFromHex artifact.hex ++
      bytesFromHex parent.hex ++ bytesFromHex newRoot.hex).drop 33).take 32) =
      bytesFromHex parent.hex := by
    simp [artifact.length_bytesFromHex, parent.length_bytesFromHex]
  have hnew : ([transitionDescriptorVersion] ++ bytesFromHex artifact.hex ++
      bytesFromHex parent.hex ++ bytesFromHex newRoot.hex).drop 65 =
      bytesFromHex newRoot.hex := by
    simp [List.drop_append, artifact.length_bytesFromHex, parent.length_bytesFromHex]
  rw [decodeTransitionDescriptor]
  refine refuseIf_bind_eq_ok.mpr ⟨by simp, ?_⟩
  refine refuseIf_bind_eq_ok.mpr ⟨by simp, ?_⟩
  refine refuseIf_bind_eq_ok.mpr ⟨by simp [Root.length_bytesFromHex, transitionDescriptorBytes], ?_⟩
  refine refuseIf_bind_eq_ok.mpr ⟨by simp, ?_⟩
  refine refuseIf_bind_eq_ok.mpr ⟨by simp, ?_⟩
  rw [transitionDescriptorArtifactOffset, transitionDescriptorParentOffset,
    transitionDescriptorNewRootOffset, hartifact, hparent, hnew, Root.hexText_hex,
    Root.hexText_hex, Root.hexText_hex]
  refine refuseIf_bind_eq_ok.mpr ⟨hzero, ?_⟩
  refine refuseIf_bind_eq_ok.mpr ⟨by simp, ?_⟩
  refine refuseIf_bind_eq_ok.mpr ⟨by simp, ?_⟩
  exact refuseIf_bind_eq_ok.mpr ⟨by simp, rfl⟩

end CoreTex
