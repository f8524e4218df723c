import CoreTex.State.Merkle

/-!
# CoreTex.Eval.SeedDerivation

The patch hash (`eval/seed-derivation.ts`): the domain-separated identifier of a patch's
wire bytes.
-/

namespace CoreTex

open CoreTex.Lib

/-- `PATCH_HASH_DOMAIN_PREFIX`. -/
def patchHashDomainPrefix : String := "coretex-patch-hash-v1"

/-- `TextEncoder.encode`. -/
def encodeUtf8 (s : String) : Bytes :=
  s.toUTF8.toList

variable (keccak256 : Bytes → Digest)

/-- The hex keccak of the domain prefix and the wire bytes. -/
def computePatchHash (normalizedPatchBytes : Bytes) : String :=
  bytesToHex (keccak256 (encodeUtf8 patchHashDomainPrefix ++ normalizedPatchBytes)).bytes

end CoreTex
