import CoreTex.Coordinator.Boot
import CoreTex.Eval.SeedDerivation
import CoreTex.Replay.RpcLog

/-!
# CoreTex.EvalReport.Seeds

The eval seeds and the dedup key of a patch (`eval/seed-derivation.ts`).

An error that is thrown is its message. Hex text is ASCII wherever it passed a check, so `toLower`
is the host's on all the text that two sides can agree on.
-/

namespace CoreTex.EvalReport

open CoreTex.Lib

/-- Text after a `0x` or a `0X`. -/
def clean (hex : String) : List Char :=
  match hex.toList with
  | '0' :: 'x' :: rest => rest
  | '0' :: 'X' :: rest => rest
  | cs => cs

def isHexChar (c : Char) : Bool :=
  (hexValue c.toNat).isSome

/-- Half of a length, as the host prints it. -/
def halfText (n : Nat) : String :=
  toString (n / 2) ++ if n % 2 = 0 then "" else ".5"

def assertBytes32Hex (value field : String) : Except String Unit := do
  refuseIf ((clean value).length ≠ 64)
    (field ++ ": must be 32 bytes hex (got " ++ halfText (clean value).length ++ ")")
  refuseIf ((clean value).all isHexChar = false) (field ++ ": non-hex characters")

/-- `hexToBytes`, on text that passed `assertBytes32Hex`. -/
def hexBytes (hex : String) : Bytes :=
  hexPairs (clean hex)

structure EvalSeedInput where
  epochSecret : String
  blockhash : String
  epochId : Int
  patchHash : String
  parentRoot : String
  corpusRoot : String
  bundleHash : String

def evalSeedGateDomainPrefix : String := "coretex-eval-v1-gate"

def evalSeedConfirmDomainPrefix : String := "coretex-eval-v1-confirm"

def dedupKeyDomainPrefix : String := "coretex-dedup-key-v1"

/-- `/^0x?0{64}$/i`. -/
def isZeroBlockhash (blockhash : String) : Bool :=
  match blockhash.toList with
  | '0' :: 'x' :: rest => rest = List.replicate 64 '0'
  | '0' :: 'X' :: rest => rest = List.replicate 64 '0'
  | cs => cs = List.replicate 65 '0'

/-- The low 64 bits of a number, most significant byte first. -/
def u64BE (n : Int) : Bytes :=
  writeBE 8 (n % 2 ^ 64).toNat

variable (keccak256 : Bytes → Digest)

def deriveEvalSeedWithPrefix (domain : String) (input : EvalSeedInput) : Except String String := do
  assertBytes32Hex input.epochSecret "epochSecret"
  assertBytes32Hex input.blockhash "blockhash"
  assertBytes32Hex input.patchHash "patchHash"
  assertBytes32Hex input.parentRoot "parentRoot"
  assertBytes32Hex input.corpusRoot "corpusRoot"
  assertBytes32Hex input.bundleHash "bundleHash"
  refuseIf (isZeroBlockhash input.blockhash = true)
    "deriveEvalSeed: blockhash is zero — wait for the target block before deriving"
  return bytesToHex (keccak256 (encodeUtf8 domain ++ hexBytes input.epochSecret ++
    hexBytes input.blockhash ++ u64BE input.epochId ++ hexBytes input.patchHash ++
    hexBytes input.parentRoot ++ hexBytes input.corpusRoot ++ hexBytes input.bundleHash)).bytes

def deriveGateEvalSeed (input : EvalSeedInput) : Except String String :=
  deriveEvalSeedWithPrefix keccak256 evalSeedGateDomainPrefix input

def deriveConfirmEvalSeed (input : EvalSeedInput) : Except String String :=
  deriveEvalSeedWithPrefix keccak256 evalSeedConfirmDomainPrefix input

def computeDedupKey (parentRoot : String) (normalizedPatchBytes : Bytes) : Except String String := do
  assertBytes32Hex parentRoot "parentRoot"
  return bytesToHex (keccak256 (encodeUtf8 dedupKeyDomainPrefix ++ hexBytes parentRoot ++
    normalizedPatchBytes)).bytes

end CoreTex.EvalReport
