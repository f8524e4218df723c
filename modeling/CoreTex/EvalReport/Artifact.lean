import CoreTex.EvalReport.Seeds
import CoreTex.Lib.JsValue
import CoreTex.Lib.Sort

/-!
# CoreTex.EvalReport.Artifact

The post-reveal eval report (`replay/eval-report-artifact.ts`): its canonical text
(`canonical/json.ts`), its hash, its shape and the binding of its seed inputs.

An artifact arrives as a `JsValue`, whatever its fields. `EvalArtifact.read` is what later code
reads of one whose shape was checked; the two fields the shape does not check are `dedupKey`, none
where it is no string, and `accepted`, read for its truth.
-/

namespace CoreTex.EvalReport

open CoreTex.Lib
open CoreTex.Coordinator (isAddress isBytes32)

/-! ### Canonical JSON -/

/-- The UTF-16 units of text. -/
def utf16Units (s : String) : List Nat :=
  s.toList.flatMap fun c =>
    if c.toNat < 0x10000 then [c.toNat]
    else [0xD800 + (c.toNat - 0x10000) / 0x400, 0xDC00 + (c.toNat - 0x10000) % 0x400]

/-- A character inside a JSON string. -/
def quoteChar (c : Char) : String :=
  match c.toNat with
  | 8 => "\\b"
  | 9 => "\\t"
  | 10 => "\\n"
  | 12 => "\\f"
  | 13 => "\\r"
  | 34 => "\\\""
  | 92 => "\\\\"
  | n =>
    if n < 32 then "\\u00" ++ String.ofList [hexDigit (n / 16), hexDigit (n % 16)]
    else c.toString

/-- `JSON.stringify` of a string. -/
def quote (s : String) : String :=
  "\"" ++ String.join (s.toList.map quoteChar) ++ "\""

/-- Entries in the order of their keys. -/
def sortByKey (entries : List (String × String)) : List (String × String) :=
  entries.insertionSort fun a b => utf16Units a.1 ≤ utf16Units b.1

variable (formatNumber : ℚ → String)

mutual

/-- `serialize`, none where it throws. `formatNumber` prints a finite number. -/
def serialize : JsValue → Option String
  | .undefined => none
  | .null => some "null"
  | .bool b => some (if b then "true" else "false")
  | .num (.fin q) => some (formatNumber q)
  | .num .nan => none
  | .num (.inf _) => none
  | .str s => some (quote s)
  | .arr items => do
    let parts ← serializeItems items
    return "[" ++ ",".intercalate parts ++ "]"
  | .obj fields => do
    let entries ← serializeFields fields
    return "\x7b" ++ ",".intercalate ((sortByKey entries).map fun e => quote e.1 ++ ":" ++ e.2) ++
      "\x7d"

def serializeItems : List JsValue → Option (List String)
  | [] => some []
  | v :: rest => do
    let text ← if v.isUndefined then some "null" else serialize v
    let texts ← serializeItems rest
    return text :: texts

def serializeFields : List (String × JsValue) → Option (List (String × String))
  | [] => some []
  | (key, v) :: rest => do
    let entries ← serializeFields rest
    if v.isUndefined then return entries
    let text ← serialize v
    return (key, text) :: entries

end

/-- `canonicalJson`, none where it throws. -/
def canonicalJson (value : JsValue) : Option String :=
  serialize formatNumber value

/-- The object without a property. -/
def withoutFields (keys : List String) : JsValue → JsValue
  | .obj fields => .obj (fields.filter fun e => !keys.contains e.1)
  | v => v

/-- `hashPostRevealEvalReportArtifact`, none where it throws. -/
def hashPostRevealEvalReportArtifact (keccak256 : Bytes → Digest) (artifact : JsValue) :
    Option String := do
  let text ← canonicalJson formatNumber (withoutFields ["artifactHash", "evalReportHash"] artifact)
  return (bytesToHex (keccak256 (encodeUtf8 text)).bytes).toLower

/-! ### The fields of an artifact -/

structure SeedDerivationInputs where
  epochId : Int
  receivedAtBlock : Int
  targetBlock : Int
  targetBlockOffset : Int
  blockhash : String
  patchHash : String
  parentStateRoot : String
  corpusRoot : String
  bundleHash : String

structure PerPatchReceipt where
  epochId : Int
  parentRoot : String
  minerAddress : String
  patchHash : String
  dedupKey : Option String
  receivedAtBlock : Int
  targetBlock : Int
  blockhash : String
  gateSeed : String
  confirmSeed : String
  gateScorePpm : Int
  confirmScorePpm : Int
  accepted : Bool

structure EvalArtifactContext where
  parentStateRoot : String
  corpusRoot : String
  coreVersionHash : String
  hiddenSeedCommit : String
  replayTolerancePpm : Int

structure EvalArtifact where
  evalReportHash : String
  artifactHash : String
  epochId : Int
  minerAddress : String
  outcome : String
  compactPatchBytesHex : String
  thresholdPpm : Int
  seedDerivation : SeedDerivationInputs
  receipt : PerPatchReceipt
  context : EvalArtifactContext

def SeedDerivationInputs.read (seed : JsValue) : SeedDerivationInputs where
  epochId := (seed.field "epochId").int
  receivedAtBlock := (seed.field "receivedAtBlock").int
  targetBlock := (seed.field "targetBlock").int
  targetBlockOffset := (seed.field "targetBlockOffset").int
  blockhash := (seed.field "blockhash").text
  patchHash := (seed.field "patchHash").text
  parentStateRoot := (seed.field "parentStateRoot").text
  corpusRoot := (seed.field "corpusRoot").text
  bundleHash := (seed.field "bundleHash").text

def PerPatchReceipt.read (receipt : JsValue) : PerPatchReceipt where
  epochId := (receipt.field "epochId").int
  parentRoot := (receipt.field "parentRoot").text
  minerAddress := (receipt.field "minerAddress").text
  patchHash := (receipt.field "patchHash").text
  dedupKey :=
    if (receipt.field "dedupKey").isText then some (receipt.field "dedupKey").text else none
  receivedAtBlock := (receipt.field "receivedAtBlock").int
  targetBlock := (receipt.field "targetBlock").int
  blockhash := (receipt.field "blockhash").text
  gateSeed := (receipt.field "gateSeed").text
  confirmSeed := (receipt.field "confirmSeed").text
  gateScorePpm := (receipt.field "gateScorePpm").int
  confirmScorePpm := (receipt.field "confirmScorePpm").int
  accepted := (receipt.field "accepted").truthy

def EvalArtifactContext.read (context : JsValue) : EvalArtifactContext where
  parentStateRoot := (context.field "parentStateRoot").text
  corpusRoot := (context.field "corpusRoot").text
  coreVersionHash := (context.field "coreVersionHash").text
  hiddenSeedCommit := (context.field "hiddenSeedCommit").text
  replayTolerancePpm := (context.field "replayTolerancePpm").int

def EvalArtifact.read (artifact : JsValue) : EvalArtifact where
  evalReportHash := (artifact.field "evalReportHash").text
  artifactHash := (artifact.field "artifactHash").text
  epochId := (artifact.field "epochId").int
  minerAddress := (artifact.field "minerAddress").text
  outcome := (artifact.field "outcome").text
  compactPatchBytesHex := (artifact.field "compactPatchBytesHex").text
  thresholdPpm := (artifact.field "thresholdPpm").int
  seedDerivation := .read (artifact.field "seedDerivation")
  receipt := .read (artifact.field "receipt")
  context := .read (artifact.field "context")

/-! ### The shape -/

/-- `isBytes32` of any value. -/
def bytes32Value (v : JsValue) : Bool :=
  v.isText && isBytes32 v.text

/-- `isAddress` of any value. -/
def addressValue (v : JsValue) : Bool :=
  v.isText && isAddress v.text

/-- `Number.isSafeInteger(v) && v >= 0`. -/
def countValue (v : JsValue) : Bool :=
  v.isSafeInteger && decide (0 ≤ v.int)

/-- `/^0x[0-9a-fA-F]*$/` and an even number of digits. -/
def hexBytesValue (v : JsValue) : Bool :=
  v.isText && match v.text.toList with
    | '0' :: 'x' :: digits => digits.all isHexChar && digits.length % 2 == 0
    | _ => false

/-- One check made of several fields in turn. -/
def checkFields (check : JsValue → Bool) (v : JsValue) (path suffix : String)
    (keys : List String) : Except String Unit :=
  keys.forM fun key => refuseIf (check (v.field key) = false) (path ++ key ++ suffix)

/-- `validateArtifactShape`. -/
def validateArtifactShape (artifact : JsValue) : Except String Unit := do
  refuseIf (artifact.isObject = false) "artifact must be an object"
  refuseIf ((artifact.field "version").isStr "coretex-post-reveal-eval-report-v1" = false)
    "version mismatch"
  refuseIf (bytes32Value (artifact.field "evalReportHash") = false) "evalReportHash must be bytes32"
  refuseIf (bytes32Value (artifact.field "artifactHash") = false) "artifactHash must be bytes32"
  refuseIf (countValue (artifact.field "epochId") = false) "epochId invalid"
  refuseIf (addressValue (artifact.field "minerAddress") = false) "minerAddress invalid"
  refuseIf ((artifact.field "outcome").isStr "SCREENER_PASS" = false ∧
    (artifact.field "outcome").isStr "STATE_ADVANCE" = false) "outcome invalid"
  refuseIf (hexBytesValue (artifact.field "compactPatchBytesHex") = false)
    "compactPatchBytesHex invalid"
  refuseIf (countValue (artifact.field "thresholdPpm") = false) "thresholdPpm invalid"
  let seed := artifact.field "seedDerivation"
  refuseIf (seed.isObject = false) "seedDerivation missing"
  refuseIf ((seed.field "mode").isStr "future_blockhash_dual_pack" = false)
    "seedDerivation.mode invalid"
  checkFields countValue seed "seedDerivation." " invalid"
    ["epochId", "receivedAtBlock", "targetBlock", "targetBlockOffset"]
  checkFields bytes32Value seed "seedDerivation." " must be bytes32"
    ["blockhash", "patchHash", "parentStateRoot", "corpusRoot", "bundleHash"]
  let context := artifact.field "context"
  refuseIf (context.isObject = false) "context missing"
  checkFields bytes32Value context "context." " must be bytes32"
    ["parentStateRoot", "corpusRoot", "coreVersionHash", "hiddenSeedCommit"]
  refuseIf (countValue (context.field "replayTolerancePpm") = false)
    "context.replayTolerancePpm invalid"
  let receipt := artifact.field "receipt"
  refuseIf (receipt.isObject = false) "receipt missing"
  refuseIf (countValue (receipt.field "epochId") = false) "receipt.epochId invalid"
  refuseIf (bytes32Value (receipt.field "parentRoot") = false) "receipt.parentRoot must be bytes32"
  refuseIf (addressValue (receipt.field "minerAddress") = false) "receipt.minerAddress invalid"
  checkFields countValue receipt "receipt." " invalid"
    ["gateScorePpm", "confirmScorePpm", "receivedAtBlock", "targetBlock"]
  checkFields bytes32Value receipt "receipt." " must be bytes32"
    ["blockhash", "patchHash", "gateSeed", "confirmSeed"]
  let a := EvalArtifact.read artifact
  refuseIf (a.receipt.epochId ≠ a.epochId) "receipt epoch mismatch"
  refuseIf (a.receipt.parentRoot.toLower ≠ a.context.parentStateRoot.toLower)
    "receipt parent mismatch"
  refuseIf (a.receipt.minerAddress.toLower ≠ a.minerAddress.toLower) "receipt miner mismatch"

/-! ### The seed inputs -/

/-- `hexEq`, of two strings. -/
def hexEq (a b : String) : Bool :=
  decide (a.toLower = b.toLower)

/-- `validateSeedDerivationBinding`. -/
def validateSeedDerivationBinding (artifact : EvalArtifact) : Except String Unit := do
  let seed := artifact.seedDerivation
  let receipt := artifact.receipt
  let context := artifact.context
  refuseIf (seed.epochId ≠ artifact.epochId)
    ("seedDerivation.epochId " ++ toString seed.epochId ++ " != " ++ toString artifact.epochId)
  refuseIf (seed.receivedAtBlock ≠ receipt.receivedAtBlock)
    ("seedDerivation.receivedAtBlock " ++ toString seed.receivedAtBlock ++ " != receipt " ++
      toString receipt.receivedAtBlock)
  refuseIf (seed.targetBlock ≠ receipt.targetBlock)
    ("seedDerivation.targetBlock " ++ toString seed.targetBlock ++ " != receipt " ++
      toString receipt.targetBlock)
  -- the sum is below 2^54, and a rounded one is no safe integer
  refuseIf (seed.receivedAtBlock + seed.targetBlockOffset ≠ seed.targetBlock)
    ("targetBlock " ++ toString seed.targetBlock ++ " != receivedAtBlock " ++
      toString seed.receivedAtBlock ++ " + offset " ++ toString seed.targetBlockOffset)
  refuseIf (hexEq seed.blockhash receipt.blockhash = false)
    "seedDerivation.blockhash != receipt blockhash"
  refuseIf (hexEq seed.patchHash receipt.patchHash = false)
    "seedDerivation.patchHash != receipt patchHash"
  refuseIf (hexEq seed.parentStateRoot receipt.parentRoot = false)
    "seedDerivation.parentStateRoot != receipt parentRoot"
  refuseIf (hexEq seed.parentStateRoot context.parentStateRoot = false)
    "seedDerivation.parentStateRoot != context"
  refuseIf (hexEq seed.corpusRoot context.corpusRoot = false)
    "seedDerivation.corpusRoot != context corpusRoot"
  refuseIf (hexEq seed.bundleHash context.coreVersionHash = false)
    "seedDerivation.bundleHash != context coreVersionHash"

end CoreTex.EvalReport
