import CoreTex.Lib.Except
import CoreTex.State.Patch

/-!
# CoreTex.State.Codec

Unpacking a state from its 32768 packed bytes (`state/codec.ts`).
-/

namespace CoreTex

open CoreTex.Lib

/-- 1024 words of 32 bytes. -/
def packedSize : Nat := 32768

/-- Read the words of a state; reserved bits are not validated. -/
def unpack (bytes : Bytes) : Except JsError CortexState := do
  let length := bytes.length
  refuseIf (bytes.length ≠ packedSize) (rangeError s!"unpack: expected {packedSize} bytes, got {length}")
  return {
    words := (List.range Ranges.wordCount).map fun i =>
      readBigEndian32 ((bytes.drop (i * 32)).take 32)
    length_words := by rw [List.length_map, List.length_range] }

end CoreTex
