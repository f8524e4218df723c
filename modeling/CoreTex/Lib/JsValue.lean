import Mathlib.Algebra.Group.Nat.Defs
import Mathlib.Data.Rat.Defs
import Mathlib.Tactic.Common

/-!
# CoreTex.Lib.JsValue

Values of a JavaScript host that hold data only, as `JSON.parse` builds them and as an
adversary may send them: any field can be missing or of another type.

`JsValue.field` reads a property that may be missing. `text` and `int` read a value whose type was
checked before; `isSafeInteger_iff` and `isText_iff` say what such a check leaves.
-/

namespace CoreTex.Lib

/-- A number; a finite one by its exact value. -/
inductive JsNum
  | nan
  | inf (negative : Bool)
  | fin (q : ℚ)
  deriving DecidableEq

inductive JsValue
  | undefined
  | null
  | bool (b : Bool)
  | num (n : JsNum)
  | str (s : String)
  | arr (items : List JsValue)
  | obj (fields : List (String × JsValue))

namespace JsValue

/-- A whole number. -/
def ofInt (n : Int) : JsValue :=
  .num (.fin n)

/-- `value.key`, `undefined` where there is no such property. -/
def field (v : JsValue) (key : String) : JsValue :=
  match v with
  | .obj fields => ((fields.find? fun e => e.1 = key).map Prod.snd).getD .undefined
  | _ => .undefined

/-- `value && typeof value === "object"`. -/
def isObject : JsValue → Bool
  | .arr _ => true
  | .obj _ => true
  | _ => false

def isUndefined : JsValue → Bool
  | .undefined => true
  | _ => false

/-- What `if (value)` reads. -/
def truthy : JsValue → Bool
  | .undefined => false
  | .null => false
  | .bool b => b
  | .num .nan => false
  | .num (.inf _) => true
  | .num (.fin q) => decide (q ≠ 0)
  | .str s => decide (s ≠ "")
  | .arr _ => true
  | .obj _ => true

/-- `typeof value === "string"`. -/
def isText : JsValue → Bool
  | .str _ => true
  | _ => false

/-- The characters of a value that was checked to be a string. -/
def text : JsValue → String
  | .str s => s
  | _ => ""

/-- `value === n`. -/
def isInt (v : JsValue) (n : Int) : Bool :=
  match v with
  | .num (.fin q) => decide (q = n)
  | _ => false

/-- `value === s`. -/
def isStr (v : JsValue) (s : String) : Bool :=
  match v with
  | .str t => decide (t = s)
  | _ => false

/-- `value === b`. -/
def isBool (v : JsValue) (b : Bool) : Bool :=
  match v with
  | .bool c => decide (c = b)
  | _ => false

/-- `Number.isSafeInteger(value)`. -/
def isSafeInteger : JsValue → Bool
  | .num (.fin q) => decide (q.den = 1 ∧ q.num.natAbs ≤ 2 ^ 53 - 1)
  | _ => false

/-- `Number.isFinite(value)`. -/
def isFinite : JsValue → Bool
  | .num (.fin _) => true
  | _ => false

/-- The value of a number that was checked to be whole. -/
def int : JsValue → Int
  | .num (.fin q) => q.num
  | _ => 0

@[simp] theorem text_str (s : String) : text (.str s) = s := rfl

@[simp] theorem int_ofInt (n : Int) : int (ofInt n) = n := rfl

@[simp] theorem isInt_ofInt (m n : Int) : isInt (ofInt m) n = decide (m = n) := by
  simp [isInt, ofInt]

theorem isText_iff {v : JsValue} : isText v = true ↔ v = .str v.text := by
  cases v <;> simp [isText, text]

theorem isStr_iff {v : JsValue} {s : String} : isStr v s = true ↔ v = .str s := by
  cases v <;> simp [isStr]

theorem isInt_iff {v : JsValue} {n : Int} : isInt v n = true ↔ v = ofInt n := by
  cases v with
  | num m => cases m <;> simp [isInt, ofInt]
  | _ => simp [isInt, ofInt]

theorem isSafeInteger_iff {v : JsValue} :
    isSafeInteger v = true ↔ v = ofInt v.int ∧ v.int.natAbs ≤ 2 ^ 53 - 1 := by
  cases v with
  | num n =>
      cases n with
      | fin q =>
          simp only [isSafeInteger, decide_eq_true_eq, int, ofInt, num.injEq, JsNum.fin.injEq]
          refine and_congr_left fun _ => ⟨fun hden => ?_, fun hq => ?_⟩
          · exact ((Rat.den_eq_one_iff q).mp hden).symm
          · rw [hq]
            rfl
      | nan => simp [isSafeInteger, int, ofInt]
      | inf negative => simp [isSafeInteger, int, ofInt]
  | _ => simp [isSafeInteger, int, ofInt]

end JsValue

end CoreTex.Lib
