import Calldata.ParamType
import Calldata.Signed

/-!
# Values

What is passed to a function, and what is read back from a payload. A string also serves as a
literal for numbers and bytes.
-/

namespace Calldata

inductive Value where
  | int (v : Signed)
  | uint (v : Word)
  | bool (b : Bool)
  | identifier (kind : IdKind) (id : Identifier kind)
  | bytes (bs : Bytes)
  | string (s : String)
  | array (items : List Value)

namespace Value

instance : Inhabited Value := ⟨bool false⟩

/-- The form of a value in the words of a message. -/
def form : Value → String
  | int _ => "int"
  | uint _ => "uint"
  | bool _ => "bool"
  | identifier k _ => k.label
  | bytes _ => "bytes"
  | string _ => "string"
  | array _ => "array"

/-! ## Equality -/

mutual

def decEq : (a b : Value) → Decidable (a = b)
  | int v, int w => decidable_of_iff (v = w) (by simp)
  | uint v, uint w => decidable_of_iff (v = w) (by simp)
  | bool v, bool w => decidable_of_iff (v = w) (by simp)
  | identifier k v, identifier l w =>
    if h : k = l then decidable_of_iff (h ▸ v = w) (by subst h; simp)
    else .isFalse (by simp [h])
  | bytes v, bytes w => decidable_of_iff (v = w) (by simp)
  | string v, string w => decidable_of_iff (v = w) (by simp)
  | array v, array w =>
    match decEqList v w with
    | .isTrue h => .isTrue (by simp [h])
    | .isFalse h => .isFalse (by simp [h])
  | int _, uint _ | int _, bool _ | int _, identifier _ _ | int _, bytes _ | int _, string _
  | int _, array _ => .isFalse (by simp)
  | uint _, int _ | uint _, bool _ | uint _, identifier _ _ | uint _, bytes _ | uint _, string _
  | uint _, array _ => .isFalse (by simp)
  | bool _, int _ | bool _, uint _ | bool _, identifier _ _ | bool _, bytes _ | bool _, string _
  | bool _, array _ => .isFalse (by simp)
  | identifier _ _, int _ | identifier _ _, uint _ | identifier _ _, bool _
  | identifier _ _, bytes _ | identifier _ _, string _ | identifier _ _, array _ =>
    .isFalse (by simp)
  | bytes _, int _ | bytes _, uint _ | bytes _, bool _ | bytes _, identifier _ _
  | bytes _, string _ | bytes _, array _ => .isFalse (by simp)
  | string _, int _ | string _, uint _ | string _, bool _ | string _, identifier _ _
  | string _, bytes _ | string _, array _ => .isFalse (by simp)
  | array _, int _ | array _, uint _ | array _, bool _ | array _, identifier _ _
  | array _, bytes _ | array _, string _ => .isFalse (by simp)

def decEqList : (as bs : List Value) → Decidable (as = bs)
  | [], [] => .isTrue rfl
  | a :: as, b :: bs =>
    match decEq a b, decEqList as bs with
    | .isTrue h, .isTrue h' => .isTrue (by simp [h, h'])
    | .isFalse h, _ => .isFalse (by simp [h])
    | _, .isFalse h => .isFalse (by simp [h])
  | [], _ :: _ | _ :: _, [] => .isFalse (by simp)

end

instance : DecidableEq Value := decEq

/-! ## Text -/

mutual

/-- The value as it is shown to a reader. -/
def text : Value → String
  | int v => v.text
  | uint v => decimal v.toNat
  | bool b => if b then "true" else "false"
  | identifier _ id => id.text
  | bytes bs => Hex.marked bs
  | string s => Text.quoted s
  | array items => "[" ++ ", ".intercalate (texts items) ++ "]"

def texts : List Value → List String
  | [] => []
  | item :: items => item.text :: texts items

end

end Value

end Calldata
