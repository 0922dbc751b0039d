import StoryMarkup.Script.Conversion

/-! Operators on values. -/
namespace StoryMarkup.Script

/-- A value as the position of an item: a whole number that is not negative, or the digits of
one. -/
def Value.index? : Value → Option Nat
  | .number x => if 0 ≤ x && Decimal.isIntegral x then some (Decimal.toCount x) else none
  | .text s => Decimal.readIndex? s
  | _ => none

namespace Heap

def unary (h : Heap) (op : UnaryOp) (v : Value) : Value :=
  match op with
  | .not => .bool (!v.isTruthy)
  | .negate => .number (-(h.toNumber v))
  | .plus => .number (h.toNumber v)
  | .complement => .number (Decimal.ofInt (-(Decimal.toInt32 (h.toNumber v)) - 1))
  | .typeOf => .text v.typeName
  | .void => .undefined

def addsAsText : Value → Bool
  | .text _ | .array _ | .object _ | .function _ | .pattern _ => true
  | _ => false

def add (h : Heap) (a b : Value) : Value :=
  if addsAsText a || addsAsText b then .text (h.display a ++ h.display b)
  else .number (h.toNumber a + h.toNumber b)

def compare (h : Heap) (texts : String → String → Bool) (numbers : Float → Float → Bool) (a b : Value) : Value :=
  match a, b with
  | .text s, .text t => .bool (texts s t)
  | _, _ => .bool (numbers (h.toNumber a) (h.toNumber b))

def hasKey (h : Heap) (key container : Value) : Except ScriptError Bool :=
  match container with
  | .object ref => .ok ((h.object ref).contains (h.display key))
  | .array ref =>
    let name := h.display key
    .ok (name == "length" || (Decimal.readIndex? name).any (· < (h.array ref).size))
  | _ => .error (.typeMismatch (.search (h.display key) container.kindName))

def bits (h : Heap) (f : BitVec 32 → BitVec 32 → BitVec 32) (a b : Value) : Value :=
  let word (v : Value) : BitVec 32 := BitVec.ofInt 32 (Decimal.toInt32 (h.toNumber v))
  .number (Decimal.ofInt (f (word a) (word b)).toInt)

def binary (h : Heap) (op : BinaryOp) (a b : Value) : Except ScriptError Value :=
  match op with
  | .add => .ok (h.add a b)
  | .sub => .ok (.number (h.toNumber a - h.toNumber b))
  | .mul => .ok (.number (h.toNumber a * h.toNumber b))
  | .div => .ok (.number (h.toNumber a / h.toNumber b))
  | .rem => .ok (.number (Decimal.remainder (h.toNumber a) (h.toNumber b)))
  | .pow => .ok (.number (Float.pow (h.toNumber a) (h.toNumber b)))
  | .eq => .ok (.bool (h.looseEq a b))
  | .notEq => .ok (.bool (!h.looseEq a b))
  | .strictEq => .ok (.bool (a.strictEq b))
  | .strictNotEq => .ok (.bool (!a.strictEq b))
  | .lt => .ok (h.compare (fun s t => s < t) (fun x y => x < y) a b)
  | .ltEq => .ok (h.compare (fun s t => !(t < s)) (fun x y => x ≤ y) a b)
  | .gt => .ok (h.compare (fun s t => t < s) (fun x y => y < x) a b)
  | .gtEq => .ok (h.compare (fun s t => !(s < t)) (fun x y => y ≤ x) a b)
  | .member => (h.hasKey a b).map .bool
  | .bitAnd => .ok (h.bits (· &&& ·) a b)
  | .bitOr => .ok (h.bits (· ||| ·) a b)
  | .bitXor => .ok (h.bits (· ^^^ ·) a b)

end Heap

def LogicalOp.decides (op : LogicalOp) (left : Value) : Bool :=
  match op with
  | .and => !left.isTruthy
  | .or => left.isTruthy
  | .nullish => !left.isNullish

end StoryMarkup.Script
