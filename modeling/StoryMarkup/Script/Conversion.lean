import StoryMarkup.Script.Grammar
import StoryMarkup.Script.Value

/-! Values as numbers and as text, and when two values are equal. -/
namespace StoryMarkup.Script

/-- The number a text stands for: blanks around it do not count, and no text at all is zero. -/
def numberOfText (s : String) : Float :=
  let t := Text.trim s
  if t.isEmpty then 0
  else match t.toList with
    | '0' :: 'x' :: digits | '0' :: 'X' :: digits =>
      ((Decimal.readWord? 16 digits).map Decimal.ofInt).getD (0.0 / 0.0)
    | _ => (Decimal.read? t).getD (0.0 / 0.0)

namespace Heap

/-- A list of no items counts as zero and one of one item as that item, down to some depth. What
comes out for a list that holds itself means nothing, and no more does its text. -/
def toNumberWithin (h : Heap) : Nat → Value → Float
  | _, .null => 0
  | _, .bool b => if b then 1 else 0
  | _, .number x => x
  | _, .text s => numberOfText s
  | depth + 1, .array ref =>
    match (h.array ref).toList with
    | [] => 0
    | [v] => h.toNumberWithin depth v
    | _ => 0.0 / 0.0
  | _, _ => 0.0 / 0.0

def toNumber (h : Heap) (v : Value) : Float := h.toNumberWithin h.depth v

def displayWithin (h : Heap) : Nat → Value → String
  | _, .undefined => "undefined"
  | _, .null => "null"
  | _, .bool b => if b then "true" else "false"
  | _, .number x => numberText x
  | _, .text s => s
  | 0, .array _ => ""
  | depth + 1, .array ref =>
    String.intercalate "," ((h.array ref).toList.map fun v => if v.isNullish then "" else h.displayWithin depth v)
  | _, .object _ => "[object Object]"
  | _, .function ref => "function " ++ ((h.function? ref).map Function.name).getD "" ++ "() \x7b [code] \x7d"
  | _, .pattern ref => ((h.pattern? ref).map Pattern.display).getD ""
  | _, .macroDef _ name => "@" ++ name
  | _, .node _ => "[object Node]"

def display (h : Heap) (v : Value) : String := h.displayWithin h.depth v

/-- The text of an item of a list; undefined and null leave an empty place. -/
def displayItem (h : Heap) (v : Value) : String := if v.isNullish then "" else h.display v

end Heap

namespace Value

/-- Equality without conversion; cells are equal only to themselves. -/
def strictEq : Value → Value → Bool
  | .undefined, .undefined | .null, .null => true
  | .bool a, .bool b => a == b
  | .number a, .number b => a == b
  | .text a, .text b => a == b
  | .array a, .array b => a == b
  | .object a, .object b => a == b
  | .function a, .function b => a == b
  | .pattern a, .pattern b => a == b
  | .macroDef a _, .macroDef b _ => a == b
  | .node a, .node b => a == b
  | _, _ => false

def same (a b : Value) : Bool :=
  match a, b with
  | .number x, .number y => x == y || (x.isNaN && y.isNaN)
  | _, _ => a.strictEq b

def isPrimitive : Value → Bool
  | .bool _ | .number _ | .text _ => true
  | _ => false

def isContainer : Value → Bool
  | .array _ | .object _ => true
  | _ => false

end Value

namespace Heap

/-- Two primitive values are compared as texts when both are texts, and as numbers otherwise. -/
def primitiveEq (h : Heap) (a b : Value) : Bool :=
  match a, b with
  | .text s, .text t => s == t
  | _, _ => h.toNumber a == h.toNumber b

/-- Equality with conversion. Undefined and null equal each other and nothing else; a list or an
object is compared with a primitive value by its text. -/
def looseEq (h : Heap) (a b : Value) : Bool :=
  if a.isNullish || b.isNullish then a.isNullish && b.isNullish
  else if a.isPrimitive && b.isPrimitive then h.primitiveEq a b
  else if a.isContainer && b.isPrimitive then h.primitiveEq (.text (h.display a)) b
  else if a.isPrimitive && b.isContainer then h.primitiveEq a (.text (h.display b))
  else a.strictEq b

end Heap
end StoryMarkup.Script
