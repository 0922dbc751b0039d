import StoryMarkup.Json.Basic
import StoryMarkup.Script.Conversion

/-! Values as JSON and back, copies, and values spelled out for inspection. -/
namespace StoryMarkup.Script

def jsonNumber (x : Float) : Json :=
  match Decimal.decode x with
  | .finite b => if b.isIntegral && b.whole < 9 * Nat.pow 10 15 then .int b.toInt else .number (.float x)
  | _ => .null

def Value.isUndefined : Value → Bool
  | .undefined => true
  | _ => false

namespace Heap

def toJsonWithin (h : Heap) : Nat → Value → Json
  | _, .bool b => .bool b
  | _, .number x => jsonNumber x
  | _, .text s => .string s
  | depth + 1, .array ref => .array ((h.array ref).toList.map (h.toJsonWithin depth))
  | depth + 1, .object ref =>
    let fields := (h.object ref).entries.filter fun e => !e.2.isUndefined
    .object (fields.map fun e => (e.1, h.toJsonWithin depth e.2))
  | _, _ => .null

def toJson (h : Heap) (v : Value) : Json := h.toJsonWithin h.depth v

mutual

def ofJson (h : Heap) : Json → Value × Heap
  | .null => (.null, h)
  | .bool b => (.bool b, h)
  | .number n => (.number n.toFloat, h)
  | .string s => (.text s, h)
  | .array items =>
    let (vs, h) := ofJsonItems h items
    h.newArray vs.toArray
  | .object fields =>
    let (es, h) := ofJsonFields h fields
    h.newObject (.ofList es)

def ofJsonItems (h : Heap) : List Json → List Value × Heap
  | [] => ([], h)
  | j :: rest =>
    let (v, h) := ofJson h j
    let (vs, h) := ofJsonItems h rest
    (v :: vs, h)

def ofJsonFields (h : Heap) : List (String × Json) → List (String × Value) × Heap
  | [] => ([], h)
  | (key, j) :: rest =>
    let (v, h) := ofJson h j
    let (es, h) := ofJsonFields h rest
    ((key, v) :: es, h)

end

def copyWithin : Nat → Value → Heap → Value × Heap
  | depth + 1, .array ref, h =>
    let (vs, h) := (h.array ref).toList.foldl (fun (vs, h) v =>
      let (w, h) := copyWithin depth v h
      (w :: vs, h)) ([], h)
    h.newArray vs.reverse.toArray
  | depth + 1, .object ref, h =>
    let (es, h) := (h.object ref).entries.foldl (fun (es, h) e =>
      let (w, h) := copyWithin depth e.2 h
      ((e.1, w) :: es, h)) ([], h)
    h.newObject (.ofList es.reverse)
  | _, v, h => (v, h)

def copy (h : Heap) (v : Value) : Value × Heap := copyWithin h.depth v h

def inspectWithin (h : Heap) : Nat → Value → String
  | _, .text s => Text.quoted s
  | depth + 1, .array ref => "[" ++ String.intercalate ", " ((h.array ref).toList.map (h.inspectWithin depth)) ++ "]"
  | depth + 1, .object ref =>
    let fields := (h.object ref).entries.map fun e => Text.quoted e.1 ++ ": " ++ h.inspectWithin depth e.2
    "\x7b" ++ String.intercalate ", " fields ++ "\x7d"
  | _, .function ref => "<function " ++ ((h.function? ref).map Function.name).getD "" ++ ">"
  | _, .macroDef _ name => "<macro " ++ name ++ ">"
  | _, .node id => "<node " ++ toString id ++ ">"
  | _, v => h.display v

def inspect (h : Heap) (v : Value) : String := h.inspectWithin h.depth v

end Heap
end StoryMarkup.Script
