import StoryMarkup.Decimal.Binary
import StoryMarkup.Json.Printer
import StoryMarkup.Json.Reader
import StoryMarkup.Script.Interchange
import StoryMarkup.Script.Library.Argument
import StoryMarkup.Script.Library.Number

/-! The global functions. -/
namespace StoryMarkup.Script

def larger (x y : Float) : Float := if x.isNaN || y.isNaN then notANumber else if y < x then x else y

def smaller (x y : Float) : Float := if x.isNaN || y.isNaN then notANumber else if x < y then x else y

def signOf (x : Float) : Float := if x.isNaN || x == 0 then x else if x < 0 then -1 else 1

def roundHalfUp (x : Float) : Float := (x + 0.5).floor

def fieldsOf (h : Heap) (v : Value) : List (String × Value) :=
  let numbered (vs : List Value) : List (String × Value) := vs.zipIdx.map fun (v, i) => (Decimal.digitsText i, v)
  match v with
  | .object ref => (h.object ref).entries
  | .array ref => numbered (h.array ref).toList
  | .text s => numbered (s.toList.map fun c => .text c.toString)
  | _ => []

namespace ScriptM

variable {ω : Type}

def iterate (v : Value) : ScriptM ω (List Value) := do
  match v with
  | .array ref => return ((← heap).array ref).toList
  | .text s => return s.toList.map fun c => .text c.toString
  | _ => refuse (.notIterable v.kindName)

def pairs (fields : List (String × Value)) : ScriptM ω (List Value) :=
  fields.mapM fun (key, v) => newList [.text key, v]

def assignFields (args : List Value) : ScriptM ω Value := do
  match args with
  | .object ref :: sources =>
    sources.forM fun v => do
      let fields := fieldsOf (← heap) v
      modifyHeap fun h => h.modifyObject ref fun o => o.insertAll fields
    return .object ref
  | _ => refuse .assignTarget

def stringify (args : List Value) : ScriptM ω Value := do
  match arg args 0 with
  | .undefined | .function _ => return .undefined
  | v =>
    let json := (← heap).toJson v
    let indented : Bool := match arg args 2 with
      | .number x => x > 0
      | .text s => !s.isEmpty
      | _ => false
    return .text (if indented then json.pretty 0 else json.compact)

def parseJson (s : String) : ScriptM ω Value := do
  match Json.parse s with
  | .ok json => allocate fun h => h.ofJson json
  | .error e => throw ⟨.malformed (.json e), none⟩

def draw : ScriptM ω Value := do
  let state := nextRandom (← get).random
  modify fun m => { m with random := state }
  return .number (randomNumber state)

def callBuiltin (b : Builtin) (args : List Value) : ScriptM ω Value := do
  let first := arg args 0
  let math (f : Float → Float) : ScriptM ω Value := do return .number (f (← argNumber args 0))
  match b with
  | .toText => return .text (← argText args 0)
  | .toNumber => if args.isEmpty then return .number 0 else return .number (← toNumber first)
  | .toBool => return .bool first.isTruthy
  | .parseInt | .numberParseInt =>
    let base ← match given args 1 with
      | some v => do pure (some (← toNumber v))
      | none => pure none
    return .number (parseInteger (← display first) base)
  | .parseFloat | .numberParseFloat => return .number (parseDecimal (← display first))
  | .isNaN => return .bool (← toNumber first).isNaN
  | .numberIsNaN =>
    match first with
    | .number x => return .bool x.isNaN
    | _ => return .bool false
  | .isInteger =>
    match first with
    | .number x => return .bool (Decimal.isIntegral x)
    | _ => return .bool false
  | .isFinite =>
    match first with
    | .number x => return .bool (Decimal.isFinite x)
    | _ => return .bool false
  | .keys => newList ((fieldsOf (← heap) first).map fun e => .text e.1)
  | .values => newList ((fieldsOf (← heap) first).map (·.2))
  | .entries => newList (← pairs (fieldsOf (← heap) first))
  | .assign => assignFields args
  | .arrayIsArray =>
    match first with
    | .array _ => return .bool true
    | _ => return .bool false
  | .arrayFrom =>
    match first with
    | .object ref => newList (← pairs ((← heap).object ref).entries)
    | _ => newList (← iterate first)
  | .jsonStringify => stringify args
  | .jsonParse => parseJson (← display first)
  | .abs => math Float.abs
  | .ceil => math Float.ceil
  | .floor => math Float.floor
  | .round => math roundHalfUp
  | .trunc => math Decimal.trunc
  | .sign => math signOf
  | .sqrt => math Float.sqrt
  | .cbrt => math Decimal.cubeRoot
  | .log => math Float.log
  | .exp => math Float.exp
  | .sin => math Float.sin
  | .cos => math Float.cos
  | .tan => math Float.tan
  | .pow => return .number (Float.pow (← argNumber args 0) (← argNumber args 1))
  | .min => return .number ((← args.mapM toNumber).foldl smaller (1.0 / 0.0))
  | .max => return .number ((← args.mapM toNumber).foldl larger (-1.0 / 0.0))
  | .random => draw

def namespaceFields (name : String) : ScriptM ω (Bindings Value) := do
  return .ofList (← (Builtin.within name).mapM fun (short, b) => do return (short, ← newFunction (.builtin b)))

def global? (name : String) : ScriptM ω (Option Value) := do
  match name with
  | "Math" =>
    let constants := [("PI", Value.number (Float.ofBits 0x400921FB54442D18)),
      ("E", .number (Float.ofBits 0x4005BF0A8B145769))]
    return some (← newObject ((← namespaceFields name).insertAll constants))
  | "JSON" | "Object" | "Array" => return some (← newObject (← namespaceFields name))
  | _ =>
    match Builtin.ofName? name with
    | some b => return some (← newFunction (.builtin b))
    | none => return none

end ScriptM
end StoryMarkup.Script
