import StoryMarkup.Script.Library.Argument
import StoryMarkup.Sorting.Basic

/-! Methods of lists. One that calls a function goes through the items the list had when it
started. -/
namespace StoryMarkup.Script.ScriptM

variable {ω : Type} (call : Value → List Value → ScriptM ω Value)

def argFunction (args : List Value) (method : String) : ScriptM ω Value :=
  match args.head? with
  | some (.function ref) => pure (.function ref)
  | _ => refuse (.callback method)

/-- Go through the items from position `i` on; `kept` holds the results or items kept so far, last
one first. -/
def walkItems (w : Walk) (f list : Value) : Nat → List Value → List Value → ScriptM ω Value
  | _, kept, [] =>
    match w with
    | .map | .filter => newList kept.reverse
    | .find | .forEach => pure .undefined
    | .findIndex => pure (.number (-1))
    | .some => pure (.bool false)
    | .every => pure (.bool true)
  | i, kept, v :: rest => do
    let position := .number (Decimal.ofNat i)
    let r ← call f [v, position, list]
    match w, r.isTruthy with
    | .map, _ => walkItems w f list (i + 1) (r :: kept) rest
    | .filter, true => walkItems w f list (i + 1) (v :: kept) rest
    | .find, true => return v
    | .findIndex, true => return position
    | .some, true => return .bool true
    | .every, false => return .bool false
    | _, _ => walkItems w f list (i + 1) kept rest

def walkList (env : Env) (w : Walk) (ref : Nat) (args : List Value) : ScriptM ω Value := do
  let f ← argFunction args w.name
  let items := ((← heap).array ref).toList
  checkIterations env items.length
  walkItems call w f (.array ref) 0 [] items

def reduceItems (f : Value) : Nat → Value → List Value → ScriptM ω Value
  | _, acc, [] => return acc
  | i, acc, v :: rest => do
    let acc ← call f [acc, v, .number (Decimal.ofNat i)]
    reduceItems f (i + 1) acc rest

def reduceList (env : Env) (ref : Nat) (args : List Value) : ScriptM ω Value := do
  let f ← argFunction args "reduce"
  let items := ((← heap).array ref).toList
  checkIterations env items.length
  match given args 1, items with
  | some start, _ => reduceItems call f 0 start items
  | none, v :: rest => reduceItems call f 1 v rest
  | none, [] => refuse .emptyReduce

/-- Without a comparing function undefined goes last and the others are ordered by their texts. -/
def sortByText (h : Heap) (items : List Value) : List Value :=
  let keyed := items.map fun v => (v, if v matches .undefined then none else some (h.display v))
  let keyed := keyed.mergeSort fun a b =>
    match a.2, b.2 with
    | _, none => true
    | none, some _ => false
    | some s, some t => !decide (t < s)
  keyed.map Prod.fst

/-- The items of a list in order. A comparing function is only asked about items of the list. -/
def sortedItems (env : Env) (ref : Nat) (args : List Value) : ScriptM ω (List Value) := do
  let items := ((← heap).array ref).toList
  checkIterations env items.length
  match args.head? with
  | some (.function f) =>
    let sorted ← (Sorting.sort items.attach).run fun v w => do
      return (← toNumber (← call (.function f) [v.val, w.val])) < 0
    return sorted.unattach
  | _ => return sortByText (← heap) items

/-- The list is written only after all comparisons have succeeded. -/
def sortList (env : Env) (ref : Nat) (args : List Value) : ScriptM ω Value := do
  let sorted ← sortedItems call env ref args
  modifyHeap fun h => h.modifyArray ref fun _ => sorted.toArray
  return .array ref

def spliceRange (length : Nat) (args : List Value) : ScriptM ω (Nat × Nat) := do
  let start ← argPosition args 0 length 0
  return (start, ← argCount args 1 (fun x => min (Decimal.toCount x) (length - start)) (length - start))

def flattenItems (h : Heap) (vs : List Value) : List Value :=
  vs.flatMap fun
    | .array ref => (h.array ref).toList
    | v => [v]

def callListMethod (env : Env) (ref : Nat) (m : ListMethod) (args : List Value) : ScriptM ω Value := do
  let items := (← heap).array ref
  let length := items.size
  match m with
  | .push =>
    modifyHeap fun h => h.modifyArray ref fun items => items ++ args.toArray
    return .number (Decimal.ofNat (length + args.length))
  | .pop =>
    let last := items.back?.getD .undefined
    modifyHeap fun h => h.modifyArray ref Array.pop
    return last
  | .shift =>
    let first := items[0]?.getD .undefined
    modifyHeap fun h => h.modifyArray ref fun items => items.extract 1 items.size
    return first
  | .unshift =>
    modifyHeap fun h => h.modifyArray ref fun items => args.toArray ++ items
    return .number (Decimal.ofNat (length + args.length))
  | .at => return (itemAt items (← argNumber args 0)).getD .undefined
  | .slice =>
    let start ← argPosition args 0 length 0
    let stop ← argPosition args 1 length length
    newArray (items.extract start stop)
  | .splice =>
    let (start, count) ← spliceRange length args
    modifyHeap fun h => h.modifyArray ref fun items =>
      items.extract 0 start ++ (args.drop 2).toArray ++ items.extract (start + count) items.size
    newArray (items.extract start (start + count))
  | .concat => newList (items.toList ++ flattenItems (← heap) args)
  | .join =>
    let sep ← argTextOr args 0 ","
    return .text (String.intercalate sep (items.toList.map (← heap).displayItem))
  | .toString => return .text (String.intercalate "," (items.toList.map (← heap).displayItem))
  | .indexOf =>
    match items.toList.findIdx? (·.strictEq (arg args 0)) with
    | some i => return .number (Decimal.ofNat i)
    | none => return .number (-1)
  | .lastIndexOf =>
    match items.toList.reverse.findIdx? (·.strictEq (arg args 0)) with
    | some i => return .number (Decimal.ofNat (length - 1 - i))
    | none => return .number (-1)
  | .includes => return .bool (items.toList.any (·.same (arg args 0)))
  | .reverse =>
    modifyHeap fun h => h.modifyArray ref Array.reverse
    return .array ref
  | .flat => newList (flattenItems (← heap) items.toList)
  | .sort => sortList call env ref args
  | .reduce => reduceList call env ref args
  | .walk w => walkList call env w ref args

end StoryMarkup.Script.ScriptM
