import StoryMarkup.Script.Library.Global
import StoryMarkup.Text.Nearest

/-! Variables of the scopes and properties of values. -/
namespace StoryMarkup.Script.ScriptM

variable {ω : Type}

def localValue? (name : String) (frames : List (Bindings Value)) : Option Value :=
  frames.findSome? fun f => f.get? name

def assignLocal (name : String) (v : Value) : List (Bindings Value) → List (Bindings Value)
  | [] => []
  | f :: rest => if f.contains name then f.insert name v :: rest else f :: assignLocal name v rest

def missingMessage (scope : Scope) (name : String) (known : List String) : String :=
  let sigil := scope.sigil.toString
  let hint := match Text.nearest? name known with
    | some s => " (did you mean " ++ sigil ++ s ++ "?)"
    | none => ""
  sigil ++ name ++ " is not defined" ++ hint

/-- A variable of a scope. One that is missing is undefined with a warning; a missing constant is an
error, and so is any missing variable under the strict setting. -/
def scopeValue (env : Env) (scope : Scope) (name : String) : ScriptM ω Value := do
  let fields := (← heap).object (env.scope scope)
  match fields.get? name with
  | some v => return v
  | none =>
    let message := missingMessage scope name fields.keys
    if scope == .constants || env.strict then throw ⟨.other message, none⟩
    else
      warn message
      return .undefined

def derivedProperty (v : Value) (name : String) : ScriptM ω Value := do
  let method (known : Bool) : ScriptM ω Value :=
    if known then newFunction (.method name) else pure .undefined
  match v with
  | .text s =>
    if name == "length" then return .number (Decimal.ofNat s.length) else method (TextMethod.ofName? name).isSome
  | .array ref =>
    if name == "length" then return .number (Decimal.ofNat ((← heap).array ref).size)
    else method (ListMethod.ofName? name).isSome
  | .number _ => method (NumberMethod.ofName? name).isSome
  | .object _ => method (ObjectMethod.ofName? name).isSome
  | .pattern ref =>
    match (← heap).pattern? ref with
    | none => return .undefined
    | some p =>
      match name with
      | "source" => return .text p.source
      | "flags" => return .text p.flags
      | "global" => return .bool p.isGlobal
      | _ => method (PatternMethod.ofName? name).isSome
  | .function ref =>
    match (← heap).function? ref with
    | some (.builtin b) =>
      match Builtin.ofName? (b.name ++ "." ++ name) with
      | some b => newFunction (.builtin b)
      | none => return .undefined
    | _ => return .undefined
  | _ => return .undefined

def getProperty (target key : Value) : ScriptM ω Value := do
  match target with
  | .undefined | .null => refuse (.read (← display key) target.kindName)
  | .object ref =>
    let name ← display key
    match ((← heap).object ref).get? name with
    | some v => return v
    | none => derivedProperty target name
  | .array ref =>
    match key.index? with
    | some i => return (((← heap).array ref)[i]?).getD .undefined
    | none => derivedProperty target (← display key)
  | .text s =>
    match key.index? with
    | some i =>
      match s.toList[i]? with
      | some c => return .text c.toString
      | none => return .undefined
    | none => derivedProperty target (← display key)
  | _ => derivedProperty target (← display key)

def resize (items : Array Value) (n : Nat) : Array Value :=
  if n ≤ items.size then items.extract 0 n else items ++ Array.replicate (n - items.size) .undefined

def storeAt (items : Array Value) (i : Nat) (v : Value) : Array Value :=
  (if i < items.size then items else resize items (i + 1)).setIfInBounds i v

/-- Write a property. The constants cannot be written, and a list grows by a limited number of
items. -/
def setProperty (env : Env) (target key v : Value) : ScriptM ω Unit := do
  match target with
  | .object ref =>
    if ref == env.constants then throw ⟨.readOnly ("@" ++ (← display key)), none⟩
    else
      let name ← display key
      modifyHeap fun h => h.modifyObject ref fun o => o.insert name v
  | .array ref =>
    let length := ((← heap).array ref).size
    match key.index? with
    | some i =>
      if length ≤ i then checkIterations env (i - length)
      modifyHeap fun h => h.modifyArray ref fun items => storeAt items i v
    | none =>
      let name ← display key
      if name == "length" then
        match v.index? with
        | none => refuse .arrayLength
        | some n =>
          if length < n then checkIterations env (n - length)
          modifyHeap fun h => h.modifyArray ref fun items => resize items n
      else refuse (.writeArray name)
  | _ => refuse (.write (← display key) target.kindName)

end StoryMarkup.Script.ScriptM
