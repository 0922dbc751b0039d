import StoryMarkup.Script.Library.ListMethods
import StoryMarkup.Script.Library.TextMethods
import StoryMarkup.Script.Property

/-!
Evaluation. An expression is evaluated by recursion on its tree, given what is done around each part
of it. Calls recurse on the number of nested calls of arrow functions that are still allowed.
-/
namespace StoryMarkup.Script

open ScriptM

inductive Place where
  | param (name : String)
  | property (target key : Value)

def calleeName : Expr → String
  | .mk _ (.ident name) => name
  | .mk _ (.member target property _) => calleeName target ++ "." ++ property
  | _ => "expression"

section Evaluation

variable {ω : Type} (env : Env)

def scopeNamed (name : String) : ScriptM ω (Option Scope) := do
  if (localValue? name (← get).frames).isSome then return none else return Scope.ofRoot? name

def scopeOf (e : Expr) : ScriptM ω (Option Scope) :=
  match e.form with
  | .ident name => scopeNamed name
  | _ => pure none

def identifier (name : String) : ScriptM ω Value := do
  match localValue? name (← get).frames with
  | some v => return v
  | none =>
    match Scope.ofRoot? name with
    | some scope => return .object (env.scope scope)
    | none =>
      match name with
      | "NaN" => return .number (0.0 / 0.0)
      | "Infinity" => return .number (1.0 / 0.0)
      | _ =>
        match ← global? name with
        | some v => return v
        | none => throw ⟨.unknownName name, none⟩

def isKnown (name : String) : ScriptM ω Bool := do
  return (localValue? name (← get).frames).isSome || (Scope.ofRoot? name).isSome ||
    ["NaN", "Infinity", "Math", "JSON", "Object", "Array"].contains name || (Builtin.ofName? name).isSome

def binaryChecked (op : BinaryOp) (a b : Value) : ScriptM ω Value := do
  let v ← lift ((← heap).binary op a b)
  match v with
  | .text s => if s.utf8ByteSize > maxTextLength then checkTextLength s.length
  | _ => pure ()
  return v

/-- Reading a scope through its object reports missing variables. -/
def readPlace (place : Place) : ScriptM ω Value := do
  match place with
  | .param name => return (localValue? name (← get).frames).getD .undefined
  | .property (.object ref) (.text name) =>
    if ref == env.story then scopeValue env .story name
    else if ref == env.temp then scopeValue env .temp name
    else getProperty (.object ref) (.text name)
  | .property target key => getProperty target key

def writePlace (place : Place) (v : Value) : ScriptM ω Unit :=
  match place with
  | .param name => modify fun m => { m with frames := assignLocal name v m.frames }
  | .property target key => setProperty env target key v

def namePlace (name : String) : ScriptM ω Place := do
  if (localValue? name (← get).frames).isSome then return .param name
  else if (Scope.ofRoot? name).isSome then throw ⟨.readOnly name, none⟩
  else throw ⟨.unknownName name, none⟩

/-- The parameters of all functions being run, inner ones over outer ones. -/
def captured (frames : List (Bindings Value)) : Bindings Value :=
  frames.reverse.foldl (fun all f => all.insertAll f.entries) .empty

def propertyUnless (optional : Bool) (target key : Value) : ScriptM ω Value :=
  if optional && target.isNullish then pure .undefined else getProperty target key

variable (visit : Form → ScriptM ω Value → ScriptM ω Value) (write : Place → Value → ScriptM ω Unit)
  (call : Value → Option Value → List Value → ScriptM ω Value)

mutual

def evalWith : Expr → ScriptM ω Value
  | .mk span form => locating span (visit form (evalForm form))

def evalForm : Form → ScriptM ω Value
  | .undefined => pure .undefined
  | .null => pure .null
  | .bool b => pure (.bool b)
  | .number x => pure (.number x)
  | .string s => pure (.text s)
  | .template parts => return .text (← evalSegments parts)
  | .pattern source flags => do
    let p ← lift (Pattern.compile source flags)
    allocate fun h => h.newPattern p
  | .array items => do newList (← evalItems items)
  | .object fields => do newObject (.ofList (← evalFields fields))
  | .spread _ => throw ⟨.malformed .spread, none⟩
  | .ident name => identifier env name
  | .member target property optional => do
    match ← scopeOf target with
    | some scope => scopeValue env scope property
    | none => propertyUnless optional (← evalWith target) (.text property)
  | .index target key optional => do
    let k ← evalWith key
    match ← scopeOf target, k with
    | some scope, .text name => scopeValue env scope name
    | _, _ => propertyUnless optional (← evalWith target) k
  | .call callee args optional => do
    let (f, receiver) ← evalCallee callee
    if optional && f.isNullish then return .undefined
    else
      let vs ← evalItems args
      match f with
      | .function _ | .macroDef .. => call f receiver vs
      | _ => refuse (.notFunction (calleeName callee))
  | .unary op operand => do
    match op, operand with
    | .typeOf, .mk _ (.ident name) =>
      if ← isKnown name then return (← heap).unary op (← evalWith operand) else return .text "undefined"
    | _, _ => do
      let v ← evalWith operand
      return (← heap).unary op v
  | .update increment before target => do
    let place ← evalPlace target
    let old ← toNumber (← readPlace env place)
    let new := if increment then old + 1 else old - 1
    write place (.number new)
    return .number (if before then new else old)
  | .binary op left right => do
    let a ← evalWith left
    let b ← evalWith right
    binaryChecked op a b
  | .logical op left right => do
    let a ← evalWith left
    if op.decides a then return a else evalWith right
  | .conditional test yes no => do
    if (← evalWith test).isTruthy then evalWith yes else evalWith no
  | .assign op target value => do
    let place ← evalPlace target
    match op with
    | none =>
      let v ← evalWith value
      write place v
      return v
    | some (.arith bin) =>
      let current ← readPlace env place
      let v ← binaryChecked bin current (← evalWith value)
      write place v
      return v
    | some (.logical logical) =>
      let current ← readPlace env place
      if logical.decides current then return current
      else
        let v ← evalWith value
        write place v
        return v
  | .arrow params body => do newFunction (.closure params body (captured (← get).frames))

def evalCallee : Expr → ScriptM ω (Value × Option Value)
  | .mk span (.member target property optional) => do
    match ← scopeOf target with
    | some scope => return (← locating span (scopeValue env scope property), none)
    | none =>
      let receiver ← evalWith target
      return (← propertyUnless optional receiver (.text property), some receiver)
  | .mk span (.index target key optional) => do
    match ← scopeOf target with
    | some scope =>
      let f ← locating span do
        match ← evalWith key with
        | .text name => scopeValue env scope name
        | k => propertyUnless optional (← evalWith target) k
      return (f, none)
    | none =>
      let receiver ← evalWith target
      let k ← evalWith key
      return (← propertyUnless optional receiver k, some receiver)
  | .mk span form => do return (← locating span (visit form (evalForm form)), none)

def evalPlace : Expr → ScriptM ω Place
  | .mk _ (.ident name) => namePlace name
  | .mk _ (.member target property _) => do
    if (← scopeOf target) == some .constants then throw ⟨.readOnly ("@" ++ property), none⟩
    else return .property (← evalWith target) (.text property)
  | .mk _ (.index target key _) => do
    let t ← evalWith target
    return .property t (← evalWith key)
  | _ => throw ⟨.malformed .assignmentTarget, none⟩

def evalItems : List Expr → ScriptM ω (List Value)
  | [] => return []
  | .mk span (.spread inner) :: rest => do
    let items ← locating span (iterate (← evalWith inner))
    return items ++ (← evalItems rest)
  | e :: rest => do
    let v ← evalWith e
    return v :: (← evalItems rest)

def evalFields : List Field → ScriptM ω (List (String × Value))
  | [] => return []
  | .named key value :: rest => do
    let v ← evalWith value
    return (key, v) :: (← evalFields rest)
  | .computed key value :: rest => do
    let k ← display (← evalWith key)
    let v ← evalWith value
    return (k, v) :: (← evalFields rest)

def evalSegments : List Segment → ScriptM ω String
  | [] => return ""
  | .text s :: rest => do return s ++ (← evalSegments rest)
  | .hole e :: rest => do
    let s ← display (← evalWith e)
    return s ++ (← evalSegments rest)

end

def callMethod (plain : Value → List Value → ScriptM ω Value) (name : String) (receiver : Value)
    (args : List Value) : ScriptM ω Value := do
  let missing : ScriptM ω Value := refuse (.notFunction name)
  match receiver with
  | .text s => match TextMethod.ofName? name with
    | some m => callTextMethod env plain s m args
    | none => missing
  | .array ref => match ListMethod.ofName? name with
    | some m => callListMethod plain env ref m args
    | none => missing
  | .number x => match NumberMethod.ofName? name with
    | some m => callNumberMethod x m args
    | none => missing
  | .pattern ref => match PatternMethod.ofName? name, (← heap).pattern? ref with
    | some m, some p => callPatternMethod p m args
    | _, _ => missing
  | .object ref => match ObjectMethod.ofName? name with
    | some .hasOwnProperty => return .bool (((← heap).object ref).contains (← argText args 0))
    | some .toString => return .text (← display receiver)
    | none => missing
  | _ => missing

def callWith (plain : Value → List Value → ScriptM ω Value) (f : Value) (receiver : Option Value)
    (args : List Value) : ScriptM ω Value := do
  match f, receiver with
  | .function ref, some r =>
    match (← heap).function? ref with
    | some (.method name) => callMethod env plain name r args
    | _ => plain f args
  | _, _ => plain f args

abbrev Invoker (ω : Type) := Nat → String → List Value → ScriptM ω Value

def noInvoker : Invoker ω := fun _ name _ => refuse (.macroCall name)

@[simp] def asIs (_ : Form) (x : ScriptM ω Value) : ScriptM ω Value := x

/-- The parameters of a call: what the function captured and its arguments, undefined where one is
missing. -/
def callFrame (params : List String) (captures : Bindings Value) (args : List Value) : Bindings Value :=
  captures.insertAll (params.zipIdx.map fun (name, i) => (name, arg args i))

abbrev Library (ω : Type) := Builtin → List Value → ScriptM ω Value

def callBy (library : Library ω) (invoke : Invoker ω)
    (enter : List String → Expr → Bindings Value → List Value → ScriptM ω Value) (f : Value)
    (args : List Value) : ScriptM ω Value := do
  match f with
  | .function ref =>
    match (← heap).function? ref with
    | some (.closure params body captures) => enter params body captures args
    | some (.builtin b) => library b args
    | some (.method name) => refuse (.noReceiver name)
    | none => refuse (.notFunction f.kindName)
  | .macroDef id name => invoke id name args
  | _ => refuse (.notFunction f.kindName)

/-- Run an arrow function, with `depth` nested calls still allowed. -/
def callClosure (library : Library ω) (invoke : Invoker ω) :
    Nat → List String → Expr → Bindings Value → List Value → ScriptM ω Value
  | 0, _, _, _, _ => throw ⟨.callDepth env.maxDepth, none⟩
  | depth + 1, params, body, captures, args =>
    withFrame (callFrame params captures args)
      (evalWith env asIs (writePlace env)
        (callWith env (callBy library invoke (callClosure library invoke depth))) body)

/-- Call a function that is not a method, with `depth` nested calls of arrow functions still
allowed. -/
def callUsing (library : Library ω) (invoke : Invoker ω) (depth : Nat) : Value → List Value → ScriptM ω Value :=
  callBy library invoke (callClosure env library invoke depth)

def evalUsing (library : Library ω) (invoke : Invoker ω) (e : Expr) : ScriptM ω Value :=
  evalWith env asIs (writePlace env) (callWith env (callUsing env library invoke env.maxDepth)) e

def callPlain (invoke : Invoker ω) : Nat → Value → List Value → ScriptM ω Value := callUsing env callBuiltin invoke

def eval (invoke : Invoker ω) (e : Expr) : ScriptM ω Value := evalUsing env callBuiltin invoke e

def evalSource (invoke : Invoker ω) (code : String) : ScriptM ω Value := do
  let e ← lift (Expr.parse code.toList)
  eval env invoke e

def callValue (invoke : Invoker ω) (f : Value) (args : List Value) : ScriptM ω Value :=
  callPlain env invoke env.maxDepth f args

def assign (invoke : Invoker ω) (target : Expr) (v : Value) : ScriptM ω Unit := do
  let place ← evalPlace env asIs (writePlace env) (callWith env (callPlain env invoke env.maxDepth)) target
  writePlace env place v

end Evaluation
end StoryMarkup.Script
