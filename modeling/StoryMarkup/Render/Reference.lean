import StoryMarkup.Render.Renderer

/-! References in a passage: a variable with what follows its name. A call at the end is kept
back. -/
namespace StoryMarkup.Render

open Markup (Access ExprSource)
open Script (Env Invoker Machine Scope ScriptError Value)

inductive Resolved where
  | value (v : Value)
  | use (id : Nat) (args : List ExprSource)

abbrev Resolving (ω : Type) := EStateM (String × ScriptError) (Machine ω)

section Resolve

variable {ω : Type} (env : Env) (invoke : Invoker ω)

def within {α : Type} (source : String) (x : Script.ScriptM ω α) : Resolving ω α := fun m =>
  match x m with
  | .ok a m => .ok a m
  | .error e m => .error (source, e) m

def evalArgs (args : List ExprSource) : Script.ScriptM ω (List Value) :=
  args.mapM fun arg => Script.evalSource env invoke arg.code

def callWithReceiver (f : Value) (receiver : Option Value) (args : List ExprSource) : Script.ScriptM ω Value := do
  let values ← evalArgs env invoke args
  Script.callWith env (Script.callPlain env invoke env.maxDepth) f receiver values

def accessStep (current : Value) (receiver : Option Value) : Access → Script.ScriptM ω (Value × Option Value)
  | .field name _ => do return (← Script.ScriptM.getProperty current (.text name), some current)
  | .index key _ => do
    let k ← Script.evalSource env invoke key
    return (← Script.ScriptM.getProperty current k, some current)
  | .call args _ => do return (← callWithReceiver env invoke current receiver args, none)

def follow (source : String) (current : Value) (receiver : Option Value) :
    List Access → Resolving ω (String × Value × Option Value)
  | [] => return (source, current, receiver)
  | a :: rest => do
    let source := source ++ a.raw
    let (next, receiver) ← within source (accessStep env invoke current receiver a)
    follow source next receiver rest

def splitCall (accesses : List Access) : List Access × Option (List ExprSource × String) :=
  match accesses.getLast? with
  | some (.call args raw) => (accesses.dropLast, some (args, raw))
  | _ => (accesses, none)

def resolve (scope : Scope) (base : String) (accesses : List Access) : Resolving ω Resolved := do
  let source := scope.sigil.toString ++ base
  let first ← within source (Script.ScriptM.scopeValue env scope base)
  let (before, call) := splitCall accesses
  let (source, current, receiver) ← follow env invoke source first none before
  match current, call with
  | .macroDef id _, _ => return .use id (call.elim [] (·.1))
  | v, none => return .value v
  | f, some (args, raw) => return .value (← within (source ++ raw) (callWithReceiver env invoke f receiver args))

end Resolve
end StoryMarkup.Render
