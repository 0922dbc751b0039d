import StoryMarkup.Markup.Problem

/-! What can go wrong while a passage is rendered. -/
namespace StoryMarkup.Render

open Markup (Location)

/-- How a sequence of templates ended: run to its end, or left by a loop macro. -/
inductive Signal where
  | normal
  | breakLoop
  | continueLoop
deriving DecidableEq, Repr, Inhabited

def Signal.name : Signal → String
  | .normal => "normal"
  | .breakLoop => "break"
  | .continueLoop => "continue"

inductive Mistake where
  | noPassage (name : String) (near : Option String)
  | bodyOnValue (reference kind : String)
  | notMacro (name : String)
  | bodyForbidden (name : String)
  | missing (name what : String)
  | notAssignment (raw : String)
  | elsePlace
  | twoDefaults
  | defaultPlace
  | orphan (name head : String)
  | iterationArgs
  | noMatch (selector : String)
  | puntTarget (raw : String)
  | other (message : String)
deriving DecidableEq, Repr

def Mistake.message : Mistake → String
  | .noPassage name near =>
    let hint := match near with
      | some s => " (did you mean '" ++ s ++ "'?)"
      | none => ""
    "there is no passage named '" ++ name ++ "'" ++ hint
  | .bodyOnValue reference kind =>
    "\x60" ++ reference ++ "\x60 is a " ++ kind ++ ", not a macro, so it cannot have a body"
  | .notMacro name => "@" ++ name ++ " is not a macro"
  | .bodyForbidden name => "@" ++ name ++ " does not take a body"
  | .missing name what => "@" ++ name ++ " needs " ++ what
  | .notAssignment raw => "\x60" ++ raw ++ "\x60 is not an assignment"
  | .elsePlace => "@else must be the last part of an @if chain"
  | .twoDefaults => "@switch may have only one @default"
  | .defaultPlace => "@default must be the last part of a @switch"
  | .orphan name head => "@" ++ name ++ " must follow @" ++ head
  | .iterationArgs => "@for expects \x60_name of iterable\x60"
  | .noMatch selector => "nothing matches '" ++ selector ++ "'"
  | .puntTarget raw => "@punt expects temp variables, got \x60" ++ raw ++ "\x60"
  | .other message => message

inductive RenderProblem where
  | expression (source cause : String)
  | macroFailure (name cause : String)
  | dynamicAttribute (name element cause : String)
  | authoring (mistake : Mistake)
  | strayLoopSignal (signal : Signal)
  | parse (message : String)
  | recursion
  | tooManyIterations (name : String) (limit : Nat)
deriving DecidableEq, Repr

def RenderProblem.message : RenderProblem → String
  | .expression source cause => "Error in expression \x60" ++ Text.sample source ++ "\x60: " ++ cause
  | .macroFailure name cause => "Error in @" ++ name ++ ": " ++ cause
  | .dynamicAttribute name element cause => "Error in attribute '" ++ name ++ "' of <" ++ element ++ ">: " ++ cause
  | .authoring mistake => mistake.message
  | .strayLoopSignal signal => "@" ++ signal.name ++ " used outside of a loop"
  | .parse message => message
  | .recursion => "Too much recursion; possible infinite recursion"
  | .tooManyIterations name limit => "@" ++ name ++ " ran more than " ++ toString limit ++ " iterations"

structure RenderError where
  problem : RenderProblem
  loc : Location
  sample : Option String := none
  displayed : Bool := false
deriving DecidableEq, Repr

namespace RenderError

def authoring (mistake : Mistake) (loc : Location) : RenderError := ⟨.authoring mistake, loc, none, false⟩

def ofParse (e : Markup.ParseError) : RenderError := ⟨.parse e.message, e.loc, some e.sample, false⟩

def expression (source : String) (cause : Script.ScriptError) (loc : Location) : RenderError :=
  ⟨.expression source cause.message, loc, none, false⟩

/-- A fatal error ends the whole pass; after any other the next sibling follows. -/
def isFatal (e : RenderError) : Bool :=
  match e.problem with
  | .tooManyIterations .. => true
  | _ => false

def message (e : RenderError) : String := e.problem.message

def text (e : RenderError) : String := e.message ++ " (" ++ e.loc.text ++ ")"

/-- Name the macro that failed, unless the error says already where it came from. -/
def blame (e : RenderError) (name : String) (loc : Location) : RenderError :=
  if e.displayed then e
  else match e.problem with
    | .authoring _ | .parse _ => ⟨.macroFailure name e.message, loc, none, false⟩
    | _ => e

end RenderError
end StoryMarkup.Render
