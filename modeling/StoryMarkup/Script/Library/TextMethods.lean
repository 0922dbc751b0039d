import StoryMarkup.Script.Library.Argument
import StoryMarkup.Text.Find

/-! Methods of texts. Positions count characters. -/
namespace StoryMarkup.Script.ScriptM

open Text (slice)

variable {ω : Type}

def clampPosition (length : Nat) (x : Float) : Nat :=
  if x.isNaN || x < 0 then 0 else min (Decimal.toCount x) length

def placeNumber : Option Nat → Value
  | some n => .number (Decimal.ofNat n)
  | none => .number (-1)

def argPattern (args : List Value) : ScriptM ω Pattern := do
  match args.head? with
  | some (.pattern ref) =>
    match (← heap).pattern? ref with
    | some p => return p
    | none => lift (Pattern.ofText "")
  | _ => lift (Pattern.ofText (← argText args 0))

def groupValues (m : Pattern.Match) (text : Array Char) : List Value :=
  (m.groupTexts text).map fun
    | some s => .text s
    | none => .undefined

def firstMatch (p : Pattern) (text : Array Char) : ScriptM ω Value :=
  match p.program.find? text 0 with
  | some m => newList (groupValues m text)
  | none => pure .null

def matchText (p : Pattern) (text : Array Char) : ScriptM ω Value :=
  if p.isGlobal then
    match p.program.allMatches text with
    | [] => pure .null
    | ms => newList (ms.map fun m => .text (m.text text))
  else firstMatch p text

def splitParts (s : String) (args : List Value) : ScriptM ω (List String) := do
  match args.head? with
  | none | some .undefined => return [s]
  | some (.pattern ref) =>
    match (← heap).pattern? ref with
    | some p => return p.split s.toList.toArray
    | none => return [s]
  | some v =>
    let sep ← display v
    if sep.isEmpty then return s.toList.map Char.toString
    else return (Text.splitAt sep.toList s.toList).map String.ofList

def limitParts (args : List Value) (parts : List String) : ScriptM ω (List String) := do
  match given args 1 with
  | none | some .undefined | some .null => return parts
  | some v => return parts.take (Decimal.toCount (← toNumber v))

def splitText (s : String) (args : List Value) : ScriptM ω Value := do
  let kept ← limitParts args (← splitParts s args)
  newList (kept.map .text)

def wholeMatchReference (template : List Char) : List Char :=
  List.intercalate "$\x7b0\x7d".toList (Text.splitAt "$&".toList template)

def replacementOf (call : Value → List Value → ScriptM ω Value) (p : Pattern) (s : String)
    (text : Array Char) (replacement : Value) (m : Pattern.Match) : ScriptM ω String := do
  match replacement with
  | .function _ =>
    let v ← call replacement (groupValues m text ++ [.number (Decimal.ofNat m.start), .text s])
    display v
  | _ =>
    let template := wholeMatchReference (← display replacement).toList
    return String.ofList (m.expand p text (template.length + 1) template)

def replaceMatches (replacementFor : Pattern.Match → ScriptM ω String) (text : Array Char) :
    Nat → List Pattern.Match → String → ScriptM ω String
  | start, [], done => return done ++ slice text start text.size
  | start, m :: rest, done => do
    let r ← replacementFor m
    replaceMatches replacementFor text m.stop rest (done ++ slice text start m.start ++ r)

def replaceText (call : Value → List Value → ScriptM ω Value) (all : Bool) (s : String)
    (args : List Value) : ScriptM ω Value := do
  let p ← argPattern args
  let text := s.toList.toArray
  let found := if all || p.isGlobal then p.program.allMatches text else (p.program.find? text 0).toList
  return .text (← replaceMatches (replacementOf call p s text (arg args 1)) text 0 found "")

def padText (atStart : Bool) (s : String) (args : List Value) : ScriptM ω Value := do
  let length := s.length
  let x ← argNumber args 0
  let fill ← argTextOr args 1 " "
  let target := Decimal.toCount x
  if target ≤ length || fill.isEmpty then return .text s
  else
    checkTextLength target
    let pad := String.ofList (Text.cycle fill.toList (target - length))
    return .text (if atStart then pad ++ s else s ++ pad)

def repeatText (env : Env) (s : String) (args : List Value) : ScriptM ω Value := do
  let x ← argNumber args 0
  if !(0 ≤ x) || !Decimal.isFinite x then refuse .repeatCount
  else
    let count := Decimal.toCount x
    checkIterations env count
    checkTextLength (s.length * count)
    return .text (String.join (List.replicate count s))

def callTextMethod (env : Env) (call : Value → List Value → ScriptM ω Value) (s : String)
    (m : TextMethod) (args : List Value) : ScriptM ω Value := do
  match m with
  | .toString => return .text s
  | .at =>
    match itemAt s.toList.toArray (← argNumber args 0) with
    | some c => return .text c.toString
    | none => return .undefined
  | .charAt =>
    let cs := s.toList
    match cs[← argPosition args 0 cs.length 0]? with
    | some c => return .text c.toString
    | none => return .text ""
  | .charCodeAt =>
    let cs := s.toList
    match cs[← argPosition args 0 cs.length 0]? with
    | some c => return .number (Decimal.ofNat c.toNat)
    | none => return .number (0.0 / 0.0)
  | .concat => return .text (s ++ String.join (← args.mapM display))
  | .includes => return .bool (Text.find? (← argText args 0).toList s.toList).isSome
  | .startsWith => return .bool ((← argText args 0).toList.isPrefixOf s.toList)
  | .endsWith => return .bool ((← argText args 0).toList.isSuffixOf s.toList)
  | .indexOf => return placeNumber (Text.find? (← argText args 0).toList s.toList)
  | .lastIndexOf => return placeNumber (Text.findLast? (← argText args 0).toList s.toList)
  | .slice =>
    let text := s.toList.toArray
    let start ← argPosition args 0 text.size 0
    let stop ← argPosition args 1 text.size text.size
    return .text (slice text start stop)
  | .substring =>
    let text := s.toList.toArray
    let a ← argCount args 0 (clampPosition text.size) 0
    let b ← argCount args 1 (clampPosition text.size) text.size
    return .text (slice text (min a b) (max a b))
  | .toUpperCase => return .text (Text.toUpper s)
  | .toLowerCase => return .text (Text.toLower s)
  | .trim => return .text (Text.trim s)
  | .trimStart => return .text (Text.trimStart s)
  | .trimEnd => return .text (Text.trimEnd s)
  | .repeated => repeatText env s args
  | .padStart => padText true s args
  | .padEnd => padText false s args
  | .split => splitText s args
  | .replace => replaceText call false s args
  | .replaceAll => replaceText call true s args
  | .matchPattern => matchText (← argPattern args) s.toList.toArray

def callPatternMethod (p : Pattern) (m : PatternMethod) (args : List Value) : ScriptM ω Value := do
  match m with
  | .test => return .bool (p.program.find? (← argText args 0).toList.toArray 0).isSome
  | .exec => firstMatch p (← argText args 0).toList.toArray
  | .toString => return .text p.display

end StoryMarkup.Script.ScriptM
