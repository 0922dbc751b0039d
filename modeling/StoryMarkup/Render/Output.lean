import StoryMarkup.Render.Stage
import StoryMarkup.Text.Find

/-! Putting text, values and errors into the document. -/
namespace StoryMarkup.Render

open Script (Value)

/-! Where a text breaks into paragraphs: at a line break, blanks, and at least one more line
break. -/

def isGap (c : Char) : Bool := c == '\n' || c == ' ' || c == '\t'

/-- The pieces between the breaks; `piece` holds the characters read since the last one, last one
first, and `skip` counts those of a break still to pass over. -/
def paragraphsFrom : Nat → List Char → List Char → List (List Char)
  | _, piece, [] => [piece.reverse]
  | skip + 1, piece, _ :: cs => paragraphsFrom skip piece cs
  | 0, piece, c :: cs =>
    if c == '\n' then
      let gap := cs.takeWhile isGap
      if gap.contains '\n' then piece.reverse :: paragraphsFrom gap.length [] cs else paragraphsFrom 0 (c :: piece) cs
    else paragraphsFrom 0 (c :: piece) cs

def paragraphs (s : String) : List String := (paragraphsFrom 0 [] s.toList).map String.ofList

def lines (s : String) : List String := (Text.splitAt ['\n'] s.toList).map String.ofList

def firstParagraph (s : String) : String := (paragraphs s).headD ""

def appendText (target : Nat) (s : String) : RenderM Unit := do
  if s.isEmpty then return
  append target (← create fun d => d.createText s)

def appendElement (target : Nat) (tag : String) : RenderM Nat := do
  let node ← createElement tag
  append target node
  return node

def appendBreaks (target : Nat) : Nat → RenderM Unit
  | 0 => return
  | n + 1 => do
    let _ ← appendElement target "br"
    appendBreaks target n

def appendPieces (target breaks : Nat) : List String → RenderM Unit
  | [] => return
  | [s] => appendText target s
  | s :: rest => do
    appendText target s
    appendBreaks target breaks
    appendPieces target breaks rest

def emitText (target : Nat) (s : String) (mode : NewlineMode) : RenderM Unit :=
  match mode with
  | .block | .noBreaks => appendText target s
  | .inline => appendPieces target 2 (paragraphs s)
  | .allBreaks => appendPieces target 1 (lines s)

def emitValue (target : Nat) (v : Value) (mode : NewlineMode) : RenderM Unit := do
  match v with
  | .undefined => return
  | .node id => append target id
  | _ => emitText target (← display v) mode

def drawError (target : Nat) (e : RenderError) : RenderM Unit := do
  let span ← createElement "span"
  setAttribute span "class" "error"
  setAttribute span "title" e.loc.text
  appendText span e.message
  match e.sample with
  | some sample =>
    let code ← createElement "code"
    appendText code sample
    append span code
  | none => pure ()
  append target span

def displayError (target : Nat) (e : RenderError) : RenderM RenderError := do
  if e.displayed then return e
  let e := { e with displayed := true }
  drawError target e
  modifyStage fun s => { s with errors := s.errors.push e }
  return e

def reportError (target : Nat) (e : RenderError) : RenderM Signal := do
  let _ ← displayError target e
  return .normal

def finish (target : Nat) (x : RenderM Signal) : RenderM Unit := fun w =>
  match x w with
  | .ok _ w => .ok () w
  | .error e w => (do let _ ← displayError target e : RenderM Unit) w

end StoryMarkup.Render
