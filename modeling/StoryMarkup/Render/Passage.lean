import StoryMarkup.Bindings

/-! Passages, the named texts of a story. -/
namespace StoryMarkup.Render

/-! How line breaks of a text become structure. -/

inductive NewlineMode where
  /-- Runs of text and inline elements become paragraphs, which blank lines end. -/
  | block
  | inline
  | allBreaks
  | noBreaks
deriving DecidableEq, Repr, Inhabited

namespace NewlineMode

def names : List (String × NewlineMode) :=
  [("block", .block), ("inline", .inline), ("all_breaks", .allBreaks), ("no_breaks", .noBreaks)]

def ofName? (name : String) : Option NewlineMode := names.lookup name

def name : NewlineMode → String
  | .block => "block"
  | .inline => "inline"
  | .allBreaks => "all_breaks"
  | .noBreaks => "no_breaks"

def ofTag? : String → Option NewlineMode
  | "nobr" => some .noBreaks
  | "inline" => some .inline
  | "breaks" => some .allBreaks
  | _ => none

def nested : NewlineMode → NewlineMode
  | .block => .inline
  | mode => mode

end NewlineMode

structure Passage where
  name : String
  text : String
  tags : List String := []
  startLine : Nat := 1
deriving DecidableEq, Repr

namespace Passage

def hasTag (p : Passage) (tag : String) : Bool := p.tags.contains tag

def mode? (p : Passage) : Option NewlineMode := p.tags.findSome? NewlineMode.ofTag?

end Passage

abbrev Passages := Bindings Passage

def Passages.ofList (ps : List Passage) : Passages := Bindings.ofList (ps.map fun p => (p.name, p))

end StoryMarkup.Render
