import StoryMarkup.Document.Basic
import StoryMarkup.Markup.Template

/-! The text of a document, plain and as HTML. -/
namespace StoryMarkup.Document

def escapeTextChar : Char → List Char
  | '&' => "&amp;".toList
  | '<' => "&lt;".toList
  | '>' => "&gt;".toList
  | c => [c]

def escapeValueChar : Char → List Char
  | '"' => "&quot;".toList
  | c => escapeTextChar c

def escapeText (s : String) : String := String.ofList (s.toList.flatMap escapeTextChar)

def escapeValue (s : String) : String := String.ofList (s.toList.flatMap escapeValueChar)

def openTag (tag : String) (attributes : Bindings String) : String :=
  let written : String × String → String := fun (name, value) => " " ++ name ++ "=\"" ++ escapeValue value ++ "\""
  "<" ++ tag ++ String.join (attributes.entries.map written) ++ ">"

def htmlWithin (d : Document) : Nat → Nat → String
  | 0, _ => ""
  | levels + 1, id => match d.node? id with
    | none => ""
    | some n => match n.kind with
      | .text s => escapeText s
      | .element tag =>
        if Markup.voidTags.contains tag then openTag tag n.attributes
        else
          openTag tag n.attributes ++ String.join (n.children.toList.map (d.htmlWithin levels)) ++ "</" ++ tag ++ ">"

def html (d : Document) (id : Nat) : String := d.htmlWithin (d.nodes.size + 1) id

def innerHtml (d : Document) (id : Nat) : String := String.join ((d.children id).map d.html)

def textWithin (d : Document) : Nat → Nat → String
  | 0, _ => ""
  | levels + 1, id => match d.node? id with
    | none => ""
    | some n => match n.kind with
      | .text s => s
      | .element _ => String.join (n.children.toList.map (d.textWithin levels))

def textContent (d : Document) (id : Nat) : String := d.textWithin (d.nodes.size + 1) id

/-! Finding elements of a document by a simple selector. -/

inductive Selector where
  | id (name : String)
  | className (name : String)
  | tag (name : String)
deriving DecidableEq, Repr

def Selector.ofText (s : String) : Selector :=
  match Text.trimChars s.toList with
  | '#' :: name => .id (String.ofList name)
  | '.' :: name => .className (String.ofList name)
  | name => .tag (String.ofList name)

def Selector.accepts (s : Selector) (n : Node) : Bool :=
  match n.kind with
  | .text _ => false
  | .element own => match s with
    | .id name => n.attributes.get? "id" == some name
    | .className name => match n.attributes.get? "class" with
      | some value => (Text.words value).contains name
      | none => false
    | .tag name => Text.sameAscii own name

def queryWithin (d : Document) (s : Selector) : Nat → Nat → List Nat
  | 0, _ => []
  | levels + 1, id => match d.node? id with
    | none => []
    | some n =>
      let below := n.children.toList.flatMap (d.queryWithin s levels)
      if s.accepts n then id :: below else below

def query (d : Document) (selector : String) : List Nat :=
  (d.children root).flatMap (d.queryWithin (.ofText selector) (d.nodes.size + 1))

end StoryMarkup.Document
