import StoryMarkup.Bindings
import StoryMarkup.Markup.Sigil

/-! Parsed passages. A template is read any number of times and never changed. -/
namespace StoryMarkup.Markup

open Script (Scope)

/-! The element names that are treated apart from the others. -/

def voidTags : List String :=
  ["area", "base", "br", "col", "embed", "hr", "img", "input", "link", "meta", "source", "track", "wbr"]

def bannedTags : List String := ["script", "iframe", "object", "applet", "frame", "frameset"]

def rawTags : List String := ["style"]

def blockTags : List String :=
  ["address", "article", "aside", "blockquote", "center", "details", "dialog", "dd", "div", "dl", "dt", "fieldset",
   "figcaption", "figure", "footer", "form", "h1", "h2", "h3", "h4", "h5", "h6", "header", "hr", "li", "main", "nav",
   "ol", "p", "pre", "section", "summary", "table", "tbody", "td", "tfoot", "th", "thead", "tr", "ul"]

structure Location where
  passage : String
  line : Nat
deriving DecidableEq, Repr, Inhabited

def Location.text (loc : Location) : String := loc.passage ++ ":" ++ toString loc.line

inductive Access where
  | field (name raw : String)
  | index (key raw : String)
  | call (args : List ExprSource) (raw : String)
deriving DecidableEq, Repr

def Access.raw : Access → String
  | .field _ raw | .index _ raw | .call _ raw => raw

inductive Args where
  | list (args : List ExprSource)
  | iteration (binding : String) (iterable : ExprSource)
deriving DecidableEq, Repr

def Args.isEmpty : Args → Bool
  | .list args => args.isEmpty
  | .iteration .. => false

mutual

inductive Template where
  | text (s : String) (loc : Location)
  | element (name : String) (attributes : Bindings String) (dynamic : Bindings ExprSource)
      (content : List Template) (loc : Location)
  /-- A variable or a macro with what follows its name. No body differs from an empty one. -/
  | reference (scope : Scope) (base : String) (accesses : List Access) (body : Option (List Template)) (loc : Location)
  | chain (segments : List Segment) (loc : Location)
  | link (target label : String) (loc : Location)
  | error (message sample : String) (loc : Location)

inductive Segment where
  | mk (name : String) (args : Args) (body : Option (List Template)) (loc : Location)

end

namespace Segment

def name : Segment → String
  | .mk name .. => name

def args : Segment → Args
  | .mk _ args .. => args

def body : Segment → Option (List Template)
  | .mk _ _ body _ => body

def loc : Segment → Location
  | .mk _ _ _ loc => loc

end Segment

namespace Template

def loc : Template → Location
  | .text _ loc | .element _ _ _ _ loc | .reference _ _ _ _ loc | .chain _ loc | .link _ _ loc | .error _ _ loc => loc

def isText : Template → Bool
  | .text .. => true
  | _ => false

def describe (scope : Scope) (base : String) (accesses : List Access) : String :=
  scope.sigil.toString ++ base ++ String.join (accesses.map Access.raw)

mutual

def walk : Template → List Template
  | .text s loc => [.text s loc]
  | .element name attributes dynamic content loc => .element name attributes dynamic content loc :: walkAll content
  | .reference scope base accesses body loc => .reference scope base accesses body loc :: walkBody body
  | .chain segments loc => .chain segments loc :: walkSegments segments
  | .link target label loc => [.link target label loc]
  | .error message sample loc => [.error message sample loc]

def walkAll : List Template → List Template
  | [] => []
  | t :: rest => walk t ++ walkAll rest

def walkBody : Option (List Template) → List Template
  | none => []
  | some body => walkAll body

def walkSegments : List Segment → List Template
  | [] => []
  | .mk _ _ body _ :: rest => walkBody body ++ walkSegments rest

end
end Template

end StoryMarkup.Markup
