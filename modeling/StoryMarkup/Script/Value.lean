import StoryMarkup.Bindings
import StoryMarkup.Pattern.Basic
import StoryMarkup.Script.Builtin
import StoryMarkup.Script.Expr

/-! Values. Arrays, objects, functions and patterns are references to cells of a heap. -/
namespace StoryMarkup.Script

inductive Value where
  | undefined
  | null
  | bool (b : Bool)
  | number (x : Float)
  | text (s : String)
  | array (ref : Nat)
  | object (ref : Nat)
  | function (ref : Nat)
  | pattern (ref : Nat)
  /-- A macro of the story format; `id` tells registrations of one name apart. -/
  | macroDef (id : Nat) (name : String)
  | node (id : Nat)
deriving Repr, Inhabited

inductive Function where
  | closure (params : List String) (body : Expr) (captures : Bindings Value)
  | builtin (b : Builtin)
  | method (name : String)

def Function.name : Function → String
  | .closure .. => "anonymous"
  | .builtin b => b.name
  | .method name => name

structure Heap where
  arrays : Array (Array Value) := #[]
  objects : Array (Bindings Value) := #[]
  functions : Array Function := #[]
  patterns : Array Pattern := #[]

namespace Heap

def array (h : Heap) (ref : Nat) : Array Value := h.arrays.getD ref #[]

def object (h : Heap) (ref : Nat) : Bindings Value := h.objects.getD ref .empty

def function? (h : Heap) (ref : Nat) : Option Function := h.functions[ref]?

def pattern? (h : Heap) (ref : Nat) : Option Pattern := h.patterns[ref]?

def newArray (h : Heap) (items : Array Value) : Value × Heap :=
  (.array h.arrays.size, { h with arrays := h.arrays.push items })

def newObject (h : Heap) (fields : Bindings Value) : Value × Heap :=
  (.object h.objects.size, { h with objects := h.objects.push fields })

def newFunction (h : Heap) (f : Function) : Value × Heap :=
  (.function h.functions.size, { h with functions := h.functions.push f })

def newPattern (h : Heap) (p : Pattern) : Value × Heap :=
  (.pattern h.patterns.size, { h with patterns := h.patterns.push p })

def modifyArray (h : Heap) (ref : Nat) (f : Array Value → Array Value) : Heap :=
  { h with arrays := h.arrays.modify ref f }

def modifyObject (h : Heap) (ref : Nat) (f : Bindings Value → Bindings Value) : Heap :=
  { h with objects := h.objects.modify ref f }

/-- Every chain of cells that does not come back to itself is shorter than this. -/
def depth (h : Heap) : Nat := h.arrays.size + h.objects.size + 1

end Heap

namespace Value

def isNullish : Value → Bool
  | .undefined | .null => true
  | _ => false

def isFunction : Value → Bool
  | .function _ => true
  | _ => false

def isTruthy : Value → Bool
  | .undefined | .null => false
  | .bool b => b
  | .number x => x != 0 && !x.isNaN
  | .text s => !s.isEmpty
  | _ => true

def typeName : Value → String
  | .undefined => "undefined"
  | .null | .array _ | .object _ | .pattern _ | .node _ => "object"
  | .bool _ => "boolean"
  | .number _ => "number"
  | .text _ => "string"
  | .function _ | .macroDef .. => "function"

def kindName : Value → String
  | .null => "null"
  | .array _ => "array"
  | .pattern _ => "regexp"
  | .macroDef .. => "macro"
  | .node _ => "node"
  | v => v.typeName

end Value
end StoryMarkup.Script
