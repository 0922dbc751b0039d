import StoryMarkup.Bindings
import StoryMarkup.Text.Case

/-! The shown document: nodes linked to their parents and children. A node is never forgotten, only
detached. -/
namespace StoryMarkup

namespace Document

inductive Kind where
  | text (s : String)
  | element (tag : String)
deriving DecidableEq, Repr, Inhabited

structure Node where
  kind : Kind
  parent : Option Nat := none
  children : Array Nat := #[]
  attributes : Bindings String := .empty
  /-- Event names with the number of what runs, first come first. -/
  listeners : List (String × Nat) := []
deriving Inhabited

structure Timer where
  due : Nat
  seq : Nat
  callback : Nat
deriving DecidableEq, Repr

end Document

structure Document where
  nodes : Array Document.Node := #[{ kind := .element "main" }]
  timers : List Document.Timer := []
  now : Nat := 0
  scheduled : Nat := 0
  /-- Whether the clock had to show more than it can. Then what was asked for has no answer. -/
  overrun : Bool := false

namespace Document

def root : Nat := 0

def node? (d : Document) (id : Nat) : Option Node := d.nodes[id]?

def parent? (d : Document) (id : Nat) : Option Nat := (d.node? id).bind (·.parent)

def children (d : Document) (id : Nat) : List Nat :=
  match d.node? id with
  | some n => n.children.toList
  | none => []

def modifyNode (d : Document) (id : Nat) (f : Node → Node) : Document := { d with nodes := d.nodes.modify id f }

def create (d : Document) (kind : Kind) : Nat × Document := (d.nodes.size, { d with nodes := d.nodes.push { kind } })

def createText (d : Document) (s : String) : Nat × Document := d.create (.text s)

def createElement (d : Document) (tag : String) : Nat × Document := d.create (.element (Text.lowerAsciiText tag))

def detach (d : Document) (child : Nat) : Document :=
  match d.parent? child with
  | none => d
  | some p =>
    (d.modifyNode p fun n => { n with children := n.children.filter (· != child) }).modifyNode child
      fun n => { n with parent := none }

def insert (d : Document) (parent child : Nat) (place : Option Nat) : Document :=
  if parent ≥ d.nodes.size || child ≥ d.nodes.size || parent == child then d
  else
    let put (children : Array Nat) : Array Nat :=
      match place with
      | some i => children.insertIdxIfInBounds (min i children.size) child
      | none => children.push child
    ((d.detach child).modifyNode parent fun n => { n with children := put n.children }).modifyNode
      child fun n => { n with parent := some parent }

def append (d : Document) (parent child : Nat) : Document := d.insert parent child none

def prepend (d : Document) (parent child : Nat) : Document := d.insert parent child (some 0)

def replace (d : Document) (old new : Nat) : Document :=
  match d.parent? old with
  | none => d
  | some p =>
    let d := d.detach new
    let place := (d.children p).idxOf? old
    (d.detach old).insert p new place

def clear (d : Document) (id : Nat) : Document :=
  (d.children id).foldl (fun d c => d.modifyNode c fun n => { n with parent := none })
    (d.modifyNode id fun n => { n with children := #[] })

def setAttribute (d : Document) (id : Nat) (name value : String) : Document :=
  d.modifyNode id fun n => { n with attributes := n.attributes.insert name value }

def removeAttribute (d : Document) (id : Nat) (name : String) : Document :=
  d.modifyNode id fun n => { n with attributes := n.attributes.erase name }

def attribute? (d : Document) (id : Nat) (name : String) : Option String :=
  (d.node? id).bind fun n => n.attributes.get? name

def tag? (d : Document) (id : Nat) : Option String :=
  match d.node? id with
  | some { kind := .element tag, .. } => some tag
  | _ => none

def subscribe (d : Document) (id : Nat) (event : String) (callback : Nat) : Document :=
  d.modifyNode id fun n => { n with listeners := n.listeners ++ [(event, callback)] }

def listener? (d : Document) (id : Nat) (event : String) : Option Nat :=
  (d.node? id).bind fun n => n.listeners.lookup event

/-- Whether going up from a node at most `steps` times comes to the root. -/
def reachesRoot (d : Document) : Nat → Nat → Bool
  | 0, id => id == root
  | steps + 1, id => id == root || match d.parent? id with
    | some p => d.reachesRoot steps p
    | none => false

def isAttached (d : Document) (id : Nat) : Bool := d.reachesRoot d.nodes.size id

/-! The clock of a document, which counts milliseconds in 64 bits. It may run over. -/

def lastReading : Nat := Nat.pow 2 64 - 1

def schedule (d : Document) (delay callback : Nat) : Document :=
  let due := d.now + delay
  let seq := d.scheduled + 1
  { d with timers := d.timers ++ [⟨due, seq, callback⟩], scheduled := seq, overrun := d.overrun || lastReading < due }

def Timer.runsBefore (a b : Timer) : Bool := a.due < b.due || (a.due == b.due && a.seq ≤ b.seq)

def advance (d : Document) (time : Nat) : List Nat × Document :=
  let now := d.now + time
  let (due, waiting) := d.timers.partition fun t => t.due ≤ now
  ((due.mergeSort Timer.runsBefore).map (·.callback),
    { d with now, timers := waiting, overrun := d.overrun || lastReading < now })

end Document
end StoryMarkup
