import StoryMarkup.Text.Span

/-! Expression trees. Every node carries the span of the source it was read from. -/
namespace StoryMarkup.Script

open Text (Span)

inductive UnaryOp where
  | not | negate | plus | complement | typeOf | void
deriving DecidableEq, Repr

inductive BinaryOp where
  | add | sub | mul | div | rem | pow
  | eq | notEq | strictEq | strictNotEq
  | lt | ltEq | gt | gtEq | member
  | bitAnd | bitOr | bitXor
deriving DecidableEq, Repr

inductive LogicalOp where
  | and | or | nullish
deriving DecidableEq, Repr

inductive CompoundOp where
  | arith (op : BinaryOp)
  | logical (op : LogicalOp)
deriving DecidableEq, Repr

mutual

inductive Expr where
  | mk (span : Span) (form : Form)

inductive Form where
  | undefined
  | null
  | bool (b : Bool)
  | number (x : Float)
  | string (s : String)
  | template (parts : List Segment)
  | pattern (source flags : String)
  | array (items : List Expr)
  | object (fields : List Field)
  | spread (inner : Expr)
  | ident (name : String)
  | member (target : Expr) (property : String) (optional : Bool)
  | index (target key : Expr) (optional : Bool)
  | call (callee : Expr) (args : List Expr) (optional : Bool)
  | unary (op : UnaryOp) (operand : Expr)
  | update (increment before : Bool) (target : Expr)
  | binary (op : BinaryOp) (left right : Expr)
  | logical (op : LogicalOp) (left right : Expr)
  | conditional (test yes no : Expr)
  | assign (op : Option CompoundOp) (target value : Expr)
  | arrow (params : List String) (body : Expr)

inductive Segment where
  | text (s : String)
  | hole (e : Expr)

inductive Field where
  | named (key : String) (value : Expr)
  | computed (key value : Expr)

end

instance : Inhabited Expr := ⟨.mk ⟨0, 0⟩ .undefined⟩

namespace Expr

def span : Expr → Span
  | .mk span _ => span

def form : Expr → Form
  | .mk _ form => form

def isAssignment (e : Expr) : Bool :=
  match e.form with
  | .assign .. | .update .. => true
  | _ => false

def isAssignable (e : Expr) : Bool :=
  match e.form with
  | .ident _ | .member _ _ false | .index _ _ false => true
  | _ => false

end Expr
end StoryMarkup.Script
