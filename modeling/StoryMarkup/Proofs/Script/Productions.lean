import StoryMarkup.Proofs.Script.Readings
import StoryMarkup.Script.Grammar

/-!
Expressions apart from the places they were read from, and the productions of the grammar behind an
operand, each told by the token it starts with.
-/
namespace StoryMarkup.Script

mutual

def Expr.bare : Expr → Expr
  | .mk _ form => .mk ⟨0, 0⟩ form.bare

def Form.bare : Form → Form
  | .template parts => .template (Segment.bareAll parts)
  | .array items => .array (Expr.bareAll items)
  | .object fields => .object (Field.bareAll fields)
  | .spread inner => .spread inner.bare
  | .member target property optional => .member target.bare property optional
  | .index target key optional => .index target.bare key.bare optional
  | .call callee args optional => .call callee.bare (Expr.bareAll args) optional
  | .unary op operand => .unary op operand.bare
  | .update increment before target => .update increment before target.bare
  | .binary op left right => .binary op left.bare right.bare
  | .logical op left right => .logical op left.bare right.bare
  | .conditional test yes no => .conditional test.bare yes.bare no.bare
  | .assign op target value => .assign op target.bare value.bare
  | .arrow params body => .arrow params body.bare
  | .undefined => .undefined
  | .null => .null
  | .bool b => .bool b
  | .number x => .number x
  | .string s => .string s
  | .pattern source flags => .pattern source flags
  | .ident name => .ident name

def Expr.bareAll : List Expr → List Expr
  | [] => []
  | e :: rest => e.bare :: Expr.bareAll rest

def Field.bareAll : List Field → List Field
  | [] => []
  | .named key value :: rest => .named key value.bare :: Field.bareAll rest
  | .computed key value :: rest => .computed key.bare value.bare :: Field.bareAll rest

def Segment.bareAll : List Segment → List Segment
  | [] => []
  | .text s :: rest => .text s :: Segment.bareAll rest
  | .hole e :: rest => .hole e.bare :: Segment.bareAll rest

end

lemma Expr.bareAll_eq_map (es : List Expr) : Expr.bareAll es = es.map Expr.bare := by
  induction es with
  | nil => rfl
  | cons e rest ih => rw [Expr.bareAll, ih, List.map_cons]

def Field.bare : Field → Field
  | .named key value => .named key value.bare
  | .computed key value => .computed key.bare value.bare

lemma Field.bareAll_eq_map (fields : List Field) : Field.bareAll fields = fields.map Field.bare := by
  induction fields with
  | nil => rfl
  | cons field rest ih => cases field <;> rw [Field.bareAll, ih, List.map_cons, Field.bare]

open TokenKind Text

variable {kind : TokenKind}

lemma Expr.isAssignable_bare (e : Expr) : e.bare.isAssignable = e.isAssignable := by
  obtain ⟨span, form⟩ := e
  cases form with
  | member target property optional | index target key optional => cases optional <;> rfl
  | _ => rfl

lemma TokenKind.isClosing_iff {b : Bracket} : kind.isClosing b = true ↔ kind = .closing b := by
  cases kind <;> simp [isClosing]

lemma TokenKind.ends_iff : kind.ends = true ↔ kind = .eof ∨ kind = .comma ∨ ∃ b, kind = .closing b := by
  cases kind <;> simp [ends]

lemma TokenKind.isOp_iff {sign : String} : kind.isOp sign = true ↔ kind = .op sign := by
  cases kind <;> simp [isOp]

def selected (src : List Char) (sub : Nat → Parser Expr) (target : Expr) (optional : Bool)
    (kind : TokenKind) : Parser Expr := do
  match kind with
  | .dot =>
    let name ← Parser.next
    match name.kind with
    | .ident property => return .mk (target.span.join name.span) (.member target property optional)
    | _ => Parser.refuse (.expected "property name" (describe src name)) name.span
  | .opening .square =>
    let key ← sub 0
    let close ← expectClosing src .square
    return .mk (target.span.join close.span) (.index target key optional)
  | _ =>
    let (args, close) ← bracketed src sub .round
    return .mk (target.span.join close) (.call target args optional)

def TokenKind.updates (kind : TokenKind) : Bool := kind.isOp "++" || kind.isOp "--"

def TokenKind.accesses : TokenKind → Bool
  | .dot | .opening .square | .opening .round => true
  | kind => kind.isOp "?."

def extended (src : List Char) (sub : Nat → Parser Expr) (least : Nat) (more : Expr → Parser Expr)
    (left : Expr) (token : Token) : Parser Expr :=
  if token.kind.updates then
    if Power.access < least then return left
    else do
      let _ ← Parser.next
      ensureAssignable left
      more (.mk (left.span.join token.span) (.update (token.kind.isOp "++") false left))
  else if token.kind.accesses then
    if Power.access < least then return left else accessAfter src sub left >>= more
  else match joiner? token.kind with
    | none => return left
    | some (power, joiner) =>
      if power.left < least then return left
      else do
        let _ ← Parser.next
        joined src sub power joiner left >>= more

lemma TokenKind.updates_iff : kind.updates = true ↔ kind = .op "++" ∨ kind = .op "--" := by
  rw [updates, Bool.or_eq_true, isOp_iff, isOp_iff]

lemma TokenKind.accesses_iff :
    kind.accesses = true ↔ kind = .dot ∨ kind = .opening .square ∨ kind = .opening .round ∨ kind = .op "?." := by
  cases kind with
  | opening b => cases b <;> simp [accesses, isOp]
  | _ => simp [accesses, isOp]

lemma operatorsAfter_succ (src : List Char) (sub : Nat → Parser Expr) (least fuel : Nat)
    (left : Expr) : operatorsAfter src sub least (fuel + 1) left =
      Parser.peek >>= extended src sub least (operatorsAfter src sub least fuel) left := by
  rw [operatorsAfter]
  congr 1
  funext token
  obtain ⟨kind, span⟩ := token
  cases kind with
  | op sign =>
    by_cases hplus : sign = "++"
    · subst hplus
      rfl
    · by_cases hminus : sign = "--"
      · subst hminus
        rfl
      · by_cases hquestion : sign = "?."
        · subst hquestion
          rfl
        · have hupdates : (op sign).updates = false := by simp [updates, isOp, hplus, hminus]
          have haccesses : (op sign).accesses = false := by simp [accesses, isOp, hquestion]
          simp only [extended, hupdates, haccesses, Bool.false_eq_true, if_false]
          split <;> first | rfl | simp_all
  | opening b => cases b <;> rfl
  | _ => rfl

end StoryMarkup.Script
