import StoryMarkup.Decimal.Shortest
import StoryMarkup.Script.Expr
import StoryMarkup.Script.Lexer

/-!
From text to expression trees, by binding powers. An operator takes what stands left of it when its
left power is at least the power asked for, and reads its right operand with its right power.
`maxNesting` bounds how deep expressions nest.
-/
namespace StoryMarkup.Script

open Text (Span)

/-- The text of a number as an object key and as shown text: whole numbers below `10 ^ 21` go
through the signed 64-bit range, others are written with the fewest digits that read back, the
larger of two equally close texts. -/
def numberText (x : Float) : String :=
  match Decimal.decode x with
  | .nan => "NaN"
  | .infinite negative => if negative then "-Infinity" else "Infinity"
  | .finite b =>
    if b.isIntegral && b.whole < Nat.pow 10 21 then
      let n := Decimal.toWord x
      if n < 0 then "-" ++ Decimal.digitsText n.natAbs else Decimal.digitsText n.natAbs
    else (if b.negative then "-" else "") ++ (Decimal.shortest .up b).plain

structure Power where
  left : Nat
  right : Nat
deriving DecidableEq, Repr

namespace Power

def assign : Power := ⟨4, 3⟩
def ternary : Power := ⟨5, 6⟩
def nullish : Power := ⟨7, 8⟩
def or : Power := ⟨9, 10⟩
def and : Power := ⟨11, 12⟩
def bitOr : Power := ⟨13, 14⟩
def bitXor : Power := ⟨15, 16⟩
def bitAnd : Power := ⟨17, 18⟩
def equality : Power := ⟨19, 20⟩
def relation : Power := ⟨21, 22⟩
def sum : Power := ⟨25, 26⟩
def product : Power := ⟨27, 28⟩
def power : Power := ⟨30, 29⟩
def sign : Nat := 31
def access : Nat := 33

end Power

inductive Joiner where
  | binary (op : BinaryOp)
  | logical (op : LogicalOp)
  | assign (op : Option CompoundOp)
  | ternary
deriving DecidableEq, Repr

def joiners : List (String × Power × Joiner) :=
  [("=", .assign, .assign none),
   ("+=", .assign, .assign (some (.arith .add))),
   ("-=", .assign, .assign (some (.arith .sub))),
   ("*=", .assign, .assign (some (.arith .mul))),
   ("/=", .assign, .assign (some (.arith .div))),
   ("%=", .assign, .assign (some (.arith .rem))),
   ("**=", .assign, .assign (some (.arith .pow))),
   ("&&=", .assign, .assign (some (.logical .and))),
   ("||=", .assign, .assign (some (.logical .or))),
   ("??=", .assign, .assign (some (.logical .nullish))),
   ("?", .ternary, .ternary),
   ("??", .nullish, .logical .nullish),
   ("||", .or, .logical .or),
   ("&&", .and, .logical .and),
   ("|", .bitOr, .binary .bitOr),
   ("^", .bitXor, .binary .bitXor),
   ("&", .bitAnd, .binary .bitAnd),
   ("==", .equality, .binary .eq),
   ("!=", .equality, .binary .notEq),
   ("===", .equality, .binary .strictEq),
   ("!==", .equality, .binary .strictNotEq),
   ("<", .relation, .binary .lt),
   ("<=", .relation, .binary .ltEq),
   (">", .relation, .binary .gt),
   (">=", .relation, .binary .gtEq),
   ("+", .sum, .binary .add),
   ("-", .sum, .binary .sub),
   ("*", .product, .binary .mul),
   ("/", .product, .binary .div),
   ("%", .product, .binary .rem),
   ("**", .power, .binary .pow)]

def joiner? : TokenKind → Option (Power × Joiner)
  | .op sign => joiners.lookup sign
  | .ident name => if name == "in" then some (.relation, .binary .member) else none
  | _ => none

/-- The tokens still to read, with at most one that was looked at but not taken. -/
structure Feed where
  lexer : Lexer
  ahead : Option (Token × Lexer) := none

abbrev Parser := StateT Feed (Except ScriptError)

namespace Parser

def next : Parser Token := fun f =>
  match f.ahead with
  | some (token, after) => .ok (token, ⟨after, none⟩)
  | none => match f.lexer.next with
    | .ok (token, after) => .ok (token, ⟨after, none⟩)
    | .error e => .error e

def peek : Parser Token := fun f =>
  match f.ahead with
  | some (token, _) => .ok (token, f)
  | none => match f.lexer.next with
    | .ok (token, after) => .ok (token, ⟨f.lexer, some (token, after)⟩)
    | .error e => .error e

def position : Parser Nat := fun f =>
  match f.ahead with
  | some (token, _) => .ok (token.span.start, f)
  | none => .ok (f.lexer.cursor.pos, f)

def remaining : Parser Nat := fun f => .ok (f.lexer.cursor.rest.length + 1, f)

def refuse {α : Type} (problem : SyntaxProblem) (span : Span) : Parser α := throw (.malformed problem span)

end Parser

open StoryMarkup.Script.Parser

def describe (source : List Char) (token : Token) : String :=
  match token.kind with
  | .eof => "end of input"
  | _ => "'" ++ ((token.span.extract? source).map String.ofList).getD "?" ++ "'"

def unexpected {α : Type} (source : List Char) (token : Token) : Parser α :=
  refuse (.unexpected (describe source token)) token.span

def expect (source : List Char) (p : TokenKind → Bool) (wanted : String) : Parser Token := do
  let token ← next
  if p token.kind then return token
  else refuse (.expected wanted (describe source token)) token.span

def expectClosing (source : List Char) (b : Bracket) : Parser Token :=
  expect source (·.isClosing b) ("'" ++ b.closeChar.toString ++ "'")

def expectColon (source : List Char) : Parser Token := expect source (·.isOp ":") "':'"

def eatComma : Parser Bool := do
  let token ← peek
  if token.kind.isComma then
    let _ ← next
    return true
  else return false

def ensureAssignable (e : Expr) : Parser Unit :=
  if e.isAssignable then pure () else refuse .assignmentTarget e.span

/-- The names between the brackets of arrow parameters, when `=>` follows the bracket. The lexer is
just past the opening bracket; without arrow parameters there nothing is taken. -/
def arrowNames : Nat → List String → Lexer → Option (List String × Lexer)
  | 0, _, _ => none
  | fuel + 1, names, lx =>
    match lx.next with
    | .ok (⟨.ident name, _⟩, lx) =>
      match lx.next with
      | .ok (⟨.comma, _⟩, lx) => arrowNames fuel (name :: names) lx
      | .ok (⟨.closing .round, _⟩, lx) => arrow (name :: names) lx
      | _ => none
    | .ok (⟨.closing .round, _⟩, lx) => if names.isEmpty then arrow [] lx else none
    | _ => none
where
  arrow (names : List String) (lx : Lexer) : Option (List String × Lexer) :=
    match lx.next with
    | .ok (token, lx) => if token.kind.isOp "=>" then some (names.reverse, lx) else none
    | .error _ => none

def arrowParams : Parser (Option (List String)) := fun f =>
  match arrowNames (f.lexer.cursor.rest.length + 1) [] f.lexer with
  | some (names, lx) => .ok (some names, ⟨lx, none⟩)
  | none => .ok (none, f)

section Productions

variable (source : List Char) (sub : Nat → Parser Expr)

def arrowBody (params : List String) (start : Span) : Parser Expr := do
  let body ← sub Power.assign.right
  return .mk (start.join body.span) (.arrow params body)

def listItem : Parser Expr := do
  let token ← peek
  if token.kind.isOp "..." then
    let _ ← next
    let inner ← sub 0
    return .mk (token.span.join inner.span) (.spread inner)
  else sub 0

def listItems (close : Bracket) : Nat → List Expr → Parser (List Expr)
  | 0, done => return done.reverse
  | fuel + 1, done => do
    let token ← peek
    if token.kind.isClosing close then return done.reverse
    else
      let item ← listItem sub
      if ← eatComma then listItems close fuel (item :: done) else return (item :: done).reverse

def bracketed (close : Bracket) : Parser (List Expr × Span) := do
  let items ← listItems sub close (← remaining) []
  let token ← expectClosing source close
  return (items, token.span)

def accessAfter (target : Expr) : Parser Expr := do
  let token ← next
  let optional := token.kind.isOp "?."
  let kind ←
    if optional then
      let ahead ← peek
      match ahead.kind with
      | .opening .square | .opening .round => pure (← next).kind
      | _ => pure TokenKind.dot
    else pure token.kind
  match kind with
  | .dot =>
    let name ← next
    match name.kind with
    | .ident property => return .mk (target.span.join name.span) (.member target property optional)
    | _ => refuse (.expected "property name" (describe source name)) name.span
  | .opening .square =>
    let key ← sub 0
    let close ← expectClosing source .square
    return .mk (target.span.join close.span) (.index target key optional)
  | _ =>
    let (args, close) ← bracketed source sub .round
    return .mk (target.span.join close) (.call target args optional)

def joined (power : Power) (joiner : Joiner) (left : Expr) : Parser Expr := do
  match joiner with
  | .binary op =>
    let right ← sub power.right
    return .mk (left.span.join right.span) (.binary op left right)
  | .logical op =>
    let right ← sub power.right
    return .mk (left.span.join right.span) (.logical op left right)
  | .assign op =>
    ensureAssignable left
    let value ← sub power.right
    return .mk (left.span.join value.span) (.assign op left value)
  | .ternary =>
    let yes ← sub 0
    let _ ← expectColon source
    let no ← sub Power.assign.right
    return .mk (left.span.join no.span) (.conditional left yes no)

def operatorsAfter (least : Nat) : Nat → Expr → Parser Expr
  | 0, left => return left
  | fuel + 1, left => do
    let token ← peek
    match token.kind with
    | .eof => return left
    | .op "++" | .op "--" =>
      if Power.access < least then return left
      else
        let _ ← next
        ensureAssignable left
        operatorsAfter least fuel (.mk (left.span.join token.span) (.update (token.kind.isOp "++") false left))
    | .dot | .opening .square | .opening .round | .op "?." =>
      if Power.access < least then return left
      else operatorsAfter least fuel (← accessAfter source sub left)
    | kind =>
      match joiner? kind with
      | none => return left
      | some (power, joiner) =>
        if power.left < least then return left
        else
          let _ ← next
          operatorsAfter least fuel (← joined source sub power joiner left)

def signed (op : UnaryOp) (start : Span) : Parser Expr := do
  let operand ← sub Power.sign
  return .mk (start.join operand.span) (.unary op operand)

def named (name : String) (span : Span) : Parser Expr := do
  match name with
  | "true" => return .mk span (.bool true)
  | "false" => return .mk span (.bool false)
  | "null" => return .mk span .null
  | "undefined" => return .mk span .undefined
  | "typeof" => signed sub .typeOf span
  | "void" => signed sub .void span
  | _ =>
    let token ← peek
    if token.kind.isOp "=>" then
      let _ ← next
      arrowBody sub [name] span
    else return .mk span (.ident name)

def parenthesised (start : Span) : Parser Expr := do
  match ← arrowParams with
  | some params => arrowBody sub params start
  | none =>
    let inner ← sub 0
    let close ← expectClosing source .round
    return .mk (start.join close.span) inner.form

def fieldValue : Parser Expr := do
  let _ ← expectColon source
  sub 0

/-- A field of an object literal that starts with `token`. A name alone stands for the variable it
names. -/
def objectField (token : Token) : Parser Field := do
  match token.kind with
  | .ident name =>
    let ahead ← peek
    match ahead.kind with
    | .comma | .closing .curly => return .named name (.mk token.span (.ident name))
    | _ => return .named name (← fieldValue source sub)
  | .string s => return .named s (← fieldValue source sub)
  | .number x => return .named (numberText x) (← fieldValue source sub)
  | .opening .square =>
    let key ← sub 0
    let _ ← expectClosing source .square
    return .computed key (← fieldValue source sub)
  | _ => unexpected source token

def objectFields (start : Span) : Nat → List Field → Parser Expr
  | 0, done => return .mk start (.object done.reverse)
  | fuel + 1, done => do
    let token ← next
    if token.kind.isClosing .curly then return .mk (start.join token.span) (.object done.reverse)
    else
      let field ← objectField source sub token
      if ← eatComma then objectFields start fuel (field :: done)
      else
        let close ← expectClosing source .curly
        return .mk (start.join close.span) (.object (field :: done).reverse)

/-- The parts of a template; the expression in a hole ends exactly at the hole's brace. -/
def templateSegments : List TemplatePart → Parser (List Segment)
  | [] => return []
  | .text s :: rest => return .text s :: (← templateSegments rest)
  | .hole span :: rest => do
    match (sub 0).run { lexer := Lexer.ofOffset source span.start } with
    | .error e => throw e
    | .ok (inner, feed) =>
      match next.run feed with
      | .error e => throw e
      | .ok (token, _) =>
        if token.kind.isClosing .curly && token.span.start == span.stop then
          return .hole inner :: (← templateSegments rest)
        else unexpected source token

def operand : Parser Expr := do
  let token ← next
  let span := token.span
  match token.kind with
  | .number x => return .mk span (.number x)
  | .string s => return .mk span (.string s)
  | .pattern source flags => return .mk span (.pattern source flags)
  | .template parts => return .mk span (.template (← templateSegments source sub parts))
  | .ident name => named sub name span
  | .opening .round => parenthesised source sub span
  | .opening .square =>
    let (items, close) ← bracketed source sub .square
    return .mk (span.join close) (.array items)
  | .opening .curly => objectFields source sub span (← remaining) []
  | .op "!" => signed sub .not span
  | .op "-" => signed sub .negate span
  | .op "+" => signed sub .plus span
  | .op "~" => signed sub .complement span
  | .op "++" | .op "--" =>
    let target ← sub Power.sign
    ensureAssignable target
    return .mk (span.join target.span) (.update (token.kind.isOp "++") true target)
  | _ => unexpected source token

end Productions

def expression (source : List Char) : Nat → Nat → Parser Expr
  | 0, _ => do
    let place ← position
    throw ⟨.nestingTooDeep maxNesting, some ⟨place, place⟩⟩
  | levels + 1, least => do
    let left ← operand source (expression source levels)
    operatorsAfter source (expression source levels) least (← remaining) left

def Expr.parse (source : List Char) : Except ScriptError Expr := do
  let (e, feed) ← (expression source maxNesting 0).run { lexer := Lexer.ofOffset source 0 }
  let (token, _) ← next.run feed
  match token.kind with
  | .eof => return e
  | _ => (unexpected source token).run' feed

end StoryMarkup.Script
