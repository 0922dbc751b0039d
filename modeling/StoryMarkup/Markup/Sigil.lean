import StoryMarkup.Script.Lexer
import StoryMarkup.Script.Scope

/-!
Expressions embedded in prose. A fragment ends before the first comma outside all brackets or before
the bracket that closes it. On the way `$name`, `_name` and `@name` are written as fields of the
scope they select, except right after a dot, and comments are dropped, but for their line breaks.
-/
namespace StoryMarkup.Markup

open Script (Bracket Lexer Scope ScriptError Token TemplatePart)
open Text (Cursor Span isBlank)

inductive Stop where
  | comma
  | close
deriving DecidableEq, Repr

inductive Limit where
  | bracket (b : Bracket)
  | offset (n : Nat)
deriving DecidableEq, Repr

structure ExprSource where
  code : String
  raw : String
deriving DecidableEq, Repr, Inhabited

structure Written where
  code : List Char
  stopAt : Nat
  stop : Stop
deriving Repr

/-- A name that starts with a sigil becomes a field of its scope, unless a digit follows the
sigil. -/
def writeIdent (name : String) : List Char :=
  match name.toList with
  | s :: c :: rest =>
    if Text.isAsciiDigit c then s :: c :: rest
    else if s == '$' then "story.".toList ++ c :: rest
    else if s == '_' then "temp.".toList ++ c :: rest
    else s :: c :: rest
  | short => short

/-- The text of a template token with each hole replaced by what `inner` makes of it. `k` stands at
the first character not yet copied. -/
def writeTemplate (inner : Span → Except ScriptError (List Char)) (stop : Nat) :
    List TemplatePart → Cursor → Except ScriptError (List Char)
  | [], k => .ok (k.upTo stop)
  | .text _ :: rest, k => writeTemplate inner stop rest k
  | .hole span :: rest, k =>
    match inner span with
    | .error e => .error e
    | .ok code =>
      let lead := k.upTo span.start
      let after := k.skip (lead.length + (Cursor.upTo (k.skip lead.length) span.stop).length)
      match writeTemplate inner stop rest after with
      | .error e => .error e
      | .ok more => .ok (lead ++ code ++ more)

def commentText (newlines : Nat) : List Char :=
  if newlines > 0 then List.replicate newlines '\n' else [' ']

def leadsProperty (token : Token) : Bool :=
  match token.kind with
  | .dot => true
  | kind => kind.isOp "?."

/-- An at sign directly before a name selects the constants; `after` is the lexer past the sign. -/
def writeConstant (token : Token) (after : Lexer) : Except ScriptError (List Char × Lexer) :=
  match after.nextOrComment with
  | .error e => .error e
  | .ok (ahead, past) =>
    match ahead.kind with
    | .ident name =>
      if ahead.span.start == token.span.stop then .ok ("constants.".toList ++ name.toList, past)
      else .ok (['@'], after)
    | _ => .ok (['@'], after)

section
variable (inner : Span → Except ScriptError (List Char)) (start : Nat) (limit : Limit)

/-- The fragment from the lexer on. `out` holds what was written, last piece first, and `opened` the
brackets that are still open, innermost first. -/
def writeTokens : Nat → Lexer → List (List Char) → List Bracket → Bool → Except ScriptError Written
  | 0, lx, _, _, _ => Script.fail (.missing ')') start lx.cursor
  | fuel + 1, lx, out, opened, property =>
    match lx.nextOrComment with
    | .error e => .error e
    | .ok (token, after) =>
      let finish (text : List Char) (stopAt : Nat) (stop : Stop) : Except ScriptError Written :=
        .ok ⟨(text :: out).reverse.flatten, stopAt, stop⟩
      let gap := lx.cursor.runWhile isBlank
      let lexeme := (lx.cursor.skipWhile isBlank).upTo token.span.stop
      let goOn (text : List Char) (lx : Lexer) (opened : List Bracket) : Except ScriptError Written :=
        writeTokens fuel lx (text :: gap :: out) opened (leadsProperty token)
      match limit, reached limit token with
      | .offset n, true =>
        match opened with
        | b :: _ => .error (.malformed (.missing b.closeChar) token.span)
        | [] => finish (lx.cursor.upTo n) n .close
      | _, _ =>
        match token.kind with
        | .eof => .error (.malformed (.missing (wantedBracket limit opened)) ⟨start, token.span.stop⟩)
        | .comma =>
          match limit, opened with
          | .bracket _, [] => finish gap token.span.start .comma
          | _, _ => goOn lexeme after opened
        | .opening b => goOn lexeme after (b :: opened)
        | .closing b =>
          match opened with
          | c :: outer =>
            if b == c then goOn lexeme after outer
            else .error (.malformed (.mismatched b.closeChar c.closeChar) token.span)
          | [] =>
            if limit == .bracket b then finish gap token.span.start .close
            else .error (.malformed (.unexpected ("'" ++ b.closeChar.toString ++ "'")) token.span)
        | .comment newlines => goOn (commentText newlines) after opened
        | .ident name => goOn (if property then lexeme else writeIdent name) after opened
        | .atSign =>
          match writeConstant token after with
          | .error e => .error e
          | .ok (text, past) => goOn text past opened
        | .template parts =>
          match writeTemplate inner token.span.stop parts (lx.cursor.skipWhile isBlank) with
          | .error e => .error e
          | .ok text => goOn text after opened
        | _ => goOn lexeme after opened
where
  reached (limit : Limit) (token : Token) : Bool :=
    match limit with
    | .offset n => n ≤ token.span.start || token.kind.isEof
    | .bracket _ => false
  wantedBracket (limit : Limit) (opened : List Bracket) : Char :=
    match opened, limit with
    | b :: _, _ => b.closeChar
    | [], .bracket b => b.closeChar
    | [], .offset _ => ')'

end

/-- Write out the sigils from byte `start` up to the limit; holes of templates are written the same
way, `levels` deep. -/
def write (source : List Char) : Nat → Nat → Limit → Except ScriptError Written
  | 0, start, _ => .error ⟨.nestingTooDeep Script.maxNesting, some ⟨start, start⟩⟩
  | levels + 1, start, limit =>
    let inner (span : Span) : Except ScriptError (List Char) :=
      match write source levels span.start (.offset span.stop) with
      | .error e => .error e
      | .ok w => .ok w.code
    let lexer := Lexer.ofOffset source start
    writeTokens inner start limit (lexer.cursor.rest.length + 1) lexer [] [] false

/-- A template nests at most `maxNesting` deep, so this many levels are always enough. -/
def writeLevels : Nat := Script.maxNesting + 2

structure Fragment where
  expr : ExprSource
  stopAt : Nat
  stop : Stop
deriving Repr

/-- The fragment from byte `start` up to a comma or the closing bracket, without the blanks around
it. -/
def fragment (source : List Char) (start : Nat) (close : Bracket) : Except ScriptError Fragment := do
  let w ← write source writeLevels start (.bracket close)
  let raw := (Cursor.ofOffset source start).upTo w.stopAt
  return ⟨⟨String.ofList (Text.trimChars w.code), String.ofList (Text.trimChars raw)⟩, w.stopAt, w.stop⟩

/-- Fragments divided by commas up to the closing bracket, and the offset of that bracket. The last
one may be empty, which allows a comma at the end; another empty one is refused. -/
def fragmentsFrom (source : List Char) (close : Bracket) :
    Nat → List ExprSource → Nat → Except ScriptError (List ExprSource × Nat)
  | 0, done, start => .ok (done.reverse, start)
  | fuel + 1, done, start => do
    let f ← fragment source start close
    match f.stop with
    | .comma =>
      if f.expr.code.isEmpty then .error (.malformed .emptyArgument ⟨start, f.stopAt⟩)
      else fragmentsFrom source close fuel (f.expr :: done) (f.stopAt + 1)
    | .close =>
      if f.expr.code.isEmpty then return (done.reverse, f.stopAt) else return ((f.expr :: done).reverse, f.stopAt)

def fragments (source : List Char) (start : Nat) (close : Bracket) : Except ScriptError (List ExprSource × Nat) :=
  fragmentsFrom source close (source.length + 1) [] start

def writeExpression (source : List Char) : Except ScriptError String := do
  let w ← write source writeLevels 0 (.offset (Text.byteLength source))
  return String.ofList (Text.trimChars w.code)

end StoryMarkup.Markup
