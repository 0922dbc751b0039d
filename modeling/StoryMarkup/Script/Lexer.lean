import StoryMarkup.Decimal.Reading
import StoryMarkup.Script.Error
import StoryMarkup.Script.Token

/-! The lexer. The token before a slash tells a division from a pattern; a hole in a template is
lexed to its end. -/
namespace StoryMarkup.Script

open Text (Cursor isAsciiDigit isAsciiHexDigit isAsciiLetter isBlank)

abbrev Scan (α : Type) := Except ScriptError (α × Cursor)

def fail {α : Type} (problem : SyntaxProblem) (start : Nat) (k : Cursor) : Except ScriptError α :=
  .error (.malformed problem ⟨start, k.pos⟩)

/-- A character given by hexadecimal digits in the next `count` bytes. A sign may stand in the first
place. The cursor has moved past the digits even when they name no character. -/
def scanHexDigits (count : Nat) (k : Cursor) : Option Char × Cursor :=
  match Text.takeBytes? k.rest count with
  | none => (none, k)
  | some digits => match Decimal.readCount? 16 (Nat.pow 2 32) digits with
    | none => (none, k)
    | some n =>
      let after := k.skip digits.length
      (if n.isValidChar then some (Char.ofNat n) else none, after)

def scanBracedDigits (k : Cursor) : Option Char × Cursor :=
  let digits := k.runWhile isAsciiHexDigit
  let after := k.skipWhile isAsciiHexDigit
  let code := (Decimal.radixValue? 16 digits).filter (·.isValidChar)
  match after.next? with
  | some ('}', k) => (code.map Char.ofNat, k)
  | some (_, k) => (none, k)
  | none => (none, after)

/-- An escape after its backslash, as the characters it stands for. `start` is where the literal
began. -/
def scanEscape (start : Nat) (k : Cursor) : Scan (List Char) :=
  match k.next? with
  | none => fail .openString start k
  | some ('n', k) => .ok (['\n'], k)
  | some ('t', k) => .ok (['\t'], k)
  | some ('r', k) => .ok (['\r'], k)
  | some ('0', k) => .ok ([Char.ofNat 0], k)
  | some ('\n', k) => .ok ([], k)
  | some ('x', k) => match scanHexDigits 2 k with
    | (some c, k) => .ok ([c], k)
    | (none, k) => fail .byteEscape start k
  | some ('u', k) =>
    let (c?, k) := if k.peek? == some '{' then scanBracedDigits (k.skip 1) else scanHexDigits 4 k
    match c? with
    | some c => .ok ([c], k)
    | none => fail .unicodeEscape start k
  | some (c, k) => .ok ([c], k)

def scanStringBody (quote : Char) (start : Nat) : Nat → List Char → Cursor → Scan TokenKind
  | 0, _, k => fail .openString start k
  | fuel + 1, done, k =>
    match k.next? with
    | none => fail .openString start k
    | some (c, k) =>
      if c == '\n' then fail .openString start k
      else if c == quote then .ok (.string (String.ofList done.reverse), k)
      else if c == '\\' then
        match scanEscape start k with
        | .ok (cs, k) => scanStringBody quote start fuel (cs ++ done) k
        | .error e => .error e
      else scanStringBody quote start fuel (c :: done) k

def flushText (done : List Char) (parts : List TemplatePart) : List TemplatePart :=
  if done.isEmpty then parts else .text (String.ofList done.reverse) :: parts

def scanTemplateBody (holeEnd : Nat → Cursor → Except ScriptError Cursor) (start : Nat) :
    Nat → List TemplatePart → List Char → Cursor → Scan TokenKind
  | 0, _, _, k => fail .openTemplate start k
  | fuel + 1, parts, done, k =>
    match k.next? with
    | none => fail .openTemplate start k
    | some (c, k) =>
      if c == Char.ofNat 96 then
        let all := if done.isEmpty && parts.isEmpty then [.text ""] else flushText done parts
        .ok (.template all.reverse, k)
      else if c == '\\' then
        match scanEscape start k with
        | .ok (cs, k) => scanTemplateBody holeEnd start fuel parts (cs ++ done) k
        | .error e => .error e
      else if c == '$' && k.peek? == some '{' then
        let inner := k.skip 1
        match holeEnd start inner with
        | .ok after =>
          let hole := .hole ⟨inner.pos, after.pos - 1⟩
          scanTemplateBody holeEnd start fuel (hole :: flushText done parts) [] after
        | .error e => .error e
      else scanTemplateBody holeEnd start fuel parts (c :: done) k

def scanPatternBody (start : Nat) : Nat → Bool → List Char → Cursor → Scan (List Char)
  | 0, _, _, k => fail .openPattern start k
  | fuel + 1, inClass, done, k =>
    match k.next? with
    | none => fail .openPattern start k
    | some (c, k) =>
      if c == '\n' then fail .openPattern start k
      else if c == '\\' then
        match k.next? with
        | none => fail .openPattern start k
        | some (d, k) =>
          if d == '\n' then fail .openPattern start k else scanPatternBody start fuel inClass (d :: c :: done) k
      else if c == '[' then scanPatternBody start fuel true (c :: done) k
      else if c == ']' then scanPatternBody start fuel false (c :: done) k
      else if c == '/' && !inClass then .ok (done.reverse, k)
      else scanPatternBody start fuel inClass (c :: done) k

def scanPattern (k : Cursor) : Scan TokenKind :=
  match scanPatternBody k.pos (k.rest.length + 1) false [] (k.skip 1) with
  | .error e => .error e
  | .ok (source, after) =>
    let flags := after.runWhile isAsciiLetter
    .ok (.pattern (String.ofList source) (String.ofList flags), after.skipWhile isAsciiLetter)

def exponentRun (cs : List Char) : List Char :=
  match cs with
  | e :: rest =>
    if e == 'e' || e == 'E' then
      let (sign, digits) := match rest with
        | s :: more => if s == '+' || s == '-' then ([s], more) else ([], rest)
        | [] => ([], [])
      let run := digits.takeWhile isAsciiDigit
      if run.isEmpty then [] else e :: sign ++ run
    else []
  | [] => []

/-- The point and the places after it. A lone point belongs to the number unless a name or a second
point follows it. -/
def fractionRun (cs : List Char) : List Char :=
  match cs with
  | '.' :: rest => match rest with
    | c :: _ =>
      if isAsciiDigit c then '.' :: rest.takeWhile isAsciiDigit
      else if isIdentStart c || c == '.' then []
      else ['.']
    | [] => ['.']
  | _ => []

def scanNumber (k : Cursor) : Scan TokenKind :=
  match k.rest with
  | '0' :: x :: more =>
    if x == 'x' || x == 'X' then
      let digits := more.takeWhile isAsciiHexDigit
      let after := k.skip (digits.length + 2)
      match Decimal.readWord? 16 digits with
      | some n => .ok (.number (Decimal.ofInt n), after)
      | none => fail .hexNumber k.pos after
    else decimal
  | _ => decimal
where
  decimal : Scan TokenKind :=
    let whole := k.rest.takeWhile isAsciiDigit
    let fraction := fractionRun (k.rest.drop whole.length)
    let exponent := exponentRun (k.rest.drop (whole.length + fraction.length))
    let text := whole ++ fraction ++ exponent
    let after := k.skip text.length
    match Decimal.readUnsigned? text with
    | some x => .ok (.number x, after)
    | none => fail (.decimalNumber (String.ofList text)) k.pos after

def scanOperator (k : Cursor) : Scan TokenKind :=
  match operatorSigns.find? k.startsWith with
  | some sign =>
    if sign == "?." && (k.peekAt? 2).any isAsciiDigit then .ok (.op "?", k.skip 1)
    else .ok (.op sign, k.skip sign.length)
  | none => match k.next? with
    | some (c, after) => fail (.strangeCharacter c) k.pos after
    | none => .ok (.eof, k)

def scanKind (holeEnd : Nat → Cursor → Except ScriptError Cursor) (patternAllowed : Bool) (c : Char)
    (k : Cursor) : Scan TokenKind :=
  let one (kind : TokenKind) : Scan TokenKind := .ok (kind, k.skip 1)
  match c with
  | '(' => one (.opening .round)
  | ')' => one (.closing .round)
  | '[' => one (.opening .square)
  | ']' => one (.closing .square)
  | '{' => one (.opening .curly)
  | '}' => one (.closing .curly)
  | ',' => one .comma
  | '@' => one .atSign
  | '"' => scanStringBody '"' k.pos (k.rest.length + 1) [] (k.skip 1)
  | '\'' => scanStringBody '\'' k.pos (k.rest.length + 1) [] (k.skip 1)
  | _ =>
    if c == Char.ofNat 96 then scanTemplateBody holeEnd k.pos (k.rest.length + 1) [] [] (k.skip 1)
    else if c == '.' && (k.peekAt? 1).any isAsciiDigit then scanNumber k
    else if c == '.' && !(k.peekAt? 1 == some '.' && k.peekAt? 2 == some '.') then one .dot
    else if isAsciiDigit c then scanNumber k
    else if c == '/' && patternAllowed then scanPattern k
    else if isIdentStart c then .ok (.ident (String.ofList (k.runWhile isIdentPart)), k.skipWhile isIdentPart)
    else scanOperator k

def scanBlockComment (start : Nat) : Nat → Nat → Cursor → Scan Nat
  | 0, _, k => fail .openComment start k
  | fuel + 1, newlines, k =>
    match k.next? with
    | none => fail .openComment start k
    | some (c, k) =>
      if c == '*' && k.peek? == some '/' then .ok (newlines, k.skip 1)
      else scanBlockComment start fuel (if c == '\n' then newlines + 1 else newlines) k

/-- The comment at the cursor, if one starts there. A line comment ends before its line break. -/
def scanComment? (k : Cursor) : Option (Scan Nat) :=
  match k.rest with
  | '/' :: '/' :: _ => some (.ok (0, (k.skip 2).skipWhile (· != '\n')))
  | '/' :: '*' :: _ => some (scanBlockComment k.pos (k.rest.length + 1) 0 (k.skip 2))
  | _ => none

structure Lexer where
  cursor : Cursor
  patternAllowed : Bool := true
deriving Repr

namespace Lexer

def ofOffset (source : List Char) (offset : Nat) : Lexer := { cursor := Cursor.ofOffset source offset }

/-- One token. Comments are tokens when `keep` is set and are passed over otherwise; either way they
do not change what a slash means. -/
def scanWith (holeEnd : Nat → Cursor → Except ScriptError Cursor) (keep : Bool) :
    Nat → Lexer → Except ScriptError (Token × Lexer)
  | 0, lx => .ok (⟨.eof, ⟨lx.cursor.pos, lx.cursor.pos⟩⟩, lx)
  | fuel + 1, lx =>
    let k := lx.cursor.skipWhile isBlank
    match k.peek? with
    | none => .ok (⟨.eof, ⟨k.pos, k.pos⟩⟩, { lx with cursor := k })
    | some c =>
      match scanComment? k with
      | some (.error e) => .error e
      | some (.ok (newlines, after)) =>
        if keep then .ok (⟨.comment newlines, ⟨k.pos, after.pos⟩⟩, { lx with cursor := after })
        else scanWith holeEnd keep fuel { lx with cursor := after }
      | none =>
        match scanKind holeEnd lx.patternAllowed c k with
        | .error e => .error e
        | .ok (kind, after) => .ok (⟨kind, ⟨k.pos, after.pos⟩⟩, ⟨after, kind.allowsPattern⟩)

/-- Move past the brace that closes a hole, counting the braces opened inside it. -/
def findHoleEnd (scan : Lexer → Except ScriptError (Token × Lexer)) (templateStart : Nat) :
    Nat → Nat → Lexer → Except ScriptError Cursor
  | 0, _, lx => fail .openTemplate templateStart lx.cursor
  | fuel + 1, depth, lx =>
    match scan lx with
    | .error e => .error e
    | .ok (token, after) =>
      match token.kind with
      | .eof => .error (.malformed .openTemplate ⟨templateStart, token.span.stop⟩)
      | .opening .curly => findHoleEnd scan templateStart fuel (depth + 1) after
      | .closing .curly =>
        match depth with
        | 0 => .ok after.cursor
        | d + 1 => findHoleEnd scan templateStart fuel d after
      | _ => findHoleEnd scan templateStart fuel depth after

def scan (keep : Bool) : Nat → Lexer → Except ScriptError (Token × Lexer)
  | 0, lx =>
    let tooDeep (start : Nat) (k : Cursor) : Except ScriptError Cursor :=
      .error ⟨.nestingTooDeep maxNesting, some ⟨start, k.pos⟩⟩
    lx.scanWith tooDeep keep (lx.cursor.rest.length + 1)
  | levels + 1, lx =>
    let holeEnd (start : Nat) (k : Cursor) : Except ScriptError Cursor :=
      findHoleEnd (scan false levels) start (k.rest.length + 1) 0 { cursor := k }
    lx.scanWith holeEnd keep (lx.cursor.rest.length + 1)

def next (lx : Lexer) : Except ScriptError (Token × Lexer) := lx.scan false maxNesting

def nextOrComment (lx : Lexer) : Except ScriptError (Token × Lexer) := lx.scan true maxNesting

/-- All tokens up to the end or to the first failure; a failure comes with the lexer before it. -/
def tokensFrom (keep : Bool) : Nat → Lexer → List Token × Option (ScriptError × Lexer)
  | 0, _ => ([], none)
  | fuel + 1, lx =>
    match lx.scan keep maxNesting with
    | .error e => ([], some (e, lx))
    | .ok (token, after) =>
      match token.kind with
      | .eof => ([token], none)
      | _ =>
        let (rest, failure) := tokensFrom keep fuel after
        (token :: rest, failure)

def tokens (keep : Bool) (lx : Lexer) : List Token × Option (ScriptError × Lexer) :=
  lx.tokensFrom keep (lx.cursor.rest.length + 1)

end Lexer
end StoryMarkup.Script
