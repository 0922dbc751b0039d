import StoryMarkup.Markup.Problem
import StoryMarkup.Text.Find

/-! The passage parser. It recurses on the levels still allowed, and in a level on the text that is
left. -/
namespace StoryMarkup.Markup

open Script (Scope ScriptError maxNesting)
open Text (Cursor isAsciiAlphanumeric isAsciiLetter isBlank)

structure Shape where
  siblings : Option (List String) := none
  iteration : Bool := false
deriving DecidableEq, Repr

def Shape.isChain (s : Shape) : Bool := s.siblings.isSome || s.iteration

structure Source where
  passage : String
  startLine : Nat
  text : List Char
  shape? : String → Option Shape

def newlinesBefore (count : Nat) : Nat → List Char → Nat
  | 0, _ => count
  | _, [] => count
  | offset + 1, c :: cs => newlinesBefore (if c == '\n' then count + 1 else count) (offset + 1 - c.utf8Size) cs

def Source.lineAt (src : Source) (offset : Nat) : Nat := src.startLine + newlinesBefore 0 offset src.text

def Source.loc (src : Source) (offset : Nat) : Location := ⟨src.passage, src.lineAt offset⟩

structure Reading where
  cursor : Cursor
  before : Option Char := none
  warnings : Array Warning := #[]

abbrev Reader := StateT Reading (Except ParseError)

inductive Until where
  | finish
  | brace (openAt : Nat)
  | closeTag (name : String) (openAt : Nat)

namespace Until

def openAt : Until → Nat
  | .finish => 0
  | .brace openAt => openAt
  | .closeTag _ openAt => openAt

end Until

/-- Text read since the last template: where it starts and its characters, last one first. -/
abbrev Pending := Option (Nat × List Char)

def Pending.push (p : Pending) (offset : Nat) (cs : List Char) : Pending :=
  match p with
  | none => some (offset, cs.reverse)
  | some (start, done) => some (start, cs.reverse ++ done)

def closingTag? (name : String) (cs : List Char) : Option Nat :=
  match cs with
  | '<' :: '/' :: more =>
    let length := name.length
    if (more.take length).map Text.lowerAscii == name.toList then
      let after := more.drop length
      let blanks := (after.takeWhile isBlank).length
      if (after.drop blanks).head? == some '>' then some (length + blanks + 3) else none
    else none
  | _ => none

def rawText? (name : String) : List Char → List Char → Option (List Char × Nat)
  | _, [] => none
  | done, c :: cs =>
    match closingTag? name (c :: cs) with
    | some n => some (done.reverse, n)
    | none => rawText? name (c :: done) cs

def startsReference (before : Option Char) (sigil : Char) (after : Option Char) : Bool :=
  if before.any fun c => Text.isAlphanumeric c || c == '_' || c == '$' then false
  else match sigil with
    | '@' => after.any fun c => c == '(' || isAsciiLetter c || c == '_'
    | '$' => after.any fun c => isAsciiLetter c || c == '_'
    | '_' => after.any isAsciiLetter
    | _ => false

def countText (sep hay : List Char) : Nat := (Text.splitAt sep hay).length - 1

def splitLink (done : List Char) : List Char → List Char × List Char
  | '-' :: '>' :: rest => (done.reverse, rest)
  | '<' :: '-' :: rest => (rest, done.reverse)
  | '|' :: rest => (done.reverse, rest)
  | c :: rest => splitLink (c :: done) rest
  | [] => (done.reverse, done.reverse)

def linkParts? (inner : List Char) : Option (String × String) :=
  let separators := countText ['-', '>'] inner + countText ['<', '-'] inner + countText ['|'] inner
  if inner.contains '\n' || separators > 1 then none
  else
    let (label, target) := splitLink [] inner
    let label := Text.trimChars label
    let target := Text.trimChars target
    if label.isEmpty || target.isEmpty then none else some (String.ofList label, String.ofList target)

namespace Reader

variable (src : Source)

def refuse {α : Type} (problem : Problem) (offset : Nat) : Reader α :=
  throw ⟨problem, src.loc offset, Text.sampleOf (Cursor.ofOffset src.text offset).rest⟩

/-- A problem in an expression is reported where the expression says, or else at `fallback`. -/
def script {α : Type} (fallback : Nat) (r : Except ScriptError α) : Reader α :=
  match r with
  | .ok a => pure a
  | .error e => refuse src (.script e.cause) ((e.span.map (·.start)).getD fallback)

def warn (message : String) (offset : Nat) : Reader Unit :=
  modify fun r => { r with warnings := r.warnings.push ⟨message, src.loc offset⟩ }

def pos : Reader Nat := do return (← get).cursor.pos

def rest : Reader (List Char) := do return (← get).cursor.rest

def peek? : Reader (Option Char) := do return (← get).cursor.peek?

def drop (n : Nat) : Reader Unit := modify fun r =>
  { r with cursor := r.cursor.skip n, before := (r.cursor.rest.take n).getLast?.or r.before }

def seek (offset : Nat) : Reader Unit := do drop ((← get).cursor.upTo offset).length

def takeWhile (p : Char → Bool) : Reader (List Char) := do
  let run := (← get).cursor.runWhile p
  drop run.length
  return run

def skipBlanks : Reader Unit := do
  let _ ← takeWhile isBlank

def remaining : Reader Nat := do return (← rest).length + 1

def since (start : Nat) : Reader String := do
  return String.ofList ((Cursor.ofOffset src.text start).upTo (← pos))

/-- The characters that may start markup or end a body. -/
def reservedChars : List Char := ['\\', '<', '@', '$', '_', '[', '/', '}']

def isKeyChar (c : Char) : Bool := !isBlank c && c != '=' && c != '>' && c != '/' && c != '"' && c != '\''

def isNameChar (c : Char) : Bool := isAsciiAlphanumeric c || c == '_'

def takeName : Reader String := do return String.ofList (← takeWhile isNameChar)

def flush (pending : Pending) (done : List Template) : List Template :=
  match pending with
  | none => done
  | some (start, cs) => if cs.isEmpty then done else .text (String.ofList cs.reverse) (src.loc start) :: done

def shorthands (element : String) (openAt : Nat) :
    Nat → Bindings String → List String → Reader (Bindings String × List String)
  | 0, attributes, classes => return (attributes, classes)
  | fuel + 1, attributes, classes => do
    let isPart (c : Char) : Bool := Text.isAlphanumeric c || c == '-' || c == '_'
    match ← peek? with
    | some '#' =>
      drop 1
      let id ← takeWhile isPart
      if id.isEmpty then refuse src .emptyId openAt
      else if attributes.contains "id" then
        warn src ("duplicate attribute 'id' on <" ++ element ++ ">") openAt
        shorthands element openAt fuel attributes classes
      else shorthands element openAt fuel (attributes.insert "id" (String.ofList id)) classes
    | some '.' =>
      drop 1
      let name ← takeWhile isPart
      if name.isEmpty then refuse src .emptyClass openAt
      else shorthands element openAt fuel attributes (classes ++ [String.ofList name])
    | _ => return (attributes, classes)

def attributeValue (element : String) (start : Nat) : Reader (String ⊕ ExprSource) := do
  let quotedBy (quote : Char) : Reader (String ⊕ ExprSource) := do
    drop 1
    let inner ← takeWhile (· != quote)
    if (← peek?).isNone then refuse src (.openAttribute element) start
    else
      drop 1
      return .inl (String.ofList inner)
  match ← peek? with
  | some '"' => quotedBy '"'
  | some '\'' => quotedBy '\''
  | some '(' =>
    let f ← script src start (fragment src.text ((← pos) + 1) .round)
    if f.stop != .close then refuse src .attributeBracket f.stopAt
    else if f.expr.code.isEmpty then refuse src .emptyExpression start
    else
      seek (f.stopAt + 1)
      return .inr f.expr
  | _ =>
    let value ← takeWhile fun c => !isBlank c && c != '>'
    if value.isEmpty then refuse src (.missingValue element) start else return .inl (String.ofList value)

/-- The attributes of a tag up to its end, and whether the tag closes itself. The first of several
attributes of one name counts. -/
def attributeList (element : String) (openAt : Nat) :
    Nat → Bindings String → Bindings ExprSource → Reader (Bindings String × Bindings ExprSource × Bool)
  | 0, attributes, dynamic => return (attributes, dynamic, false)
  | fuel + 1, attributes, dynamic => do
    skipBlanks
    let start ← pos
    match ← rest with
    | [] => refuse src (.openTag element) openAt
    | '>' :: _ =>
      drop 1
      return (attributes, dynamic, false)
    | '/' :: '>' :: _ =>
      drop 2
      return (attributes, dynamic, true)
    | _ =>
      let key := String.ofList (← takeWhile isKeyChar)
      if key.isEmpty then refuse src (.attribute element) start
      else
        let value ←
          if (← peek?) == some '=' then
            drop 1
            attributeValue src element start
          else pure (.inl "")
        if attributes.contains key || dynamic.contains key then
          warn src ("duplicate attribute '" ++ key ++ "' on <" ++ element ++ ">") start
          attributeList element openAt fuel attributes dynamic
        else match value with
          | .inl s => attributeList element openAt fuel (attributes.insert key s) dynamic
          | .inr e => attributeList element openAt fuel attributes (dynamic.insert key e)

def accessList : Nat → List Access → Reader (List Access)
  | 0, done => return done.reverse
  | fuel + 1, done => do
    let start ← pos
    match ← rest with
    | '.' :: c :: _ =>
      if isAsciiLetter c || c == '_' || c == '$' then
        drop 1
        let name := String.ofList (← takeWhile fun c => isNameChar c || c == '$')
        accessList fuel (.field name ("." ++ name) :: done)
      else return done.reverse
    | '[' :: '[' :: _ => return done.reverse
    | '[' :: _ =>
      let (keys, close) ← script src start (fragments src.text (start + 1) .square)
      if keys.isEmpty then refuse src .emptyIndex start
      else
        seek (close + 1)
        let indexes := keys.map fun k => Access.index k.code ("[" ++ k.raw ++ "]")
        accessList fuel (indexes.reverse ++ done)
    | '(' :: _ =>
      let (args, close) ← script src start (fragments src.text (start + 1) .round)
      seek (close + 1)
      accessList fuel (.call args (← since src start) :: done)
    | _ => return done.reverse

def link : Reader Template := do
  let start ← pos
  let inner := (← rest).drop 2
  match Text.find? [']', ']'] inner with
  | none => refuse src .openLink start
  | some n =>
    match linkParts? (inner.take n) with
    | none => refuse src .link start
    | some (label, target) =>
      drop (n + 4)
      return .link target label (src.loc start)

def iterationArgs (name : String) : Reader Args := do
  let openAt ← pos
  drop 1
  skipBlanks
  match ← rest with
  | '_' :: c :: _ =>
    if isAsciiLetter c then
      drop 1
      let binding ← takeName
      skipBlanks
      match ← rest with
      | 'o' :: 'f' :: more =>
        if more.head?.any fun c => !isBlank c then refuse src (.iterationWord name) openAt
        else
          drop 2
          let f ← script src openAt (fragment src.text (← pos) .round)
          if f.stop != .close then refuse src (.iterationSingle name) f.stopAt
          else if f.expr.code.isEmpty then refuse src (.iterationEmpty name) openAt
          else
            seek (f.stopAt + 1)
            return .iteration binding f.expr
      | _ => refuse src (.iterationWord name) openAt
    else refuse src (.iterationBinding name) openAt
  | _ => refuse src (.iterationBinding name) openAt

section Nested

variable (nested : Until → Reader (List Template))

def element : Reader Template := do
  let openAt ← pos
  drop 1
  let name := String.ofList ((← takeWhile fun c => isAsciiAlphanumeric c || c == '-').map Text.lowerAscii)
  if bannedTags.contains name then refuse src (.bannedElement name) openAt
  else
    let (ids, classes) ← shorthands src name openAt (← remaining) .empty []
    let start := if classes.isEmpty then ids else ids.insert "class" (String.intercalate " " classes)
    let (attributes, dynamic, closed) ← attributeList src name openAt (← remaining) start .empty
    let content ←
      if closed || voidTags.contains name then pure []
      else if rawTags.contains name then
        let start ← pos
        match rawText? name [] (← rest) with
        | none => refuse src (.openElement name) openAt
        | some (raw, length) =>
          drop (raw.length + length)
          pure [Template.text (String.ofList raw) (src.loc start)]
      else nested (.closeTag name openAt)
    return .element name attributes dynamic content (src.loc openAt)

def optionalBody (allowSpace : Bool) : Reader (Option (List Template)) := do
  let cs ← rest
  let blanks := if allowSpace then (cs.takeWhile fun c => c == ' ' || c == '\t').length else 0
  if (cs.drop blanks).head? == some '{' then
    drop blanks
    let openAt ← pos
    drop 1
    return some (← nested (.brace openAt))
  else return none

def segment (name : String) (iteration : Bool) (start : Nat) : Reader Segment := do
  let args ←
    if (← peek?) != some '(' then
      if iteration then refuse src (.iterationMissing name) start else pure (.list [])
    else if iteration then iterationArgs src name
    else
      let openAt ← pos
      let (args, close) ← script src openAt (fragments src.text (openAt + 1) .round)
      seek (close + 1)
      pure (.list args)
  let body ← optionalBody nested true
  return .mk name args body (src.loc start)

def sibling? (siblings : List String) (cs : List Char) : Option String :=
  match cs with
  | '@' :: more => siblings.find? fun s =>
    s.toList.isPrefixOf more && !(more.drop s.length).head?.any isNameChar
  | _ => none

def siblingSegments (siblings : List String) : Nat → List Segment → Reader (List Segment)
  | 0, done => return done.reverse
  | fuel + 1, done => do
    let cs ← rest
    let blanks := (cs.takeWhile isBlank).length
    match sibling? siblings (cs.drop blanks) with
    | none => return done.reverse
    | some name =>
      drop blanks
      let start ← pos
      drop (name.length + 1)
      let s ← segment src nested name false start
      siblingSegments siblings fuel (s :: done)

def chain (name : String) (shape : Shape) (start : Nat) : Reader Template := do
  let head ← segment src nested name shape.iteration start
  let segments ← match shape.siblings with
    | some siblings => siblingSegments src nested siblings (← remaining) [head]
    | none => pure [head]
  return .chain segments (src.loc start)

def reference (sigil : Char) : Reader Template := do
  let start ← pos
  let scope := match sigil with
    | '$' => Scope.story
    | '_' => .temp
    | _ => .constants
  drop 1
  let base ← takeName
  let plain : Reader Template := do
    let accesses ← accessList src (← remaining) []
    let body ← optionalBody nested (scope == .constants)
    return .reference scope base accesses body (src.loc start)
  match if scope == .constants then src.shape? base else none with
  | some shape => if shape.isChain then chain src nested base shape start else plain
  | none => plain

/-- The character an escape stands for after its backslash, and how many characters it takes. An
escaped line break stands for nothing. -/
def escaped : List Char → List Char × Nat
  | [] => ([], 0)
  | '\n' :: _ => ([], 1)
  | '\r' :: '\n' :: _ => ([], 2)
  | '\r' :: _ => ([], 1)
  | c :: _ => ([c], 1)

def sequence (stop : Until) : Nat → List Template → Pending → Reader (List Template)
  | 0, done, pending => return (flush src pending done).reverse
  | fuel + 1, done, pending => do
    let r ← get
    let here := r.cursor.pos
    let finish (length : Nat) : Reader (List Template) := do
      drop length
      return (flush src pending done).reverse
    let node (t : Reader Template) : Reader (List Template) := do
      let t ← t
      sequence stop fuel (t :: flush src pending done) none
    let plain (length : Nat) (cs : List Char) : Reader (List Template) := do
      drop length
      sequence stop fuel done (if cs.isEmpty then pending else pending.push here cs)
    match r.cursor.rest with
    | [] =>
      match stop with
      | .finish => finish 0
      | .brace openAt => refuse src .openBody openAt
      | .closeTag name openAt => refuse src (.openElement name) openAt
    | c :: more =>
      let closing := match stop with
        | .closeTag name _ => closingTag? name (c :: more)
        | .brace _ => if c == '}' then some 1 else none
        | .finish => none
      match closing with
      | some length => finish length
      | none =>
        if c == '<' then
          if more.head?.any isAsciiLetter then node (element src nested) else plain 1 ['<']
        else if c == '\\' then
          let (cs, length) := escaped more
          match cs.find? isAsciiAlphanumeric with
          | some d => refuse src (.illegalEscape d) here
          | none => plain (length + 1) cs
        else if startsReference r.before c more.head? then node (reference src nested c)
        else if c == '[' && more.head? == some '[' then node (link src)
        else if c == '/' && more.head? == some '*' then
          match Text.find? ['*', '/'] (more.drop 1) with
          | some n => plain (n + 4) []
          | none => refuse src .openComment here
        else if c == '/' && more.head? == some '/' && r.before.all isBlank then
          plain (1 + (more.takeWhile (· != '\n')).length) []
        else
          let run := c :: more.takeWhile fun c => !reservedChars.contains c
          plain run.length run

end Nested

def templates : Nat → Until → Reader (List Template)
  | 0, stop => refuse src (.tooDeep maxNesting) stop.openAt
  | levels + 1, stop => do sequence src (templates levels) stop (← remaining) [] none

end Reader

structure Parsed where
  templates : List Template
  warnings : List Warning

def Source.parse (src : Source) : Except ParseError Parsed := do
  let (templates, r) ← (Reader.templates src maxNesting .finish).run { cursor := Cursor.ofList src.text }
  return ⟨templates, r.warnings.toList⟩

end StoryMarkup.Markup
