import StoryMarkup.Proofs.Script.Literals
import StoryMarkup.Proofs.Script.Precedence

/-! Expression trees as they are written: strings in quotes, all parts of more than a word in
parentheses. -/
namespace StoryMarkup.Script

open Text

def assignments : List (Option CompoundOp) :=
  [none, some (.arith .add), some (.arith .sub), some (.arith .mul), some (.arith .div), some (.arith .rem),
   some (.arith .pow), some (.logical .and), some (.logical .or), some (.logical .nullish)]

structure Assignment where
  op : Option CompoundOp
  known : op ∈ assignments

mutual

inductive Tree where
  | undefined
  | null
  | bool (b : Bool)
  | number (n : Fin (Nat.pow 2 53))
  | string (s : String)
  | place (target : Tree.Target)
  | array (items : List Tree.Item)
  | object (fields : List Tree.Field)
  | optionalMember (target : Tree) (prop : Name)
  | optionalIndex (target key : Tree)
  | call (callee : Tree) (args : List Tree.Item) (optional : Bool)
  | unary (op : UnaryOp) (operand : Tree)
  | update (increment before : Bool) (target : Tree.Target)
  | joined (op : Infix) (left right : Tree)
  | conditional (test yes no : Tree)
  | assign (op : Assignment) (target : Tree.Target) (value : Tree)
  | arrow (params : List Name) (body : Tree)

inductive Tree.Target where
  | ident (x : Variable)
  | member (target : Tree) (prop : Name)
  | index (target key : Tree)

inductive Tree.Item where
  | plain (t : Tree)
  | spread (t : Tree)

inductive Tree.Field where
  | named (key : String) (value : Tree)
  | computed (key value : Tree)

end

namespace Tree

/-! The expression of a tree, without places. -/

def node (form : Form) : Expr := .mk ⟨0, 0⟩ form

mutual

@[simp]
def expr : Tree → Expr
  | .undefined => node .undefined
  | .null => node .null
  | .bool b => node (.bool b)
  | .number n => node (.number (Decimal.ofNat n.val))
  | .string s => node (.string s)
  | .place target => target.expr
  | .array items => node (.array (itemExprs items))
  | .object fields => node (.object (fieldExprs fields))
  | .optionalMember target prop => node (.member target.expr prop.text true)
  | .optionalIndex target key => node (.index target.expr key.expr true)
  | .call callee args optional => node (.call callee.expr (itemExprs args) optional)
  | .unary op operand => node (.unary op operand.expr)
  | .update increment before target => node (.update increment before target.expr)
  | .joined op left right => op.build left.expr right.expr
  | .conditional test yes no => node (.conditional test.expr yes.expr no.expr)
  | .assign op target value => node (.assign op.op target.expr value.expr)
  | .arrow params body => node (.arrow (params.map (·.text)) body.expr)

def Target.expr : Target → Expr
  | .ident x => node (.ident x.text)
  | .member target prop => node (.member target.expr prop.text false)
  | .index target key => node (.index target.expr key.expr false)

def Item.expr : Item → Expr
  | .plain t => t.expr
  | .spread t => node (.spread t.expr)

def Field.field : Field → Script.Field
  | .named key value => .named key value.expr
  | .computed key value => .computed key.expr value.expr

def itemExprs : List Item → List Expr
  | [] => []
  | x :: rest => x.expr :: itemExprs rest

def fieldExprs : List Field → List Script.Field
  | [] => []
  | x :: rest => x.field :: fieldExprs rest

end

/-! How deep a tree is: the steps from its root to the farthest part without parts. -/

mutual

@[simp]
def height : Tree → Nat
  | .undefined | .null | .bool _ | .number _ | .string _ => 0
  | .place target => target.height
  | .array items => itemsHeight items
  | .object fields => fieldsHeight fields
  | .optionalMember target _ => target.height + 1
  | .optionalIndex target key => max target.height key.height + 1
  | .call callee args _ => max (callee.height + 1) (itemsHeight args)
  | .unary _ operand => operand.height + 1
  | .update _ _ target => target.height + 1
  | .joined _ left right => max left.height right.height + 1
  | .conditional test yes no => max test.height (max yes.height no.height) + 1
  | .assign _ target value => max target.height value.height + 1
  | .arrow _ body => body.height + 1

def Target.height : Target → Nat
  | .ident _ => 0
  | .member target _ => target.height + 1
  | .index target key => max target.height key.height + 1

def Item.height : Item → Nat
  | .plain t | .spread t => t.height

def Field.height : Field → Nat
  | .named _ value => value.height
  | .computed key value => max key.height value.height

def itemsHeight : List Item → Nat
  | [] => 0
  | x :: rest => max (x.height + 1) (itemsHeight rest)

def fieldsHeight : List Field → Nat
  | [] => 0
  | x :: rest => max (x.height + 1) (fieldsHeight rest)

end

end Tree

/-! Tokens as they are written. -/

namespace WrittenToken

def name (x : String) : WrittenToken := ⟨.ident x, x.toList⟩

def sign (s : String) : WrittenToken := ⟨.op s, s.toList⟩

def opening (b : Bracket) : WrittenToken := ⟨.opening b, [b.openChar]⟩

def closing (b : Bracket) : WrittenToken := ⟨.closing b, [b.closeChar]⟩

def comma : WrittenToken := ⟨.comma, [',']⟩

def dot : WrittenToken := ⟨.dot, ['.']⟩

def escaped (c : Char) : List Char :=
  if c = '\n' then ['\\', 'n'] else if c = '\\' ∨ c = '"' then ['\\', c] else [c]

def string (s : String) : WrittenToken := ⟨.string s, '"' :: (s.toList.flatMap escaped ++ ['"'])⟩

def number (n : Nat) : WrittenToken := ⟨.number (Decimal.ofNat n), Nat.toDigits 10 n⟩

def unary : UnaryOp → WrittenToken
  | .not => sign "!"
  | .negate => sign "-"
  | .plus => sign "+"
  | .complement => sign "~"
  | .typeOf => name "typeof"
  | .void => name "void"

def update (increment : Bool) : WrittenToken := sign (if increment then "++" else "--")

def between (op : Infix) : WrittenToken := ⟨op.kind, op.sign.toList⟩

def assign (a : Assignment) : WrittenToken :=
  match a.op with
  | none => sign "="
  | some (.arith op) => sign (op.sign ++ "=")
  | some (.logical op) => sign (op.sign ++ "=")

def enclosed (atom : Bool) (tokens : List WrittenToken) : List WrittenToken :=
  if atom then tokens else opening .round :: (tokens ++ [closing .round])

def names : List Name → List WrittenToken
  | [] => []
  | [x] => [name x.text]
  | x :: rest => name x.text :: comma :: names rest

end WrittenToken

namespace Tree

def Target.isAtom : Target → Bool
  | .ident _ => true
  | _ => false

def isAtom : Tree → Bool
  | .undefined | .null | .bool _ | .number _ | .string _ => true
  | .place target => target.isAtom
  | _ => false

open WrittenToken (enclosed names)

mutual

def tokens : Tree → List WrittenToken
  | .undefined => [.name "undefined"]
  | .null => [.name "null"]
  | .bool b => [.name (if b then "true" else "false")]
  | .number n => [.number n.val]
  | .string s => [.string s]
  | .place target => target.tokens
  | .array items => .opening .square :: (itemTokens items ++ [.closing .square])
  | .object fields => .opening .curly :: (fieldTokens fields ++ [.closing .curly])
  | .optionalMember target prop => enclosed target.isAtom target.tokens ++ [.sign "?.", .name prop.text]
  | .optionalIndex target key =>
    enclosed target.isAtom target.tokens ++
      .sign "?." :: .opening .square :: (enclosed key.isAtom key.tokens ++ [.closing .square])
  | .call callee args optional =>
    enclosed callee.isAtom callee.tokens ++
      ((if optional then [.sign "?."] else []) ++ .opening .round :: (itemTokens args ++ [.closing .round]))
  | .unary op operand => .unary op :: enclosed operand.isAtom operand.tokens
  | .update increment before target =>
    if before then .update increment :: enclosed target.isAtom target.tokens
    else enclosed target.isAtom target.tokens ++ [.update increment]
  | .joined op left right => enclosed left.isAtom left.tokens ++ .between op :: enclosed right.isAtom right.tokens
  | .conditional test yes no =>
    enclosed test.isAtom test.tokens ++
      .sign "?" :: (enclosed yes.isAtom yes.tokens ++ .sign ":" :: enclosed no.isAtom no.tokens)
  | .assign op target value => enclosed target.isAtom target.tokens ++ .assign op :: enclosed value.isAtom value.tokens
  | .arrow params body =>
    .opening .round :: (names params ++ .closing .round :: .sign "=>" :: enclosed body.isAtom body.tokens)

def Target.tokens : Target → List WrittenToken
  | .ident x => [.name x.text]
  | .member target prop => enclosed target.isAtom target.tokens ++ [.dot, .name prop.text]
  | .index target key =>
    enclosed target.isAtom target.tokens ++ .opening .square :: (enclosed key.isAtom key.tokens ++ [.closing .square])

def Item.tokens : Item → List WrittenToken
  | .plain t => enclosed t.isAtom t.tokens
  | .spread t => .sign "..." :: enclosed t.isAtom t.tokens

def Field.tokens : Field → List WrittenToken
  | .named key value => .string key :: .sign ":" :: enclosed value.isAtom value.tokens
  | .computed key value =>
    .opening .square :: (enclosed key.isAtom key.tokens ++ .closing .square :: .sign ":" :: enclosed
      value.isAtom value.tokens)

def itemTokens : List Item → List WrittenToken
  | [] => []
  | [x] => x.tokens
  | x :: rest => x.tokens ++ .comma :: itemTokens rest

def fieldTokens : List Field → List WrittenToken
  | [] => []
  | [x] => x.tokens
  | x :: rest => x.tokens ++ .comma :: fieldTokens rest

end

def text (t : Tree) : List Char := spaced (t.tokens.map (·.text))

end Tree

/-! What is written is read as the tokens it was written for. -/

variable {s : String} {n : Nat} {target : Target} (b : Bracket)

namespace WrittenToken

def IsLexeme (x : WrittenToken) : Prop := ∀ p, Lexeme p x.kind x.text

lemma isLexeme_name {x : String} (hx : isIdentifier x.toList = true) : (name x).IsLexeme := (Name.mk x hx).lexeme

lemma lexeme_sign {p : Bool} (hs : operatorAt? (s.toList ++ [' ']) = some s)
    (hslash : s.toList.head? = some '/' → p = false) (hplain : opensComment (s.toList ++ [' ']) =
    false) : Lexeme p (sign s).kind (sign s).text := ⟨.op hs hslash, hplain⟩

lemma isLexeme_sign (hs : operatorAt? (s.toList ++ [' ']) = some s) (hslash : s.toList.head? ≠ some '/')
    (hplain : opensComment (s.toList ++ [' ']) = false) : (sign s).IsLexeme := fun _ =>
  lexeme_sign hs (fun h => absurd h hslash) hplain

lemma isLexeme_opening : (opening b).IsLexeme := fun _ => by
  cases b <;> exact ⟨.single (by simp [punctuation, opening, Bracket.openChar]), rfl⟩

lemma isLexeme_closing : (closing b).IsLexeme := fun _ => by
  cases b <;> exact ⟨.single (by simp [punctuation, closing, Bracket.closeChar]), rfl⟩

lemma isLexeme_comma : comma.IsLexeme := fun _ => ⟨.single (by simp [punctuation, comma]), rfl⟩

lemma isLexeme_dot : dot.IsLexeme := fun _ => ⟨.dot (by decide) (by decide), rfl⟩

lemma isLexeme_string (s : String) : (string s).IsLexeme := by
  intro p
  have htext : s.toList.flatMap escaped = spelling ['"'] (s.toList.map (·, false)) := by
    rw [spelling, List.flatMap_map]
    exact congrArg s.toList.flatMap (funext fun c => by simp [escaped, spelled])
  have hvalue : String.ofList ((s.toList.map (·, false)).map Prod.fst) = s := by simp [Function.comp_def]
  have hreads := reads_spelling (.inl rfl) (s.toList.map (·, false)) []
  rw [List.reverse_nil, List.nil_append, hvalue, ← htext] at hreads
  exact ⟨.string (.inl rfl) hreads ⟨s, rfl⟩, rfl⟩

lemma isAsciiDigit_of_mem_toDigits {c : Char} (hc : c ∈ Nat.toDigits 10 n) : isAsciiDigit c = true :=
  Nat.isDigit_of_mem_toDigits (by omega) (by omega) hc

lemma readUnsigned?_toDigits (hn : n < Nat.pow 2 53) :
    Decimal.readUnsigned? (Nat.toDigits 10 n) = some (Decimal.ofNat n) := by
  have hdigits : ∀ c ∈ Nat.toDigits 10 n, isAsciiDigit c = true := fun c => isAsciiDigit_of_mem_toDigits
  have hwhole : (Nat.toDigits 10 n ++ []).takeWhile isAsciiDigit = Nat.toDigits 10 n :=
    takeWhile_append_of_head hdigits nofun
  have hafter : (Nat.toDigits 10 n ++ []).dropWhile isAsciiDigit = [] := dropWhile_append_of_head hdigits nofun
  have hvalue : Decimal.digitsValue (Nat.toDigits 10 n) = n := Nat.ofDigitChars_ten_toDigits
  have hlength : (Nat.toDigits 10 n).length ≤ 16 := by
    refine (Nat.length_toDigits_le_iff (by omega) (by omega)).2 (Nat.lt_trans hn ?_)
    decide
  have hne : (Nat.toDigits 10 n).isEmpty = false := by simp
  rw [List.append_nil] at hwhole hafter
  simp only [Decimal.readUnsigned?, hwhole, hafter, hne, Bool.false_and, Bool.false_eq_true,
    if_false, List.append_nil, hvalue]
  by_cases hzero : n = 0
  · subst hzero
    rfl
  · have htop : ¬ ((0 : Int) + (Nat.toDigits 10 n).length > 400) := by omega
    have hbottom : ¬ ((0 : Int) + (Nat.toDigits 10 n).length < -400) := by omega
    simp only [Decimal.ofDecimal, beq_eq_false_iff_ne.2 hzero, List.length_nil, Int.ofNat_zero,
      Int.neg_zero, htop, hbottom]
    show some (Float.ofScientific (n * 1) false 0) = _
    rw [Nat.mul_one, Decimal.ofNat]

lemma isLexeme_number (hn : n < Nat.pow 2 53) : (number n).IsLexeme := by
  have hdigits : ∀ c ∈ Nat.toDigits 10 n, isAsciiDigit c = true := fun c => isAsciiDigit_of_mem_toDigits
  have hne : Nat.toDigits 10 n ≠ [] := Nat.toDigits_ne_nil
  have hhex : isHexNumeral (Nat.toDigits 10 n) = false := by
    match hcs : Nat.toDigits 10 n with
    | [] => rfl
    | [c] => simp [isHexNumeral]
    | c :: d :: cs =>
      have hd := hdigits d (by simp [hcs])
      have hletter : isHexLetter d = false := by
        simp only [isHexLetter, Bool.or_eq_false_iff, beq_eq_false_iff_ne]
        constructor
        · rintro rfl
          cases hd
        · rintro rfl
          cases hd
      simp [isHexNumeral, hletter]
  have hstarts : startsNumber (Nat.toDigits 10 n ++ [' ']) = true := by
    cases hcs : Nat.toDigits 10 n with
    | nil => exact absurd hcs hne
    | cons c cs => simp [startsNumber, hdigits c (by simp [hcs])]
  have hwhole : numeral (Nat.toDigits 10 n ++ [' ']) = Nat.toDigits 10 n := by
    rw [numeral, isHexNumeral_append hne (by rintro _ ⟨⟩; decide), hhex]
    have hdecimal : decimalNumeral (Nat.toDigits 10 n ++ ([] ++ [' '])) = Nat.toDigits 10 n ++ [] ++ [] :=
      decimalNumeral_append hdigits (by rintro _ ⟨⟩; decide) rfl
    simpa using hdecimal
  have hreads : numeralValue? (Nat.toDigits 10 n) = some (Decimal.ofNat n) := by
    rw [numeralValue?, hhex]
    exact readUnsigned?_toDigits hn
  exact (NumberText.mk _ _ hstarts hwhole hreads).lexeme

lemma isLexeme_unary (op : UnaryOp) : (unary op).IsLexeme := by
  cases op with
  | typeOf | void => exact isLexeme_name (by decide)
  | _ => exact isLexeme_sign (by decide) (by decide) (by decide)

lemma isLexeme_update (increment : Bool) : (update increment).IsLexeme := by
  cases increment <;> exact isLexeme_sign (by decide) (by decide) (by decide)

lemma lexeme_assign (a : Assignment) : Lexeme false (assign a).kind (assign a).text := by
  obtain ⟨op, hop⟩ := a
  simp only [assignments, List.mem_cons, List.not_mem_nil, or_false] at hop
  obtain rfl | rfl | rfl | rfl | rfl | rfl | rfl | rfl | rfl | rfl := hop <;> exact lexeme_sign
    (by decide) (fun _ => rfl) (by decide)

def Legible (tokens : List WrittenToken) : Prop := ∀ p, ∃ q, Lexemes p tokens q

def Rounded (tokens : List WrittenToken) : Prop := ∀ p, Lexemes p tokens false

namespace Legible

variable {x : WrittenToken} {xs ys : List WrittenToken}

lemma nil : Legible [] := fun p => ⟨p, .nil⟩

lemma cons (hx : x.IsLexeme) (hxs : Legible xs) : Legible (x :: xs) := fun p =>
  let ⟨q, hq⟩ := hxs x.kind.allowsPattern
  ⟨q, .cons (hx p) hq⟩

lemma append (hxs : Legible xs) (hys : Legible ys) : Legible (xs ++ ys) := fun p =>
  let ⟨q, hq⟩ := hxs p
  let ⟨r, hr⟩ := hys q
  ⟨r, hq.append hr⟩

lemma append_cons (hxs : Rounded xs) (hx : Lexeme false x.kind x.text) (hys : Legible ys) :
    Legible (xs ++ x :: ys) := fun p =>
  let ⟨q, hq⟩ := hys x.kind.allowsPattern
  ⟨q, (hxs p).append (.cons hx hq)⟩

end Legible

lemma Rounded.legible {xs : List WrittenToken} (h : Rounded xs) : Legible xs := fun p => ⟨false, h p⟩

lemma Rounded.single {x : WrittenToken} (hx : x.IsLexeme)
    (hpattern : x.kind.allowsPattern = false) : Rounded [x] :=
  fun p => .cons (hx p) (hpattern ▸ .nil)

lemma rounded_enclosed {atom : Bool} {tokens : List WrittenToken} (htokens : Legible tokens)
    (hatom : atom = true → Rounded tokens) : Rounded (enclosed atom tokens) := by
  intro p
  unfold enclosed
  split
  · rename_i h
    exact hatom h p
  · obtain ⟨q, hq⟩ := htokens (opening .round).kind.allowsPattern
    exact .cons (isLexeme_opening .round p) (hq.append (.cons (isLexeme_closing .round q) .nil))

lemma legible_names : (params : List Name) → Legible (names params)
  | [] => .nil
  | [x] => .cons x.lexeme .nil
  | x :: y :: rest => .cons x.lexeme (.cons isLexeme_comma (legible_names (y :: rest)))

end WrittenToken

namespace Tree

open WrittenToken

lemma Target.rounded_of_isAtom (h : target.isAtom = true) : Rounded target.tokens := by
  match target with
  | .ident x => exact .single x.lexeme (by simpa [WrittenToken.name, TokenKind.allowsPattern] using x.notLeading)

lemma rounded_of_isAtom {t : Tree} (h : t.isAtom = true) : Rounded t.tokens := by
  match t with
  | .undefined => exact .single (isLexeme_name (by decide)) rfl
  | .null => exact .single (isLexeme_name (by decide)) rfl
  | .bool true => exact .single (isLexeme_name (by decide)) rfl
  | .bool false => exact .single (isLexeme_name (by decide)) rfl
  | .number n => exact .single (isLexeme_number n.isLt) rfl
  | .string s => exact .single (isLexeme_string s) rfl
  | .place target => exact Target.rounded_of_isAtom h

lemma rounded {t : Tree} (h : Legible t.tokens) : Rounded (enclosed t.isAtom t.tokens) :=
  rounded_enclosed h rounded_of_isAtom

lemma Target.rounded (h : Legible target.tokens) : Rounded (enclosed target.isAtom target.tokens) :=
  rounded_enclosed h Target.rounded_of_isAtom

lemma isLexeme_access : (WrittenToken.sign "?.").IsLexeme := isLexeme_sign (by decide) (by decide) (by decide)

lemma isLexeme_colon : (WrittenToken.sign ":").IsLexeme := isLexeme_sign (by decide) (by decide) (by decide)

mutual

theorem legible : (t : Tree) → Legible t.tokens
  | .undefined | .null | .bool _ | .number _ | .string _ => (rounded_of_isAtom rfl).legible
  | .place target => target.legible
  | .array items => .cons (isLexeme_opening _) (.append (legible_itemTokens items) (.cons (isLexeme_closing _) .nil))
  | .object fields =>
    .cons (isLexeme_opening _) (.append (legible_fieldTokens fields) (.cons (isLexeme_closing _) .nil))
  | .optionalMember target prop =>
    .append (rounded target.legible).legible (.cons isLexeme_access (.cons prop.lexeme .nil))
  | .optionalIndex target key =>
    .append (rounded target.legible).legible (.cons isLexeme_access (.cons (isLexeme_opening _)
      (.append (rounded key.legible).legible (.cons (isLexeme_closing _) .nil))))
  | .call callee args optional => by
    have hargs := Legible.cons (isLexeme_opening .round) (.append (legible_itemTokens args)
      (.cons (isLexeme_closing .round) .nil))
    refine .append (rounded callee.legible).legible (.append ?_ hargs)
    cases optional with
    | false => exact .nil
    | true => exact .cons isLexeme_access .nil
  | .unary op operand => .cons (isLexeme_unary op) (rounded operand.legible).legible
  | .update increment before target => by
    have htarget := (Target.rounded target.legible).legible
    cases before with
    | true => exact .cons (isLexeme_update increment) htarget
    | false => exact .append htarget (.cons (isLexeme_update increment) .nil)
  | .joined op left right => .append_cons (rounded left.legible) op.lexeme (rounded right.legible).legible
  | .conditional test yes no =>
    .append (rounded test.legible).legible (.cons (isLexeme_sign (by decide) (by decide) (by decide))
      (.append (rounded yes.legible).legible (.cons isLexeme_colon (rounded no.legible).legible)))
  | .assign op target value =>
    .append_cons (Target.rounded target.legible) (lexeme_assign op) (rounded value.legible).legible
  | .arrow params body =>
    .cons (isLexeme_opening _) (.append (legible_names params) (.cons (isLexeme_closing _)
      (.cons (isLexeme_sign (by decide) (by decide) (by decide)) (rounded body.legible).legible)))

theorem Target.legible : (target : Target) → Legible target.tokens
  | .ident _ => (Target.rounded_of_isAtom rfl).legible
  | .member target prop => .append (rounded target.legible).legible (.cons isLexeme_dot (.cons prop.lexeme .nil))
  | .index target key =>
    .append (rounded target.legible).legible (.cons (isLexeme_opening _)
      (.append (rounded key.legible).legible (.cons (isLexeme_closing _) .nil)))

theorem Item.legible : (item : Item) → Legible item.tokens
  | .plain t => (rounded t.legible).legible
  | .spread t => .cons (isLexeme_sign (by decide) (by decide) (by decide)) (rounded t.legible).legible

theorem Field.legible : (field : Field) → Legible field.tokens
  | .named key value => .cons (isLexeme_string key) (.cons isLexeme_colon (rounded value.legible).legible)
  | .computed key value =>
    .cons (isLexeme_opening _) (.append (rounded key.legible).legible (.cons (isLexeme_closing _)
      (.cons isLexeme_colon (rounded value.legible).legible)))

theorem legible_itemTokens : (items : List Item) → Legible (itemTokens items)
  | [] => .nil
  | [x] => x.legible
  | x :: y :: rest => .append x.legible (.cons isLexeme_comma (legible_itemTokens (y :: rest)))

theorem legible_fieldTokens : (fields : List Field) → Legible (fieldTokens fields)
  | [] => .nil
  | [x] => x.legible
  | x :: y :: rest => .append x.legible (.cons isLexeme_comma (legible_fieldTokens (y :: rest)))

end

end Tree
end StoryMarkup.Script
