import StoryMarkup.Proofs.Script.TokenRuns

/-! Precedence: the binding powers of the parser group by the operator that binds least. -/
namespace StoryMarkup.Script

open List Text

/-! Operands and operators. -/

def reservedWords : List String := ["true", "false", "null", "undefined", "typeof", "void", "in"]

def isIdentifier : List Char → Bool
  | [] => false
  | c :: cs => isIdentStart c && cs.all isIdentPart

structure Name where
  text : String
  valid : isIdentifier text.toList = true

structure Variable extends Name where
  unreserved : text ∉ reservedWords
  notLeading : text ∉ leadingWords

structure NumberText where
  text : List Char
  value : Float
  starts : startsNumber (text ++ [' ']) = true
  whole : numeral (text ++ [' ']) = text
  reads : numeralValue? text = some value

inductive Operand where
  | number (x : NumberText)
  | ident (x : Variable)

inductive Infix where
  | binary (op : BinaryOp)
  | logical (op : LogicalOp)
deriving DecidableEq

def BinaryOp.sign : BinaryOp → String
  | .add => "+"
  | .sub => "-"
  | .mul => "*"
  | .div => "/"
  | .rem => "%"
  | .pow => "**"
  | .eq => "=="
  | .notEq => "!="
  | .strictEq => "==="
  | .strictNotEq => "!=="
  | .lt => "<"
  | .ltEq => "<="
  | .gt => ">"
  | .gtEq => ">="
  | .member => "in"
  | .bitAnd => "&"
  | .bitOr => "|"
  | .bitXor => "^"

def LogicalOp.sign : LogicalOp → String
  | .and => "&&"
  | .or => "||"
  | .nullish => "??"

namespace Operand

def kind : Operand → TokenKind
  | .number x => .number x.value
  | .ident x => .ident x.text

def text : Operand → List Char
  | .number x => x.text
  | .ident x => x.text.toList

def tree : Operand → Expr
  | .number x => .mk ⟨0, 0⟩ (.number x.value)
  | .ident x => .mk ⟨0, 0⟩ (.ident x.text)

end Operand

namespace Infix

def sign : Infix → String
  | .binary op => op.sign
  | .logical op => op.sign

def kind : Infix → TokenKind
  | .binary .member => .ident "in"
  | op => .op op.sign

def joiner : Infix → Joiner
  | .binary op => .binary op
  | .logical op => .logical op

def build (op : Infix) (left right : Expr) : Expr :=
  match op with
  | .binary op => .mk ⟨0, 0⟩ (.binary op left right)
  | .logical op => .mk ⟨0, 0⟩ (.logical op left right)

def rank : Infix → Nat
  | .logical .nullish => 0
  | .logical .or => 1
  | .logical .and => 2
  | .binary .bitOr => 3
  | .binary .bitXor => 4
  | .binary .bitAnd => 5
  | .binary .eq | .binary .notEq | .binary .strictEq | .binary .strictNotEq => 6
  | .binary .lt | .binary .ltEq | .binary .gt | .binary .gtEq | .binary .member => 7
  | .binary .add | .binary .sub => 8
  | .binary .mul | .binary .div | .binary .rem => 9
  | .binary .pow => 10

def isPower (op : Infix) : Bool := op == .binary .pow

lemma rank_le (op : Infix) : op.rank ≤ 10 := by
  match op with
  | .binary op => cases op <;> decide
  | .logical op => cases op <;> decide

lemma isPower_iff (op : Infix) : op.isPower = true ↔ op.rank = 10 := by
  match op with
  | .binary op => cases op <;> decide
  | .logical op => cases op <;> decide

end Infix

/-! The grouping of a sequence. -/

abbrev Links := List (Infix × Operand)

/-- An operator that binds least, with what stands before it and behind it: the last such one, or
the first if it is a power. -/
def weakest : Links → Option (Links × (Infix × Operand) × Links)
  | [] => none
  | x :: rest =>
    match weakest rest with
    | none => some ([], x, rest)
    | some (before, y, after) =>
      if x.1.rank < y.1.rank ∨ x.1.rank = y.1.rank ∧ x.1.isPower then some ([], x, rest) else some
        (x :: before, y, after)

variable {before after : Links} (first : Operand)

lemma eq_of_weakest {links : Links} {y : Infix × Operand}
    (h : weakest links = some (before, y, after)) : links = before ++ y :: after := by
  induction links generalizing before y after with
  | nil => cases h
  | cons x rest ih =>
    rw [weakest] at h
    cases hrest : weakest rest with
    | none =>
      rw [hrest] at h
      cases h
      rfl
    | some r =>
      obtain ⟨before', y', after'⟩ := r
      simp only [hrest] at h
      split at h
      · cases h
        rfl
      · cases h
        rw [ih hrest]
        rfl

def grouped (first : Operand) (links : Links) : Expr :=
  match _h : weakest links with
  | none => first.tree
  | some (before, (op, second), after) => op.build (grouped first before) (grouped second after)
termination_by links.length
decreasing_by
  all_goals
    rw [eq_of_weakest _h, length_append, length_cons]
    omega

lemma grouped_nil : grouped first [] = first.tree := by
  rw [grouped]
  rfl

variable {op : Infix} {second : Operand} {others done mine later : Links} {least floor : Nat} (links : Links)

section Weakest

variable (second) (hbefore : ∀ x ∈ before, op.rank ≤ x.1.rank) (hafter : ∀ x ∈ after, op.rank ≤ x.1.rank)
  (htie : if op.isPower then ∀ x ∈ before, op.rank ≠ x.1.rank else ∀ x ∈ after, op.rank ≠ x.1.rank)
include hbefore hafter htie

lemma weakest_eq : weakest (before ++ (op, second) :: after) = some (before, (op, second), after) := by
  induction before with
  | nil =>
    rw [nil_append, weakest]
    cases hweakest : weakest after with
    | none => rfl
    | some r =>
      obtain ⟨left, y, right⟩ := r
      have hy : y ∈ after := by simp [eq_of_weakest hweakest]
      have hle := hafter y hy
      dsimp only
      rw [if_pos]
      by_cases hpower : op.isPower = true
      · by_cases heq : op.rank = y.1.rank
        · exact .inr ⟨heq, hpower⟩
        · exact .inl (by omega)
      · rw [if_neg hpower] at htie
        have hne := htie y hy
        exact .inl (by omega)
  | cons x before ih =>
    have hx := hbefore x mem_cons_self
    have hrest := ih (fun y hy => hbefore y (mem_cons_of_mem x hy)) (by
      by_cases hpower : op.isPower = true
      · rw [if_pos hpower] at htie ⊢
        exact fun y hy => htie y (mem_cons_of_mem x hy)
      · rwa [if_neg hpower] at htie ⊢)
    rw [cons_append, weakest, hrest]
    dsimp only
    rw [if_neg]
    rintro (hlt | ⟨heq, hpower⟩)
    · omega
    · -- an operator of the same rank as a power is a power
      have hop : op.isPower = true := by rw [Infix.isPower_iff, ← heq, ← Infix.isPower_iff, hpower]
      rw [if_pos hop] at htie
      exact htie x mem_cons_self heq.symm

lemma grouped_split :
    grouped first (before ++ (op, second) :: after) = op.build (grouped first before) (grouped second after) := by
  have hweakest := weakest_eq second hbefore hafter htie
  conv => lhs; rw [grouped]
  split
  · rename_i hnone
    rw [hweakest] at hnone
    cases hnone
  · rename_i hsome
    rw [hweakest] at hsome
    cases hsome
    rfl

end Weakest

/-! Binding powers. -/

namespace Infix

def power : Infix → Power
  | .logical .nullish => .nullish
  | .logical .or => .or
  | .logical .and => .and
  | .binary .bitOr => .bitOr
  | .binary .bitXor => .bitXor
  | .binary .bitAnd => .bitAnd
  | .binary .eq | .binary .notEq | .binary .strictEq | .binary .strictNotEq => .equality
  | .binary .lt | .binary .ltEq | .binary .gt | .binary .gtEq | .binary .member => .relation
  | .binary .add | .binary .sub => .sum
  | .binary .mul | .binary .div | .binary .rem => .product
  | .binary .pow => .power

lemma joiner?_kind (op : Infix) : joiner? op.kind = some (op.power, op.joiner) := by
  match op with
  | .binary op => cases op <;> rfl
  | .logical op => cases op <;> rfl

def leftPower (rank : Nat) : Nat := if rank < 8 then 7 + 2 * rank else if rank =
    8 then 25 else if rank = 9 then 27 else 30

lemma left_power (op : Infix) : op.power.left = leftPower op.rank := by
  match op with
  | .binary op => cases op <;> rfl
  | .logical op => cases op <;> rfl

lemma right_power (op : Infix) : op.power.right = if op.rank = 10 then 29 else leftPower op.rank + 1 := by
  match op with
  | .binary op => cases op <;> rfl
  | .logical op => cases op <;> rfl

def floorBehind (op : Infix) : Nat := if op.rank = 10 then 10 else op.rank + 1

end Infix

def AsksFor (least floor : Nat) : Prop := ∀ op : Infix, least ≤ op.power.left ↔ floor ≤ op.rank

lemma asksFor_zero : AsksFor 0 0 := fun _ => by simp

lemma Infix.asksFor_right (op : Infix) : AsksFor op.power.right op.floorBehind := by
  intro other
  have hop := op.rank_le
  have hother := other.rank_le
  rw [Infix.left_power, Infix.right_power, Infix.floorBehind, Infix.leftPower, Infix.leftPower]
  repeat' split
  all_goals omega

namespace Links

def kinds (links : Links) : List TokenKind := links.flatMap fun x => [x.1.kind, x.2.kind]

def powers (links : Links) : Nat := links.countP fun x => x.1.isPower

lemma kinds_cons (op : Infix) (second : Operand) (links : Links) :
    kinds ((op, second) :: links) = op.kind :: second.kind :: links.kinds := rfl

lemma kinds_append (links' : Links) : kinds (links ++ links') = links.kinds ++ links'.kinds := flatMap_append

lemma length_le_kinds : links.length ≤ links.kinds.length := by
  induction links with
  | nil => exact le_rfl
  | cons x links ih =>
    rw [kinds_cons]
    simp only [length_cons]
    omega

lemma stops_kinds (hfloor : AsksFor least floor) (hothers : ∀ x ∈ others.head?, x.1.rank < floor) :
    (others.kinds.headD .eof).Stops least := by
  cases others with
  | nil => exact TokenKind.stops_of_joiner? rfl rfl rfl least
  | cons x others =>
    obtain ⟨hupdates, haccesses, -⟩ := TokenKind.only_joins x.1.joiner?_kind
    refine ⟨hupdates, haccesses, fun power joiner hjoiner => ?_⟩
    have hpower : x.1.power = power := by
      have h := x.1.joiner?_kind.symm.trans hjoiner
      rw [Option.some.injEq, Prod.mk.injEq] at h
      exact h.1
    have hrank := hothers x rfl
    rw [← hpower]
    apply Nat.lt_of_not_le
    rw [hfloor x.1]
    omega

end Links

/-! Reading a sequence. -/

section Reading

variable {src : List Char} {may : Prop} {rest : List TokenKind}

lemma Operand.takes (sub : Nat → Parser Expr) (first : Operand) (harrow : (rest.headD .eof).isOp "=>" = false) :
    Parser.Takes may [first.kind] rest (operand src sub) fun e => e.bare = first.tree := by
  cases first with
  | number x =>
    refine Parser.Takes.next fun span => ?_
    exact .pure rfl
  | ident x =>
    refine Parser.Takes.next fun span => ?_
    have hnot := x.unreserved
    have hname : named sub x.text span = do
        let token ← Parser.peek
        if token.kind.isOp "=>" then
          let _ ← Parser.next
          arrowBody sub [x.text] span
        else return .mk span (.ident x.text) := by
      unfold named
      split <;> simp_all [reservedWords]
    show Parser.Takes may [] rest (named sub x.text span) _
    rw [hname]
    refine .peek fun _ => ?_
    simp only [nil_append, harrow, Bool.false_eq_true, if_false]
    exact .pure rfl

lemma Infix.takes_joined {sub : Nat → Parser Expr} {taken : List TokenKind} {left : Expr}
    {tree tree' : Expr} (op : Infix)
    (hleft : left.bare = tree) (h : Parser.Takes may taken rest (sub op.power.right) fun e => e.bare = tree') :
    Parser.Takes may taken rest (joined src sub op.power op.joiner left) fun e => e.bare = op.build tree tree' := by
  cases op with
  | binary op | logical op =>
    refine h.bind_pure fun right hright => .pure ?_
    rw [Expr.bare, Form.bare, hleft, hright, Infix.build]

/-- Where the links `todo` come after the links `done`, the first of them does not bind tighter than
any of these. -/
def Descends (done todo : Links) : Prop :=
  ∀ x ∈ todo.head?, (∀ y ∈ done, x.1.rank ≤ y.1.rank) ∧ (x.1.rank = 10 → done = [])

lemma Descends.step (h : Descends done ((op, second) :: (mine ++ later)))
    (hmine : ∀ x ∈ mine, op.floorBehind ≤ x.1.rank) (hlater : ∀ x ∈ later.head?,
    x.1.rank < op.floorBehind) : Descends (done ++ (op, second) :: mine) later := by
  intro x hx
  have hlt := hlater x hx
  have hop := op.rank_le
  have hle : x.1.rank ≤ op.rank ∧ x.1.rank < 10 := by
    rw [Infix.floorBehind] at hlt
    split at hlt <;> omega
  refine ⟨fun y hy => ?_, by omega⟩
  obtain hy | hy := mem_append.1 hy
  · have hdone : op.rank ≤ y.1.rank := (h _ rfl).1 y hy
    omega
  · obtain rfl | hy := mem_cons.1 hy
    · exact hle.1
    · have hfloor := hmine y hy
      omega

lemma Descends.grouped_eq {first : Operand} (h : Descends done ((op, second) :: (mine ++ later)))
    (hmine : ∀ x ∈ mine, op.floorBehind ≤ x.1.rank) :
    grouped first (done ++ (op, second) :: mine) = op.build (grouped first done) (grouped second mine) := by
  obtain ⟨hdone, hpower⟩ : (∀ y ∈ done, op.rank ≤ y.1.rank) ∧ (op.rank = 10 → done = []) := h _ rfl
  apply grouped_split first second hdone
  · intro x hx
    have hfloor := hmine x hx
    rw [Infix.floorBehind] at hfloor
    split at hfloor <;> omega
  · by_cases hop : op.isPower = true
    · rw [if_pos hop, hpower (op.isPower_iff.1 hop)]
      nofun
    · rw [if_neg hop]
      intro x hx
      have hfloor := hmine x hx
      rw [Infix.floorBehind, if_neg fun h => hop (op.isPower_iff.2 h)] at hfloor
      omega

def Groups (levels : Nat) (sub : Nat → Parser Expr) : Prop :=
  ∀ {least floor : Nat} (first : Operand) (links others : Links), AsksFor least floor →
    (∀ x ∈ links, floor ≤ x.1.rank) → (∀ x ∈ others.head?, x.1.rank < floor) →
      Parser.Takes (levels ≤ (10 - floor) + links.powers) (first.kind :: links.kinds) others.kinds
        (sub least) fun e => e.bare = grouped first links

variable {levels : Nat} {sub : Nat → Parser Expr} (hsub : Groups levels sub)
include hsub

lemma Groups.takes_operators (hfloor : AsksFor least floor) {first : Operand}
    (hothers : ∀ x ∈ others.head?, x.1.rank < floor) (n : Nat) :
    ∀ {todo done : Links} {left : Expr} {fuel : Nat}, todo.length ≤ n → todo.length < fuel →
      (∀ x ∈ todo, floor ≤ x.1.rank) →
      Descends done todo → left.bare = grouped first done → (levels + 1 ≤ (10 - floor) + todo.powers → may) →
      Parser.Takes may todo.kinds others.kinds (operatorsAfter src sub least fuel left)
        fun e => e.bare = grouped first (done ++ todo) := by
  induction n with
  | zero =>
    intro todo done left fuel hn _ _ _ hleft _
    obtain rfl : todo = [] := eq_nil_of_length_eq_zero (by omega)
    rw [append_nil]
    exact .operators_stop (Links.stops_kinds hfloor hothers) hleft
  | succ n ih =>
    intro todo done left fuel hn hfuel hranks hdescends hleft hmay
    cases todo with
    | nil =>
      rw [append_nil]
      exact .operators_stop (Links.stops_kinds hfloor hothers) hleft
    | cons x more =>
      obtain ⟨op, second⟩ := x
      obtain _ | fuel := fuel
      · omega
      have hop : floor ≤ op.rank := hranks _ mem_cons_self
      -- what the right operand takes, and what is left for this one
      obtain ⟨mine, later, rfl, hmine, hlater⟩ : ∃ mine later : Links, more = mine ++ later ∧
          (∀ x ∈ mine, op.floorBehind ≤ x.1.rank) ∧ ∀ x ∈ later.head?, x.1.rank < op.floorBehind := by
        let takes (x : Infix × Operand) : Bool := decide (op.floorBehind ≤ x.1.rank)
        refine ⟨more.takeWhile takes, more.dropWhile takes, takeWhile_append_dropWhile.symm,
          fun x hx => ?_, fun x hx => ?_⟩
        · exact of_decide_eq_true (all_eq_true.1 all_takeWhile x hx)
        · have hnot := head?_dropWhile_not takes more
          rw [Option.mem_def.1 hx] at hnot
          exact Nat.lt_of_not_le (of_decide_eq_false (by simpa using hnot : takes x = false))
      have hbehind : ∀ x ∈ (later ++ others).head?, x.1.rank < op.floorBehind := by
        cases later with
        | cons y later => exact hlater
        | nil =>
          intro x hx
          have hlt := hothers x hx
          have hle := op.rank_le
          rw [Infix.floorBehind]
          split <;> omega
      have hpowers : Links.powers ((op, second) :: (mine ++ later)) =
          mine.powers + later.powers + if op.rank = 10 then 1 else 0 := by
        simp [Links.powers, countP_cons, op.isPower_iff]
      rw [hpowers] at hmay
      have hright : Parser.Takes may (second.kind :: mine.kinds) (later.kinds ++ others.kinds)
          (sub op.power.right) fun e => e.bare = grouped second mine := by
        rw [← Links.kinds_append]
        refine (hsub second mine (later ++ others) op.asksFor_right hmine hbehind).mono
          (fun hlevels => hmay ?_) fun _ h => h
        have hle := op.rank_le
        rw [Infix.floorBehind] at hlevels
        split at hlevels <;> split <;> omega
      rw [Links.kinds_cons, Links.kinds_append, ← cons_append]
      refine .operators_join op.joiner?_kind ((hfloor op).2 hop) ?_
      refine (op.takes_joined hleft hright).bind fun e he => ?_
      have hlength : (mine ++ later).length + 1 ≤ n + 1 := hn
      rw [length_append] at hlength
      have hnext : done ++ (op, second) :: (mine ++ later) = (done ++ (op, second) :: mine) ++ later := by simp
      rw [hnext]
      refine ih (by omega) ?_ (fun x hx => hranks x ?_) (hdescends.step hmine hlater) ?_ fun hlevels => hmay (by omega)
      · rw [length_cons, length_append] at hfuel
        omega
      · exact mem_cons_of_mem _ (mem_append_right _ hx)
      · rw [he, hdescends.grouped_eq hmine]

omit hsub in
lemma groups_expression (src : List Char) (levels : Nat) : Groups levels (expression src levels) := by
  induction levels with
  | zero =>
    intro least floor first links others _ _ _
    refine .of_error (Nat.zero_le _) fun feed => ?_
    obtain ⟨lexer, ahead⟩ := feed
    cases ahead <;> exact ⟨_, rfl⟩
  | succ levels ih =>
    intro least floor first links others hfloor hranks hothers
    have harrow : ((links.kinds ++ others.kinds).headD .eof).isOp "=>" = false := by
      rw [← Links.kinds_append]
      cases links ++ others with
      | nil => rfl
      | cons x rest => exact (TokenKind.only_joins x.1.joiner?_kind).2.2
    rw [← singleton_append, expression]
    refine (first.takes _ harrow).bind fun left hleft => .remaining fun fuel hfuel => ?_
    have hlength : links.length < fuel := by
      have hle := links.length_le_kinds
      rw [length_append] at hfuel
      omega
    show Parser.Takes _ _ _ _ fun e : Expr => e.bare = grouped first ([] ++ links)
    exact ih.takes_operators hfloor hothers links.length le_rfl hlength hranks
      (fun _ _ => ⟨nofun, fun _ => rfl⟩) (hleft.trans (grouped_nil first).symm) id

end Reading

/-! Sequences as texts. -/

lemma Name.lexeme (x : Name) (p : Bool) : Lexeme p (.ident x.text) x.text.toList := by
  have hvalid := x.valid
  cases htext : x.text.toList with
  | nil => simp [htext, isIdentifier] at hvalid
  | cons c cs =>
    rw [htext, isIdentifier, Bool.and_eq_true] at hvalid
    have hword : Word p (.ident (String.ofList (c :: cs))) (c :: cs) [' '] :=
      .ident hvalid.1 (all_eq_true.1 hvalid.2) (by rintro _ ⟨⟩; decide)
    rw [← htext, String.ofList_toList, htext] at hword
    exact ⟨hword, opensComment_of_startsName hvalid.1⟩

lemma NumberText.lexeme (x : NumberText) (p : Bool) : Lexeme p (.number x.value) x.text := by
  have hne : x.text ≠ [] := by
    rw [← x.whole]
    exact numeral_ne_nil x.starts
  refine ⟨.number x.starts hne x.whole x.reads, ?_⟩
  have hstarts := x.starts
  unfold opensComment
  split
  · rename_i heq
    rw [heq] at hstarts
    cases hstarts
  · rename_i heq
    rw [heq] at hstarts
    cases hstarts
  · rfl

lemma Operand.lexeme (p : Bool) : Lexeme p first.kind first.text := by
  cases first with
  | number x | ident x => exact x.lexeme p

lemma Operand.allowsPattern : first.kind.allowsPattern = false := by
  cases first with
  | number x => rfl
  | ident x => simpa [Operand.kind, TokenKind.allowsPattern] using x.notLeading

lemma Infix.lexeme (op : Infix) : Lexeme false op.kind op.sign.toList := by
  have hop : ∀ sign : String, operatorAt? (sign.toList ++ [' ']) = some sign →
      opensComment (sign.toList ++ [' ']) = false →
      Lexeme false (.op sign) sign.toList := fun sign hsign hplain => ⟨.op hsign fun _ => rfl, hplain⟩
  match op with
  | .logical op => cases op <;> exact hop _ (by decide) (by decide)
  | .binary op =>
    cases op with
    | member => exact Name.lexeme ⟨"in", by decide⟩ false
    | _ => exact hop _ (by decide) (by decide)

structure Sequence where
  first : Operand
  links : Links

namespace Sequence

def words (s : Sequence) : List (List Char) := s.first.text :: s.links.flatMap fun x => [x.1.sign.toList, x.2.text]

def tree (s : Sequence) : Expr := grouped s.first s.links

def tokens (s : Sequence) : List WrittenToken :=
  ⟨s.first.kind, s.first.text⟩ :: s.links.flatMap fun x => [⟨x.1.kind, x.1.sign.toList⟩, ⟨x.2.kind, x.2.text⟩]

lemma lexemes_links :
    Lexemes false (links.flatMap fun x => [⟨x.1.kind, x.1.sign.toList⟩, ⟨x.2.kind, x.2.text⟩]) false := by
  induction links with
  | nil => exact .nil
  | cons x links ih =>
    refine .cons x.1.lexeme (.cons (x.2.lexeme _) ?_)
    rw [x.2.allowsPattern]
    exact ih

lemma spells (s : Sequence) {text : List Char} (htext : Spaced s.words text) :
    Lexer.Spells ⟨⟨0, text⟩, true⟩ (s.first.kind :: s.links.kinds) := by
  have hwords : s.tokens.map (·.text) = s.words := by simp [tokens, words, map_flatMap]
  have hkinds : s.tokens.map (·.kind) = s.first.kind :: s.links.kinds := by simp [tokens, Links.kinds, map_flatMap]
  have hlexemes : Lexemes true s.tokens false := by
    refine .cons (s.first.lexeme true) ?_
    rw [s.first.allowsPattern]
    exact lexemes_links s.links
  rw [← hkinds]
  exact hlexemes.spells (hwords ▸ htext) 0

end Sequence

/-- A sequence of operands and operators, set apart by blanks, is read as the tree that splits it at
the operator that binds least, and its sides likewise; nothing else can come of it. With fewer than
40 powers it does not nest too deep to be read. -/
theorem sequence_parsed_by_precedence (s : Sequence) {text : List Char} (htext : Spaced s.words text) :
    (∀ e, Expr.parse text = .ok e → e.bare = s.tree) ∧ (s.links.powers < 40 → ∃ e, Expr.parse text = .ok e) := by
  have htakes : Parser.Takes (maxNesting ≤ (10 - 0) + s.links.powers)
      (s.first.kind :: s.links.kinds) [] (expression text maxNesting 0) fun e => e.bare = s.tree :=
    groups_expression text maxNesting s.first s.links [] asksFor_zero (fun _ _ => Nat.zero_le _) nofun
  obtain ⟨e, he, htree⟩ | ⟨hdeep, e, he⟩ := Expr.parse_of_takes htakes (s.spells htext)
  · refine ⟨fun e' he' => ?_, fun _ => ⟨e, he⟩⟩
    rw [he] at he'
    cases he'
    exact htree
  · refine ⟨fun e' he' => ?_, fun hpowers => ?_⟩
    · rw [he] at he'
      cases he'
    · have hnesting : maxNesting = 64 := rfl
      omega

/-- Differences are grouped from the left, powers from the right, and both after what binds
tighter. -/
theorem difference_of_powers_parsed : let a : Operand := .ident ⟨⟨"a", by decide⟩, by decide, by decide⟩
    let two : Operand := .number ⟨['2'], Decimal.ofNat 2, rfl, by decide, rfl⟩
    let minus : Infix := .binary .sub
    let power : Infix := .binary .pow
    let s : Sequence := ⟨a, [(minus, two), (power, a), (power, two), (minus, a)]⟩
    Spaced s.words "a - 2 ** a ** 2 - a".toList ∧
      s.tree = minus.build (minus.build a.tree (power.build two.tree (power.build a.tree two.tree)))
      a.tree ∧ ∃ e, Expr.parse "a - 2 ** a ** 2 - a".toList = .ok e ∧ e.bare = s.tree := by
  intro a two minus power s
  have hwords : spaced s.words = "a - 2 ** a ** 2 - a".toList := by decide
  have htext := hwords ▸ spaced_spaced s.words
  obtain ⟨htree, hread⟩ := sequence_parsed_by_precedence s htext
  obtain ⟨e, he⟩ := hread (by decide)
  refine ⟨htext, ?_, e, he, htree e he⟩
  simp [s, Sequence.tree, grouped, weakest, minus, power, Infix.rank, Infix.isPower]

end StoryMarkup.Script
