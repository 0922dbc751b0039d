import StoryMarkup.Proofs.Script.Trees

/-! A tree that has been written is parsed back to itself, each part from its own tokens and no
more. -/
namespace StoryMarkup.Script

open List Form

open StoryMarkup.Script.Parser (Takes)
variable {kind : TokenKind} {t : Tree} {P : Expr → Prop} {more : List TokenKind} {target : Target} {lx : Lexer}
  {value key : Tree} {args : List Item} (close : Bracket) (items : List Item)

/-! Parameters of arrow functions, which the parser looks for behind every parenthesis. -/

def startsNoParams : List TokenKind → Bool
  | .closing .round :: _ | .ident _ :: .comma :: _ | .ident _ :: .closing .round :: _ => false
  | _ => true

lemma arrowNames_eq_none {kinds : List TokenKind} (h : lx.Spells kinds) (hkinds : startsNoParams kinds = true)
    (fuel : Nat) (names : List String) : arrowNames fuel names lx = none := by
  cases fuel with
  | zero => rfl
  | succ fuel =>
    cases h with
    | nil hnext => simp [arrowNames, hnext]
    | @cons _ after _ kind kinds hnext _ hrest =>
      rw [arrowNames, hnext]
      cases kind with
      | ident x =>
        obtain ⟨span, after', hafter⟩ := hrest.next_eq
        dsimp only
        rw [hafter]
        cases kinds with
        | nil => rfl
        | cons k more =>
          cases k with
          | comma => cases hkinds
          | closing b =>
            cases b with
            | round => cases hkinds
            | _ => rfl
          | _ => rfl
      | closing b =>
        cases b with
        | round => cases hkinds
        | _ => rfl
      | _ => rfl

lemma arrow_eq_some {kinds : List TokenKind} (names : List String) (h : lx.Spells (.op "=>" :: kinds)) :
    ∃ lx', arrowNames.arrow names lx = some (names.reverse, lx') ∧ lx'.Spells kinds := by
  obtain ⟨span, after, hnext, hafter⟩ := h.uncons
  exact ⟨after, by simp [arrowNames.arrow, hnext, TokenKind.isOp], hafter⟩

def kindsOf (tokens : List WrittenToken) : List TokenKind := tokens.map (·.kind)

lemma kindsOf_append (xs ys : List WrittenToken) : kindsOf (xs ++ ys) = kindsOf xs ++ kindsOf ys := map_append

lemma kindsOf_cons (x : WrittenToken) (xs : List WrittenToken) : kindsOf (x :: xs) = x.kind :: kindsOf xs := rfl

lemma arrowNames_eq_some (params : List Name) : ∀ {lx : Lexer} {kinds : List TokenKind} (x : Name)
    (fuel : Nat) (names : List String), params.length < fuel →
    lx.Spells (kindsOf (WrittenToken.names (x :: params)) ++ .closing .round :: .op "=>" :: kinds) →
    ∃ lx', arrowNames fuel names lx = some (names.reverse ++ (x :: params).map (·.text), lx') ∧ lx'.Spells kinds := by
  induction params with
  | nil =>
    intro lx kinds x fuel names hfuel h
    obtain _ | fuel := fuel
    · omega
    obtain ⟨_, after, hnext, h⟩ := h.uncons
    obtain ⟨_, after', hnext', h⟩ := h.uncons
    obtain ⟨lx', harrow, h⟩ := arrow_eq_some (x.text :: names) h
    refine ⟨lx', ?_, h⟩
    simp [arrowNames, hnext, hnext', WrittenToken.name, harrow]
  | cons y params ih =>
    intro lx kinds x fuel names hfuel h
    obtain _ | fuel := fuel
    · omega
    obtain ⟨_, after, hnext, h⟩ := h.uncons
    obtain ⟨_, after', hnext', h⟩ := h.uncons
    obtain ⟨lx', hnames, h⟩ := ih y fuel (x.text :: names) (by simp at hfuel; omega) h
    refine ⟨lx', ?_, h⟩
    simp [arrowNames, hnext, hnext', WrittenToken.name, WrittenToken.comma, hnames]

lemma length_le_names : (params : List Name) → params.length ≤ (kindsOf (WrittenToken.names params)).length
  | [] => le_rfl
  | [x] => le_rfl
  | x :: y :: rest => by
    have h := length_le_names (y :: rest)
    have hnames : kindsOf (WrittenToken.names (x :: y :: rest)) =
      .ident x.text :: .comma :: kindsOf (WrittenToken.names (y :: rest)) :=
      rfl
    rw [hnames]
    simp only [length_cons] at h ⊢
    omega

namespace Parser.Takes

variable {β : Type} {may : Prop} {taken rest : List TokenKind} {Q : β → Prop} {q : Option (List String) → Parser β}

lemma no_arrowParams (hkinds : startsNoParams (taken ++ rest) = true)
    (hq : Takes may taken rest (q none) Q) : Takes may taken rest (Script.arrowParams >>= q) Q := by
  refine bind_ok taken fun feed hfeed => ⟨none, feed, ?_, hfeed, hq⟩
  rw [Script.arrowParams, arrowNames_eq_none hfeed.lexer hkinds]

lemma arrowParams {params : List Name} (hq : Takes may taken rest (q (some (params.map (·.text)))) Q) :
    Takes may (kindsOf (WrittenToken.names params) ++ .closing .round :: .op "=>" :: taken) rest
      (Script.arrowParams >>= q) Q := by
  refine bind_ok taken fun feed hfeed => ?_
  have hspells : feed.lexer.Spells (kindsOf (WrittenToken.names params) ++ .closing .round :: .op
    "=>" :: (taken ++ rest)) := by
    simpa using hfeed.lexer
  obtain ⟨lx, hsome, hlx⟩ : ∃ lx, arrowNames (feed.lexer.cursor.rest.length + 1) [] feed.lexer =
      some (params.map (·.text), lx) ∧ lx.Spells (taken ++ rest) := by
    cases params with
    | nil =>
      obtain ⟨_, after, hnext, hafter⟩ := hspells.uncons
      obtain ⟨lx, harrow, hlx⟩ := arrow_eq_some [] hafter
      exact ⟨lx, by simp [arrowNames, hnext, harrow], hlx⟩
    | cons x params =>
      have hlength := hspells.length_le
      have hparams := length_le_names (x :: params)
      rw [length_append, length_cons] at hlength
      rw [length_cons] at hparams
      exact arrowNames_eq_some params x _ [] (by omega) hspells
  exact ⟨some (params.map (·.text)), ⟨lx, none⟩, by rw [Script.arrowParams, hsome], ⟨hlx, nofun⟩, hq⟩

end Parser.Takes

/-! Parts of a tree. -/

def TokenKind.halts (kind : TokenKind) : Bool := kind.ends || kind.isOp ":"

lemma TokenKind.halts_iff :
    kind.halts = true ↔ kind = .eof ∨ kind = .comma ∨ (∃ b, kind = .closing b) ∨ kind = .op ":" := by
  rw [TokenKind.halts, Bool.or_eq_true, TokenKind.ends_iff, TokenKind.isOp_iff, or_assoc, or_assoc]

lemma TokenKind.stops_of_halts (h : kind.halts = true) (least : Nat) : kind.Stops least := by
  obtain rfl | rfl | ⟨b, rfl⟩ | rfl := TokenKind.halts_iff.1 h <;> exact TokenKind.stops_of_joiner? rfl rfl rfl least

lemma TokenKind.isOp_arrow_of_halts (h : kind.halts = true) : kind.isOp "=>" = false := by
  obtain rfl | rfl | ⟨b, rfl⟩ | rfl := TokenKind.halts_iff.1 h <;> rfl

def TokenKind.opensPart : TokenKind → Bool
  | .ident _ | .number _ | .string _ | .opening .round => true
  | _ => false

lemma TokenKind.isOp_of_opensPart (h : kind.opensPart = true) (sign : String) : kind.isOp sign = false := by
  cases kind with
  | op => cases h
  | _ => rfl

lemma TokenKind.isClosing_of_opensPart (h : kind.opensPart = true) (b : Bracket) : kind.isClosing b = false := by
  cases kind with
  | closing => cases h
  | _ => rfl

namespace Tree

def kinds (t : Tree) : List TokenKind := kindsOf t.tokens

def partKinds (t : Tree) : List TokenKind := kindsOf (WrittenToken.enclosed t.isAtom t.tokens)

def itemKinds (items : List Item) : List TokenKind := kindsOf (itemTokens items)

def fieldKinds (fields : List Field) : List TokenKind := kindsOf (fieldTokens fields)

def layout : Tree → List TokenKind
  | .undefined => [.ident "undefined"]
  | .null => [.ident "null"]
  | .bool b => [.ident (if b then "true" else "false")]
  | .number n => [.number (Decimal.ofNat n.val)]
  | .string s => [.string s]
  | .place (.ident x) => [.ident x.text]
  | .place (.member target prop) => target.partKinds ++ [.dot, .ident prop.text]
  | .place (.index target key) => target.partKinds ++ .opening .square :: (key.partKinds ++ [.closing .square])
  | .array items => .opening .square :: (itemKinds items ++ [.closing .square])
  | .object fields => .opening .curly :: (fieldKinds fields ++ [.closing .curly])
  | .optionalMember target prop => target.partKinds ++ [.op "?.", .ident prop.text]
  | .optionalIndex target key =>
    target.partKinds ++ .op "?." :: .opening .square :: (key.partKinds ++ [.closing .square])
  | .call callee args false => callee.partKinds ++ .opening .round :: (itemKinds args ++ [.closing .round])
  | .call callee args true => callee.partKinds ++ .op "?." :: .opening .round :: (itemKinds args ++ [.closing .round])
  | .unary op operand => (WrittenToken.unary op).kind :: operand.partKinds
  | .update increment true target => (WrittenToken.update increment).kind :: (place target).partKinds
  | .update increment false target => (place target).partKinds ++ [(WrittenToken.update increment).kind]
  | .joined op left right => left.partKinds ++ op.kind :: right.partKinds
  | .conditional test yes no => test.partKinds ++ .op "?" :: (yes.partKinds ++ .op ":" :: no.partKinds)
  | .assign op target value => (place target).partKinds ++ (WrittenToken.assign op).kind :: value.partKinds
  | .arrow params body =>
    .opening .round :: (kindsOf (WrittenToken.names params) ++ .closing .round :: .op "=>" :: body.partKinds)

lemma kinds_eq_layout (t : Tree) : t.kinds = t.layout := by
  unfold layout
  split <;> simp [kinds, tokens, Target.tokens, kindsOf, partKinds, itemKinds, fieldKinds,
    WrittenToken.name, WrittenToken.number,
    WrittenToken.string, WrittenToken.dot, WrittenToken.opening, WrittenToken.closing,
      WrittenToken.sign, WrittenToken.between, isAtom]

lemma partKinds_of_isAtom (h : t.isAtom = true) : t.partKinds = t.kinds := by
  rw [partKinds, WrittenToken.enclosed, if_pos h, kinds]

lemma partKinds_of_not_isAtom (h : t.isAtom = false) :
    t.partKinds = .opening .round :: (t.kinds ++ [.closing .round]) := by
  rw [partKinds, WrittenToken.enclosed, h, if_neg Bool.false_ne_true, kindsOf_cons, kindsOf_append, kinds]
  rfl

lemma partKinds_eq_cons (t : Tree) : ∃ kind more, t.partKinds = kind :: more ∧ kind.opensPart =
    true ∧ (kind = .opening .round ∨ more = []) := by
  by_cases h : t.isAtom = true
  · rw [partKinds_of_isAtom h]
    match t with
    | .undefined | .null | .bool _ | .number _ | .string _ | .place (.ident _) => exact ⟨_, [], rfl, rfl, .inr rfl⟩
  · rw [partKinds_of_not_isAtom (Bool.eq_false_iff.2 h)]
    exact ⟨_, _, rfl, rfl, .inl rfl⟩

lemma startsNoParams_partKinds (t : Tree) (hcomma : kind.isComma = false) (hclosing : kind.isClosing .round = false)
    (more : List TokenKind) : startsNoParams (t.partKinds ++ kind :: more) = true := by
  obtain ⟨first, others, heq, hopens, hround⟩ := t.partKinds_eq_cons
  rw [heq]
  obtain rfl | rfl := hround
  · rfl
  · cases first with
    | closing => cases hopens
    | ident x =>
      cases kind with
      | comma => cases hcomma
      | closing b =>
        cases b with
        | round => cases hclosing
        | _ => rfl
      | _ => rfl
    | _ => rfl

lemma joiner?_assign (a : Assignment) : joiner? (WrittenToken.assign a).kind = some (.assign, .assign a.op) := by
  obtain ⟨op, hop⟩ := a
  simp only [assignments, mem_cons, not_mem_nil, or_false] at hop
  obtain rfl | rfl | rfl | rfl | rfl | rfl | rfl | rfl | rfl | rfl := hop <;> rfl

lemma startsNoParams_kinds (h : t.isAtom = false) (rest : List TokenKind) :
    startsNoParams (t.kinds ++ rest) = true := by
  have hjoiner : ∀ {kind r}, joiner? kind = some r → kind.isComma = false ∧ kind.isClosing .round = false := by
    intro kind r hr
    cases kind with
    | comma | closing => cases hr
    | _ => exact ⟨rfl, rfl⟩
  rw [kinds_eq_layout]
  match t with
  | .array _ | .object _ | .arrow .. => rfl
  | .update increment true _ => cases increment <;> rfl
  | .unary op operand =>
    obtain ⟨first, others, heq, hopens, -⟩ := operand.partKinds_eq_cons
    rw [layout, heq]
    cases op with
    | typeOf | void =>
      cases first with
      | comma | closing => cases hopens
      | _ => rfl
    | _ => rfl
  | .update increment false target =>
    rw [layout, append_assoc]
    cases increment <;> exact startsNoParams_partKinds _ (by rfl) (by rfl) _
  | .joined op left right =>
    obtain ⟨hcomma, hclosing⟩ := hjoiner op.joiner?_kind
    rw [layout, append_assoc]
    exact startsNoParams_partKinds left hcomma hclosing _
  | .assign op target value =>
    obtain ⟨hcomma, hclosing⟩ := hjoiner (joiner?_assign op)
    rw [layout, append_assoc]
    exact startsNoParams_partKinds _ hcomma hclosing _
  | .place (.member part _) | .place (.index part _) | .optionalMember part _ | .optionalIndex part
      _ | .call part _ false
  | .call part _ true | .conditional part _ _ =>
    rw [layout, append_assoc]
    exact startsNoParams_partKinds part (by rfl) (by rfl) _

/-! Reading a tree. -/

def Readable (src : List Char) (t : Tree) : Prop :=
  ∀ (levels : Nat) (rest : List TokenKind), 2 * t.height + 1 ≤ levels → (rest.headD .eof).halts =
    true → Takes False t.kinds rest (expression src levels 0) fun e => e.bare = t.expr

section Parts

variable {src : List Char} {levels least : Nat} {rest : List TokenKind}

lemma takes_atom (h : t.isAtom = true) (harrow : (rest.headD .eof).isOp "=>" = false) (sub : Nat → Parser Expr) :
    Takes False t.kinds rest (operand src sub) fun e => e.bare = t.expr := by
  rw [kinds_eq_layout]
  match t with
  | .undefined | .null | .bool true | .bool false | .number _ | .string _ => exact .next fun _ => .pure rfl
  | .place (.ident x) => exact Operand.takes sub (.ident x) harrow

lemma Readable.takes_operand (ht : Readable src t) (hlevels : 2 * t.height + 1 ≤ levels)
    (harrow : (rest.headD .eof).isOp "=>" = false) :
    Takes False t.partKinds rest (operand src (expression src levels)) fun e => e.bare = t.expr := by
  by_cases hatom : t.isAtom = true
  · rw [partKinds_of_isAtom hatom]
    exact takes_atom hatom harrow _
  · have hnot := Bool.eq_false_iff.2 hatom
    rw [partKinds_of_not_isAtom hnot]
    refine .next fun _ => ?_
    refine .no_arrowParams ?_ ?_
    · rw [append_assoc]
      exact startsNoParams_kinds hnot _
    · refine (ht levels _ hlevels rfl).bind fun inner hinner => ?_
      refine .expect rfl fun _ => .pure ?_
      obtain ⟨span, form⟩ := inner
      exact hinner

lemma takes_of_operand {taken : List TokenKind}
    (h : Takes False taken rest (operand src (expression src levels)) P) (hstops : (rest.headD .eof).Stops least) :
    Takes False taken rest (expression src (levels + 1) least) P := by
  rw [expression]
  exact h.bind_pure fun left hleft => .remaining fun _ _ => .operators_stop hstops hleft

lemma Readable.takes_part (ht : Readable src t) (hlevels : 2 * t.height + 2 ≤ levels)
    (hstops : (rest.headD .eof).Stops least) (harrow : (rest.headD .eof).isOp "=>" = false) :
    Takes False t.partKinds rest (expression src levels least) fun e => e.bare = t.expr := by
  obtain _ | levels := levels
  · omega
  exact takes_of_operand (ht.takes_operand (by omega) harrow) hstops

lemma Readable.takes_last (ht : Readable src t) (hlevels : 2 * t.height + 2 ≤ levels)
    (hrest : (rest.headD .eof).halts = true) :
    Takes False t.partKinds rest (expression src levels least) fun e => e.bare = t.expr :=
  ht.takes_part hlevels (TokenKind.stops_of_halts hrest _) (TokenKind.isOp_arrow_of_halts hrest)

lemma Readable.takes_before (ht : Readable src t) (hlevels : 2 * t.height + 1 ≤ levels)
    (harrow : kind.isOp "=>" = false) (h : ∀ fuel (left : Expr), left.bare = t.expr →
      Takes False (kind :: more) rest (operatorsAfter src (expression src levels) 0 (fuel + 1) left) P) :
    Takes False (t.partKinds ++ kind :: more) rest (expression src (levels + 1) 0) P := by
  rw [expression]
  refine (ht.takes_operand hlevels (by exact harrow)).bind fun left hleft => .remaining fun fuel hfuel => ?_
  obtain _ | fuel := fuel
  · omega
  exact h fuel left hleft

lemma Readable.takes_join (ht : Readable src t) (hlevels : 2 * t.height + 1 ≤ levels) {power : Power}
    {joiner : Joiner} (hjoiner : joiner? kind = some (power, joiner))
    (hrest : (rest.headD .eof).halts = true) (h : ∀ left : Expr, left.bare = t.expr →
      Takes False more rest (Script.joined src (expression src levels) power joiner left) P) :
    Takes False (t.partKinds ++ kind :: more) rest (expression src (levels + 1) 0) P := by
  refine ht.takes_before hlevels (TokenKind.only_joins hjoiner).2.2 fun fuel left hleft => ?_
  refine .operators_join hjoiner (Nat.zero_le _) ?_
  exact (h left hleft).bind_pure fun e he => .operators_stop (TokenKind.stops_of_halts hrest 0) he

lemma Readable.takes_access (ht : Readable src t) (hlevels : 2 * t.height + 1 ≤ levels)
    (haccesses : kind.accesses = true) (harrow : kind.isOp "=>" = false)
    (hrest : (rest.headD .eof).halts = true) (h : ∀ left : Expr, left.bare = t.expr →
      Takes False (kind :: more) rest (accessAfter src (expression src levels) left) P) :
    Takes False (t.partKinds ++ kind :: more) rest (expression src (levels + 1) 0) P := by
  refine ht.takes_before hlevels harrow fun fuel left hleft => .operators_access haccesses (Nat.zero_le _) ?_
  exact (h left hleft).bind_pure fun e he => .operators_stop (TokenKind.stops_of_halts hrest 0) he

end Parts

/-! Lists of items and of fields. -/

def Item.tree : Item → Tree
  | .plain t | .spread t => t

def Field.Readable (src : List Char) : Field → Prop
  | .named _ value => value.Readable src
  | .computed key value => key.Readable src ∧ value.Readable src

def Item.kinds (item : Item) : List TokenKind := kindsOf item.tokens

def Field.kinds (field : Field) : List TokenKind := kindsOf field.tokens

lemma itemKinds_cons (x y : Item) (items : List Item) : itemKinds (x :: y :: items) =
    x.kinds ++ .comma :: itemKinds (y :: items) := by
  rw [itemKinds, itemTokens, kindsOf_append]
  · rfl
  · exact nofun

lemma fieldKinds_cons (x y : Field) (fields : List Field) :
    fieldKinds (x :: y :: fields) = x.kinds ++ .comma :: fieldKinds (y :: fields) := by
  rw [fieldKinds, fieldTokens, kindsOf_append]
  · rfl
  · exact nofun

section Lists

variable {src : List Char} {levels : Nat} {rest : List TokenKind}

lemma Item.takes {item : Item} (h : item.tree.Readable src) (hlevels : 2 * item.height + 2 ≤ levels)
    (hrest : (rest.headD .eof).halts = true) :
    Takes False item.kinds rest (listItem (expression src levels)) fun e => e.bare = item.expr := by
  cases item with
  | plain t =>
    obtain ⟨first, others, heq, hopens, -⟩ := t.partKinds_eq_cons
    have hspread : ((t.partKinds ++ rest).headD .eof).isOp "..." = false := by
      rw [heq]
      exact TokenKind.isOp_of_opensPart hopens "..."
    refine .peek fun _ => ?_
    have hkinds : (Item.plain t).kinds = t.partKinds := rfl
    simp only [hkinds, hspread, Bool.false_eq_true, if_false]
    exact h.takes_last hlevels hrest
  | spread t =>
    have hkinds : (Item.spread t).kinds = .op "..." :: t.partKinds := rfl
    rw [hkinds]
    refine .peek fun _ => ?_
    refine .next fun _ => ?_
    refine (h.takes_last hlevels hrest).bind_pure fun inner hinner => .pure ?_
    rw [Expr.bare, bare, hinner]
    rfl

lemma Item.kinds_eq_cons (item : Item) : ∃ kind more, item.kinds = kind :: more ∧ ∀ b, kind.isClosing b = false := by
  cases item with
  | plain t =>
    obtain ⟨first, others, heq, hopens, -⟩ := t.partKinds_eq_cons
    exact ⟨first, others, heq, TokenKind.isClosing_of_opensPart hopens⟩
  | spread t => exact ⟨_, _, rfl, fun _ => rfl⟩

lemma takes_listItems (hitems : ∀ x ∈ items, x.tree.Readable src) :
    ∀ {fuel : Nat} {done : List Expr}, items.length ≤ fuel → 2 * itemsHeight items ≤ levels →
      Takes False (itemKinds items) (.closing close :: rest) (listItems (expression src levels) close fuel done)
        fun es => es.map Expr.bare = done.reverse.map Expr.bare ++ itemExprs items := by
  induction items with
  | nil =>
    intro fuel done _ _
    rw [itemExprs, append_nil]
    cases fuel with
    | zero => exact .pure rfl
    | succ fuel =>
      refine .peek fun _ => ?_
      have hclosing : (TokenKind.closing close).isClosing close = true := TokenKind.isClosing_iff.2 rfl
      simp only [itemKinds, itemTokens, kindsOf, map_nil, nil_append, headD_cons, hclosing, if_true]
      exact .pure rfl
  | cons x items ih =>
    intro fuel done hfuel hlevels
    rw [length_cons] at hfuel
    rw [itemsHeight] at hlevels
    obtain _ | fuel := fuel
    · omega
    obtain ⟨first, others, hx, hclosing⟩ := x.kinds_eq_cons
    have hreadable := hitems x mem_cons_self
    have hdone : ∀ (item : Expr), item.bare = x.expr →
        (item :: done).reverse.map Expr.bare = done.reverse.map Expr.bare ++ [x.expr] := by
      intro item hitem
      simp [hitem]
    cases items with
    | nil =>
      have hkinds : itemKinds [x] = x.kinds := rfl
      rw [hkinds]
      refine .peek fun _ => ?_
      simp only [hx, cons_append, headD_cons, hclosing, Bool.false_eq_true, if_false]
      rw [← hx]
      refine (Item.takes hreadable (by omega) rfl).bind_pure fun item hitem => ?_
      exact .no_comma rfl (.pure (hdone item hitem))
    | cons y items =>
      rw [itemKinds_cons]
      refine .peek fun _ => ?_
      simp only [hx, cons_append, headD_cons, hclosing, Bool.false_eq_true, if_false]
      rw [← cons_append, ← hx]
      refine (Item.takes hreadable (by omega) (by rfl)).bind fun item hitem => .eatComma ?_
      refine (ih (fun z hz => hitems z (mem_cons_of_mem x hz)) (by omega) (by omega)).mono id fun es hes => ?_
      rw [hes, hdone item hitem, append_assoc]
      rfl

lemma length_le_itemKinds : items.length ≤ (itemKinds items).length := by
  induction items with
  | nil => exact le_rfl
  | cons x items ih =>
    cases items with
    | nil =>
      obtain ⟨first, others, hx, -⟩ := x.kinds_eq_cons
      have hkinds : itemKinds [x] = x.kinds := rfl
      rw [hkinds, hx]
      exact Nat.succ_le_succ (Nat.zero_le _)
    | cons y items =>
      rw [itemKinds_cons, length_append]
      simp only [length_cons] at ih ⊢
      omega

lemma takes_bracketed {items : List Item} (hitems : ∀ x ∈ items, x.tree.Readable src)
    (hlevels : 2 * itemsHeight items ≤ levels) :
    Takes False (itemKinds items ++ [.closing close]) rest (bracketed src (expression src levels)
      close) fun r => Expr.bareAll r.1 = itemExprs items := by
  refine .remaining fun fuel hfuel => ?_
  have hlength := length_le_itemKinds items
  rw [append_assoc, length_append] at hfuel
  have hclosing : (TokenKind.closing close).isClosing close = true := TokenKind.isClosing_iff.2 rfl
  refine (takes_listItems close items hitems (by omega) hlevels).bind fun es hes => ?_
  refine .expect hclosing fun _ => .pure ?_
  rw [Expr.bareAll_eq_map, hes]
  rfl

lemma takes_fieldValue (h : value.Readable src) (hlevels : 2 * value.height + 2 ≤ levels)
    (hrest : (rest.headD .eof).halts = true) :
    Takes False (.op ":" :: value.partKinds) rest (fieldValue src (expression src levels)) fun e =>
      e.bare = value.expr :=
  .expect rfl fun _ => h.takes_last hlevels hrest

lemma Field.takes {α : Type} {field : Field} {closed : Token → Parser α}
    {q : Script.Field → Parser α}
    {Q : α → Prop} (h : field.Readable src) (hlevels : 2 * field.height + 2 ≤ levels)
    (hmore : ((more ++ rest).headD .eof).halts = true) (hq : ∀ f, f.bare = field.field →
      Takes False more rest (q f) Q) :
    Takes False (field.kinds ++ more) rest (do
      let token ← Parser.next
      if token.kind.isClosing .curly then closed token
      else
        let f ← objectField src (expression src levels) token
        q f) Q := by
  cases field with
  | named key value =>
    refine .next fun _ => ?_
    refine Takes.bind (P := fun f : Script.Field => f.bare = .named key value.expr) ?_ hq
    refine (takes_fieldValue h hlevels hmore).bind_pure fun e he => .pure ?_
    rw [Field.bare, he]
  | computed key value =>
    obtain ⟨hkey, hvalue⟩ := h
    have hmax : 2 * max key.height value.height + 2 ≤ levels := hlevels
    have hkinds : (Field.computed key value).kinds =
        .opening .square :: (key.partKinds ++ .closing .square :: .op ":" :: value.partKinds) := by
      rw [Field.kinds, Field.tokens, kindsOf_cons, kindsOf_append]
      rfl
    rw [hkinds]
    refine .next fun _ => ?_
    refine Takes.bind (P := fun f : Script.Field => f.bare = .computed key.expr value.expr) ?_ hq
    refine (hkey.takes_last (by omega) (by rfl)).bind fun k hk => .expect rfl fun _ => ?_
    refine (takes_fieldValue hvalue (by omega) hmore).bind_pure fun e he => .pure ?_
    rw [Field.bare, hk, he]

lemma takes_objectFields (start : Text.Span) (fields : List Field) (hfields : ∀ x ∈ fields, x.Readable src) :
    ∀ {fuel : Nat} {done : List Script.Field}, fields.length < fuel → 2 * fieldsHeight fields ≤ levels →
      Takes False (fieldKinds fields ++ [.closing .curly]) rest
        (objectFields src (expression src levels) start fuel done)
        fun e => e.bare = node (.object (done.reverse.map Field.bare ++ fieldExprs fields)) := by
  induction fields with
  | nil =>
    intro fuel done hfuel _
    obtain _ | fuel := fuel
    · omega
    refine .next fun _ => .pure ?_
    rw [Expr.bare, bare, Field.bareAll_eq_map, fieldExprs, append_nil, node]
  | cons x fields ih =>
    intro fuel done hfuel hlevels
    rw [length_cons] at hfuel
    rw [fieldsHeight] at hlevels
    obtain _ | fuel := fuel
    · omega
    have hreadable := hfields x mem_cons_self
    have hdone : ∀ (field : Script.Field), field.bare = x.field →
        (field :: done).reverse.map Field.bare = done.reverse.map Field.bare ++ [x.field] := by
      intro field hfield
      simp [hfield]
    cases fields with
    | nil =>
      have hkinds : fieldKinds [x] = x.kinds := rfl
      rw [hkinds]
      refine Field.takes hreadable (by omega) rfl fun field hfield => ?_
      refine .no_comma rfl (.expect rfl fun _ => .pure ?_)
      rw [Expr.bare, bare, Field.bareAll_eq_map, hdone field hfield]
      rfl
    | cons y fields =>
      rw [fieldKinds_cons, append_assoc]
      refine Field.takes hreadable (by omega) rfl fun field hfield => .eatComma ?_
      refine (ih (fun z hz => hfields z (mem_cons_of_mem x hz)) (by omega) (by omega)).mono id fun e he => ?_
      rw [he, hdone field hfield, append_assoc]
      rfl

lemma length_le_fieldKinds : (fields : List Field) → fields.length ≤ (fieldKinds fields).length
  | [] => le_rfl
  | [.named ..] | [.computed ..] => Nat.succ_le_succ (Nat.zero_le _)
  | x :: y :: fields => by
    have h := length_le_fieldKinds (y :: fields)
    rw [fieldKinds_cons, length_append]
    simp only [length_cons] at h ⊢
    omega

end Lists

/-! One constructor at a time. -/

section Constructors

variable {src : List Char}

lemma readable_of_layout {n : Nat} (h : ∀ levels rest, 2 * n ≤ levels → (rest.headD .eof).halts =
      true → Takes False t.layout rest (expression src (levels + 1) 0) fun e => e.bare = t.expr)
    (hheight : t.height = n := by rw [height]) : t.Readable src := by
  subst hheight
  intro levels rest hlevels hrest
  obtain _ | levels := levels
  · omega
  rw [kinds_eq_layout]
  exact h levels rest (by omega) hrest

lemma readable_of_isAtom (h : t.isAtom = true) : t.Readable src := by
  intro levels rest hlevels hrest
  obtain _ | levels := levels
  · omega
  exact takes_of_operand (takes_atom h (TokenKind.isOp_arrow_of_halts hrest) _) (TokenKind.stops_of_halts hrest 0)

lemma readable_array {items : List Item} (h : ∀ x ∈ items, x.tree.Readable src) : (array items).Readable src := by
  refine readable_of_layout fun levels rest hlevels hrest => ?_
  refine takes_of_operand (.next fun _ => ?_) (TokenKind.stops_of_halts hrest 0)
  refine (takes_bracketed .square h hlevels).bind_pure fun r hr => .pure ?_
  rw [Expr.bare, bare, hr]
  rfl

lemma readable_object {fields : List Field} (h : ∀ x ∈ fields, x.Readable src) :
    (object fields).Readable src := by
  refine readable_of_layout fun levels rest hlevels hrest => ?_
  refine takes_of_operand (.next fun span => .remaining fun fuel hfuel => ?_) (TokenKind.stops_of_halts hrest 0)
  have hlength := length_le_fieldKinds fields
  rw [append_assoc, length_append] at hfuel
  exact takes_objectFields span fields h (by omega) hlevels

/-! Accesses, with a question mark or without one. -/

section Accesses

variable {levels : Nat} {rest : List TokenKind} {left : Expr} (optional : Bool)

lemma takes_property (sub : Nat → Parser Expr) (prop : Name) :
    Takes False [.ident prop.text] rest (selected src sub left optional .dot)
      fun e => e.bare = node (.member left.bare prop.text optional) :=
  .next fun _ => .pure rfl

lemma Readable.takes_key (h : key.Readable src) (hlevels : 2 * key.height + 2 ≤ levels) :
    Takes False (key.partKinds ++ [.closing .square]) rest
      (selected src (expression src levels) left optional (.opening .square))
      fun e => e.bare = node (.index left.bare key.expr optional) := by
  refine (h.takes_last hlevels (by rfl)).bind fun e he => .expect rfl fun _ => .pure ?_
  rw [Expr.bare, bare, he, node]

lemma takes_args (hargs : ∀ x ∈ args, x.tree.Readable src) (hlevels : 2 * itemsHeight args ≤ levels) :
    Takes False (itemKinds args ++ [.closing .round]) rest
      (selected src (expression src levels) left optional (.opening .round))
      fun e => e.bare = node (.call left.bare (itemExprs args) optional) := by
  refine (takes_bracketed .round hargs hlevels).bind_pure fun r hr => .pure ?_
  rw [Expr.bare, bare, hr, node]

end Accesses

lemma readable_member {target : Tree} (h : target.Readable src) (prop : Name) :
    (place (.member target prop)).Readable src := by
  refine readable_of_layout (n := target.height + 1) (fun levels rest hlevels hrest => ?_) rfl
  refine h.takes_access (by omega) rfl rfl hrest fun left hleft => .next fun _ => ?_
  rw [expr, Target.expr, ← hleft]
  exact takes_property false (expression src levels) prop

lemma readable_optionalMember {target : Tree} (h : target.Readable src) (prop : Name) :
    (optionalMember target prop).Readable src := by
  refine readable_of_layout fun levels rest hlevels hrest => ?_
  refine h.takes_access (by omega) rfl rfl hrest fun left hleft => .next fun _ => .peek fun _ => ?_
  rw [expr, ← hleft]
  exact takes_property true (expression src levels) prop

lemma readable_index {target : Tree} (htarget : target.Readable src) (hkey : key.Readable src) :
    (place (.index target key)).Readable src := by
  refine readable_of_layout (n := max target.height key.height + 1) (fun levels rest hlevels hrest => ?_) rfl
  refine htarget.takes_access (by omega) rfl rfl hrest fun left hleft => .next fun _ => ?_
  rw [expr, Target.expr, ← hleft]
  exact hkey.takes_key false (by omega)

lemma readable_optionalIndex {target : Tree} (htarget : target.Readable src)
    (hkey : key.Readable src) : (optionalIndex target key).Readable src := by
  refine readable_of_layout fun levels rest hlevels hrest => ?_
  refine htarget.takes_access (by omega) rfl rfl hrest fun left hleft => .next fun _ => .peek fun _ => .next fun _ => ?_
  rw [expr, ← hleft]
  exact hkey.takes_key true (by omega)

lemma readable_call {callee : Tree} (hcallee : callee.Readable src) (hargs : ∀ x ∈ args, x.tree.Readable src)
    (optional : Bool) : (call callee args optional).Readable src := by
  refine readable_of_layout fun levels rest hlevels hrest => ?_
  cases optional with
  | false =>
    refine hcallee.takes_access (by omega) rfl rfl hrest fun left hleft => .next fun _ => ?_
    rw [expr, ← hleft]
    exact takes_args false hargs (by omega)
  | true =>
    refine hcallee.takes_access (by omega) rfl rfl hrest fun left hleft => .next fun _ =>
      .peek fun _ => .next fun _ => ?_
    rw [expr, ← hleft]
    exact takes_args true hargs (by omega)

/-! Operators. -/

lemma readable_unary {operand : Tree} (h : operand.Readable src) (op : UnaryOp) : (unary op operand).Readable src := by
  refine readable_of_layout fun levels rest hlevels hrest => ?_
  have hsigned : ∀ span, Takes False operand.partKinds rest (signed (expression src levels) op span)
      fun e => e.bare = (unary op operand).expr := by
    intro span
    refine (h.takes_last (by omega) hrest).bind_pure fun e he => .pure ?_
    rw [Expr.bare, bare, he, expr, node]
  refine takes_of_operand ?_ (TokenKind.stops_of_halts hrest 0)
  cases op <;> exact .next fun span => hsigned span

lemma isAssignable_of_bare {e : Expr} (h : e.bare = target.expr) : e.isAssignable = true := by
  rw [← Expr.isAssignable_bare, h]
  cases target <;> rfl

lemma readable_update (h : (place target).Readable src) (increment before : Bool) :
    (update increment before target).Readable src := by
  refine readable_of_layout (n := (place target).height + 1) (fun levels rest hlevels hrest => ?_) rfl
  cases before with
  | true =>
    refine takes_of_operand ?_ (TokenKind.stops_of_halts hrest 0)
    have hpart : Takes False (place target).partKinds rest (expression src levels Power.sign)
      fun e => e.bare = target.expr :=
      h.takes_last (by omega) hrest
    cases increment <;>
      · refine .next fun _ => hpart.bind_pure fun e he => ?_
        have hassignable := isAssignable_of_bare he
        simp only [ensureAssignable, hassignable, if_true, pure_bind]
        refine .pure ?_
        rw [Expr.bare, bare, he, expr, node]
        rfl
  | false =>
    refine h.takes_before (by omega) (by cases increment <;> rfl) fun fuel left hleft => ?_
    refine .operators_update (by cases increment <;> rfl) (Nat.zero_le _) (isAssignable_of_bare hleft) fun span => ?_
    refine .operators_stop (TokenKind.stops_of_halts hrest 0) ?_
    rw [Expr.bare, bare, hleft, expr]
    cases increment <;> rfl

lemma readable_joined {left right : Tree} (hleft : left.Readable src) (hright : right.Readable src)
    (op : Infix) : (joined op left right).Readable src := by
  refine readable_of_layout fun levels rest hlevels hrest => ?_
  refine hleft.takes_join (by omega) op.joiner?_kind hrest fun e he => ?_
  exact op.takes_joined he (hright.takes_last (by omega) hrest)

lemma readable_conditional {test yes no : Tree} (htest : test.Readable src)
    (hyes : yes.Readable src) (hno : no.Readable src) : (conditional test yes no).Readable src := by
  refine readable_of_layout fun levels rest hlevels hrest => ?_
  have hjoiner : joiner? (.op "?") = some (.ternary, .ternary) := rfl
  refine htest.takes_join (by omega) hjoiner hrest fun e he => ?_
  refine (hyes.takes_last (by omega) (by rfl)).bind fun e' he' => .expect rfl fun _ => ?_
  refine (hno.takes_last (by omega) hrest).bind_pure fun e'' he'' => .pure ?_
  rw [Expr.bare, bare, he, he', he'', expr, node]

lemma readable_assign (htarget : (place target).Readable src) (hvalue : value.Readable src)
    (op : Assignment) : (assign op target value).Readable src := by
  refine readable_of_layout (n := max (place target).height value.height + 1) (fun levels rest hlevels hrest => ?_) rfl
  refine htarget.takes_join (by omega) (joiner?_assign op) hrest fun left hleft => ?_
  have hassignable := isAssignable_of_bare hleft
  simp only [Script.joined, ensureAssignable, hassignable, if_true, pure_bind]
  refine (hvalue.takes_last (by omega) hrest).bind_pure fun e he => .pure ?_
  rw [Expr.bare, bare, hleft, he, expr, expr, node]

lemma readable_arrow {body : Tree} (h : body.Readable src) (params : List Name) : (arrow params body).Readable src := by
  refine readable_of_layout fun levels rest hlevels hrest => ?_
  refine takes_of_operand (.next fun _ => .arrowParams ?_) (TokenKind.stops_of_halts hrest 0)
  refine (h.takes_last (by omega) hrest).bind_pure fun e he => .pure ?_
  rw [Expr.bare, bare, he, expr, node]

end Constructors

mutual

theorem readable (src : List Char) : (t : Tree) → t.Readable src
  | .undefined | .null | .bool _ | .number _ | .string _ => readable_of_isAtom rfl
  | .place target => target.readable src
  | .array items => readable_array (readable_items src items)
  | .object fields => readable_object (readable_fields src fields)
  | .optionalMember target prop => readable_optionalMember (target.readable src) prop
  | .optionalIndex target key => readable_optionalIndex (target.readable src) (key.readable src)
  | .call callee args optional => readable_call (callee.readable src) (readable_items src args) optional
  | .unary op operand => readable_unary (operand.readable src) op
  | .update increment before target => readable_update (target.readable src) increment before
  | .joined op left right => readable_joined (left.readable src) (right.readable src) op
  | .conditional test yes no => readable_conditional (test.readable src) (yes.readable src) (no.readable src)
  | .assign op target value => readable_assign (target.readable src) (value.readable src) op
  | .arrow params body => readable_arrow (body.readable src) params

theorem Target.readable (src : List Char) : (target : Target) → (place target).Readable src
  | .ident _ => readable_of_isAtom rfl
  | .member target prop => readable_member (target.readable src) prop
  | .index target key => readable_index (target.readable src) (key.readable src)

theorem readable_items (src : List Char) : (items : List Item) → ∀ x ∈ items, x.tree.Readable src
  | [] => nofun
  | .plain t :: rest => forall_mem_cons.2 ⟨t.readable src, readable_items src rest⟩
  | .spread t :: rest => forall_mem_cons.2 ⟨t.readable src, readable_items src rest⟩

theorem readable_fields (src : List Char) : (fields : List Field) → ∀ x ∈ fields, x.Readable src
  | [] => nofun
  | .named _ value :: rest => forall_mem_cons.2 ⟨value.readable src, readable_fields src rest⟩
  | .computed key value :: rest =>
    forall_mem_cons.2 ⟨⟨key.readable src, value.readable src⟩, readable_fields src rest⟩

end

lemma parse_of_spells (h : t.height ≤ 30) {src : List Char}
    (hspells : Lexer.Spells ⟨⟨0, src⟩, true⟩ t.kinds) :
    ∃ e, Expr.parse src = .ok e ∧ e.bare = t.expr := by
  have hlevels : 2 * t.height + 1 ≤ maxNesting := by
    have hnesting : maxNesting = 64 := rfl
    omega
  obtain ⟨e, he, htree⟩ | ⟨hfalse, -⟩ := Expr.parse_of_takes (t.readable src maxNesting [] hlevels rfl) hspells
  · exact ⟨e, he, htree⟩
  · exact hfalse.elim

end Tree

/-- A tree of height at most 30 is parsed back from the text it is written as. The text need not be
set with single spaces: any text with the same tokens, with blanks and comments between them or
nothing where they stay apart, is parsed alike. -/
theorem written_tree_parsed_back (t : Tree) (h : t.height ≤ 30) :
    (∃ e, Expr.parse t.text = .ok e ∧ e.bare = t.expr) ∧
      ∀ x : Phrase, x.Valid true [] → x.kinds? = some (t.tokens.map (·.kind)) →
        ∃ e, Expr.parse x.text = .ok e ∧ e.bare = t.expr := by
  obtain ⟨q, hlexemes⟩ := t.legible true
  exact ⟨t.parse_of_spells h (hlexemes.spells (spaced_spaced _) 0), fun x hvalid hkinds =>
    t.parse_of_spells h (x.spells true _ 0 hvalid hkinds)⟩

/-- A quotient of a string by a call, in the body of a function. -/
theorem written_function_parsed_back : let x : Variable := ⟨⟨"x", by decide⟩, by decide, by decide⟩
    let call : Tree := .call (.place (.member (.place (.ident x)) ⟨"in", by decide⟩))
      [.spread (.array []), .plain (.number 7)] true
    let t : Tree := .arrow [x.toName] (.joined (.binary .div) (.string "a\"\n") call)
    t.height ≤ 30 ∧ t.text = "( x ) => ( \"a\\\"\\n\" / ( ( x . in ) ?. ( ... ( [ ] ) , 7 ) ) )".toList ∧
      ∃ e, Expr.parse t.text = .ok e ∧ e.bare = t.expr := by
  intro x call t
  have hheight : t.height ≤ 30 := by decide
  exact ⟨hheight, by decide, (written_tree_parsed_back t hheight).1⟩

end StoryMarkup.Script
