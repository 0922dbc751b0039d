import StoryMarkup.Proofs.Script.Parts
import StoryMarkup.Proofs.Script.Places
import StoryMarkup.Proofs.Script.Precedence

/-! How deep expressions nest, and where their parts stand. The parser counts the levels down to the
parts that it reads anew. -/
namespace StoryMarkup.Script

open List Form

variable {span : Text.Span} {form : Form} {lx after : Lexer} {source : List Char} {token : Token} (n : Nat)

/-- A way down from an expression, with the number of its steps to parts that are read anew and of
its other steps. -/
inductive Expr.Path : Expr → Nat → Nat → Prop
  | here (e : Expr) : Path e 0 0
  | anew {e x : Expr} {i l : Nat} (hx : (true, x) ∈ e.form.parts) (h : Path x i l) : Path e (i + 1) l
  | before {e x : Expr} {i l : Nat} (hx : (false, x) ∈ e.form.parts) (h : Path x i l) : Path e i (l + 1)

/-- No way down from an expression has more than `n` steps to parts that are read anew. -/
def Expr.Nests (n : Nat) (e : Expr) : Prop := ∀ i l, e.Path i l → i ≤ n

/-- Spans that stand one behind the other between two places. -/
def Row : Nat → List Text.Span → Nat → Prop
  | lo, [], hi => lo ≤ hi
  | lo, s :: rest, hi => lo ≤ s.start ∧ s.start ≤ s.stop ∧ Row s.stop rest hi

/-- A span of the source between two places. -/
abbrev Spot (source : List Char) (lo : Nat) (s : Text.Span) (hi : Nat) : Prop := Lies source s ∧
    lo ≤ s.start ∧ s.stop ≤ hi

lemma Row.mono {lo lo' hi hi' : Nat} {spans : List Text.Span} (h : Row lo spans hi) (hlo : lo' ≤ lo)
    (hhi : hi ≤ hi') : Row lo' spans hi' := by
  induction spans generalizing lo lo' with
  | nil => exact Nat.le_trans hlo (Nat.le_trans h hhi)
  | cons s spans ih => exact ⟨Nat.le_trans hlo h.1, h.2.1, ih h.2.2 le_rfl⟩

lemma Row.append {lo mid hi : Nat} {spans more : List Text.Span} (h : Row lo spans mid)
    (hmore : Row mid more hi) : Row lo (spans ++ more) hi := by
  induction spans generalizing lo with
  | nil => exact hmore.mono h le_rfl
  | cons s spans ih => exact ⟨h.1, h.2.1, ih h.2.2⟩

namespace Expr

variable {n : Nat} {e : Expr}

/-- An expression takes up some of the source, and its parts stand there one behind the other. -/
def Placed (source : List Char) (span : Text.Span) (form : Form) : Prop :=
  Lies source span ∧ span.start < span.stop ∧ Row span.start (form.parts.map (·.2.span)) span.stop

structure Fits (source : List Char) (n : Nat) (e : Expr) : Prop where
  nests : e.Nests n
  short : e.Each (fun _ form => ∀ s ∈ form.literals, s.length ≤ source.length) false
  placed : ∀ node : Expr, node.Within e → Placed source node.span node.form

/-- The parts of an expression fit, those that are read anew with a level less, and stand one behind
the other. -/
def Parts (source : List Char) (n lo : Nat) (parts : List (Bool × Expr)) (hi : Nat) : Prop :=
  (∀ p ∈ parts, if p.1 then 0 < n ∧ p.2.Fits source (n - 1) else p.2.Fits source n) ∧ Row lo (parts.map (·.2.span)) hi

lemma fits_mk (hlies : Lies source span) (hlt : span.start < span.stop)
    (hshort : ∀ s ∈ form.literals, s.length ≤ source.length)
    (h : Parts source n span.start form.parts span.stop) : (Expr.mk span form).Fits source n := by
  obtain ⟨h, hrow⟩ := h
  refine ⟨fun i l hpath => ?_, each_mk.2 ⟨hshort, fun p hp => ?_⟩, fun node hnode => ?_⟩
  · cases hpath with
    | here => exact Nat.zero_le _
    | anew hx hpath =>
      have ⟨hn, hfits⟩ : 0 < n ∧ Fits source (n - 1) _ := h _ hx
      have := hfits.nests _ _ hpath
      omega
    | before hx hpath =>
      have hfits : Fits source n _ := h _ hx
      exact hfits.nests _ _ hpath
  · have hp := h p hp
    split at hp
    · exact hp.2.short
    · exact hp.short
  · cases hnode with
    | refl => exact ⟨hlies, hlt, hrow⟩
    | part hp hnode =>
      have hp := h _ hp
      split at hp
      · exact hp.2.placed node hnode
      · exact hp.placed node hnode

lemma Fits.place (h : e.Fits source n) (hplaced : Placed source span e.form) :
    (Expr.mk span e.form).Fits source (n + 1) := by
  obtain ⟨_, form⟩ := e
  refine ⟨fun i l hpath => ?_, each_mk.2 (each_mk.1 h.short), fun node hnode => ?_⟩
  · cases hpath with
    | here => exact Nat.zero_le _
    | anew hx hpath => exact Nat.le_succ_of_le (h.nests _ _ (.anew hx hpath))
    | before hx hpath => exact Nat.le_succ_of_le (h.nests _ _ (.before hx hpath))
  · cases hnode with
    | refl => exact hplaced
    | part hp hnode => exact h.placed node (.part hp hnode)

end Expr

/-! Tokens are no longer than what they are read from. -/

def TokenKind.literals : TokenKind → List String
  | .string s => [s]
  | .pattern source flags => [source, flags]
  | _ => []

def TokenKind.holes : TokenKind → List Text.Span
  | .template parts => parts.filterMap TemplatePart.hole?
  | _ => []

lemma Word.length_literals {p : Bool} {kind : TokenKind} {t f : List Char} (h : Word p kind t f) :
    (∀ s ∈ kind.literals, s.length ≤ t.length) ∧ kind.holes = [] := by
  cases h with
  | single hmem =>
    simp only [punctuation, mem_cons, Prod.mk.injEq, not_mem_nil, or_false] at hmem
    rcases hmem with h | h | h | h | h | h | h | h <;> simp [h.2, TokenKind.literals, TokenKind.holes]
  | string _ hreads _ =>
    obtain ⟨body, hbetween, ⟨_, rfl, hlength⟩, -⟩ := exists_reads_scanStringBody (hreads 0 _ [] (Nat.lt_succ_self _) 0)
    have := congrArg length hbetween.rest
    simp [TokenKind.literals, TokenKind.holes] at this hlength ⊢
    omega
  | pattern _ hreads _ _ =>
    obtain ⟨body, hbetween, hlength, -⟩ := exists_reads_scanPatternBody (hreads 0 _ [] (Nat.lt_succ_self _) 0)
    have := congrArg length hbetween.rest
    simp [TokenKind.literals, TokenKind.holes] at this hlength ⊢
    omega
  | _ => simp [TokenKind.literals, TokenKind.holes]

lemma Quote.holes_in_row {start : Nat} {f : List Char} : (q : Quote) → ∀ first run {pos},
    Reaches source start ⟨pos, q.text ++ f⟩ →
    Row pos (TokenKind.template (q.parts first run pos)).holes (pos + Text.byteLength q.text) ∧
      ∀ s ∈ (TokenKind.template (q.parts first run pos)).holes, IsPlace source s.start
  | .done, first, run, pos, h => by
    simp [TokenKind.holes, Quote.done_holes, Row]
  | .piece value raw rest, first, run, pos, h => by
    have ⟨hrow, hplaces⟩ := rest.holes_in_row first (value ++ run) (h.between ⟨append_assoc .., rfl⟩)
    exact ⟨hrow.mono (Nat.le_add_right _ _) (by simp [Quote.text]; omega), hplaces⟩
  | .hole inner rest, first, run, pos, h => by
    have hsize : '$'.utf8Size = 1 ∧ '{'.utf8Size = 1 ∧ '}'.utf8Size = 1 := ⟨rfl, rfl, rfl⟩
    have hopen : Reaches source start ⟨pos + 2, (inner.text ++ ['}']) ++ (rest.text ++ f)⟩ :=
      h.between (t := ['$', '{']) ⟨by simp [Quote.text], rfl⟩
    have hclose : Reaches source start ⟨pos + 2 + Text.byteLength inner.text + 1, rest.text ++ f⟩ :=
      hopen.between ⟨rfl, by simp; rfl⟩
    have ⟨hrow, hplaces⟩ := rest.holes_in_row false [] hclose
    simp only [TokenKind.holes, Quote.parts, filterMap_append, textParts_holes, nil_append]
    exact ⟨⟨Nat.le_add_right _ _, Nat.le_add_right _ _, hrow.mono (Nat.le_succ _)
      (by simp [Quote.text]; omega)⟩, forall_mem_cons.2 ⟨hopen.here.isPlace, hplaces⟩⟩

lemma Scans.inside {keep : Bool} {levels start : Nat} (h : Scans keep levels lx token after)
    (hlx : Reaches source start lx.cursor) :
    (∀ s ∈ token.kind.literals, s.length ≤ source.length) ∧ Row token.span.start token.kind.holes
      token.span.stop ∧ ∀ s ∈ token.kind.holes, IsPlace source s.start := by
  induction h with
  | eof | comment => simp [TokenKind.literals, TokenKind.holes, Row]
  | @blank c _ _ _ _ _ _ _ ih => exact ih (hlx.between (t := [c]) ⟨rfl, by simp⟩)
  | skip _ _ _ ih => exact ih (hlx.between ⟨rfl, rfl⟩)
  | word hword =>
    obtain ⟨pre, rfl, -⟩ := hlx.here
    have ⟨hliterals, hholes⟩ := hword.length_literals
    simp only [hholes, Row, not_mem_nil, length_append]
    exact ⟨fun s hs => Nat.le_add_left_of_le (Nat.le_add_right_of_le (hliterals s hs)), Nat.le_add_right _ _, nofun⟩
  | @template q f pos =>
    have ⟨hrow, hplaces⟩ := q.holes_in_row true [] (hlx.between (t := [backquote]) ⟨rfl, rfl⟩)
    exact ⟨nofun, hrow.mono (Nat.le_add_right _ _) le_rfl, hplaces⟩

/-! What a parser gives that starts in the source. -/

abbrev Feed.pos (f : Feed) : Nat := f.lexer.cursor.pos

abbrev Feed.left (f : Feed) : Nat := f.lexer.cursor.rest.length

abbrev Feed.Leads (f f' : Feed) : Prop := f.pos ≤ f'.pos ∧ f'.left ≤ f.left

structure Feed.At (source : List Char) (f : Feed) : Prop where
  lexer : InSource source f.lexer.cursor
  ahead : ∀ r ∈ f.ahead, f.lexer.next = .ok r

lemma Feed.At.ofOffset {n : Nat} (h : IsPlace source n) : Feed.At source { lexer := Lexer.ofOffset source n } := by
  obtain ⟨pre, rest, rfl, rfl⟩ := Text.exists_append_of_dropBytes? h
  exact ⟨⟨pre, by simp [Lexer.ofOffset, Text.Cursor.ofOffset, Text.dropBytes?_append]⟩, nofun⟩

variable {f f' : Feed}

/-- What is read between two places of the source. -/
structure Feed.Takes (source : List Char) (f : Feed) (token : Token) (f' : Feed) : Prop where
  here : InSource source f'.lexer.cursor
  spot : Spot source f.pos token.span f'.pos
  moves : token.kind = .eof ∧ f'.left ≤ f.left ∨ token.span.start < token.span.stop ∧ f'.left < f.left
  short : ∀ s ∈ token.kind.literals, s.length ≤ source.length
  row : Row token.span.start token.kind.holes token.span.stop
  places : ∀ s ∈ token.kind.holes, IsPlace source s.start

lemma Feed.Takes.leads (h : f.Takes source token f') : f.Leads f' := by
  have ⟨_, _, _, _, _, _⟩ := h
  omega

lemma Feed.takes (hf : InSource source f.lexer.cursor)
    (hnext : f.lexer.next = .ok (token, f'.lexer)) : f.Takes source token f' := by
  have h := (holesRead _).scans hnext
  have ⟨hlies, hpos, hafter⟩ := (Reaches.refl hf).scans h
  have ⟨hshort, hrow, hplaces⟩ := h.inside (.refl hf)
  refine ⟨hafter.here, ⟨hlies, h.pos_le, Nat.le_of_eq hpos.symm⟩, ?_, hshort, hrow, hplaces⟩
  obtain ⟨gap, text, hcovers⟩ := h.covers
  have hlength : f.left = gap.length + (text.length + f'.left) := by simpa using congrArg length hcovers.rest
  cases hkind : token.kind.isEof with
  | true => exact .inl ⟨(hcovers.ends hkind).1, by omega⟩
  | false =>
    have := length_pos_iff.2 (hcovers.goes_on hkind)
    exact .inr ⟨hpos ▸ h.start_lt hkind, by omega⟩

/-- From a place of the source on a parser moves forward and gives such a thing, or it fails and
points into the source. -/
def Parser.Gives {α : Type} (source : List Char) (f : Feed) (P : α → Feed → Prop) (p : Parser α) : Prop :=
  f.At source → (∀ a f', p f = .ok (a, f') → f'.At source ∧ f.Leads f' ∧ P a f') ∧ ∀ e, p f =
    .error e → e.PointsInto source

namespace Parser.Gives

variable {α β : Type} {P : α → Feed → Prop} {Q : β → Feed → Prop}

lemma stays {p : Parser α} {a : α} (hp : p f = .ok (a, f)) (h : f.At source → P a f) : Gives source f P p := by
  intro hf
  rw [hp]
  refine ⟨?_, nofun⟩
  rintro _ _ ⟨⟩
  exact ⟨hf, ⟨le_rfl, le_rfl⟩, h hf⟩

lemma pure {a : α} (h : P a f) : Gives source f P (Pure.pure a) := .stays rfl fun _ => h

lemma throw {e : ScriptError} (h : e.PointsInto source) : Gives source f P (throw e : Parser α) := by
  refine fun _ => ⟨nofun, ?_⟩
  rintro _ ⟨⟩
  exact h

lemma refuse {problem : SyntaxProblem} {s : Text.Span} (h : Lies source s) :
    Gives source f P (refuse problem s : Parser α) :=
  .throw (by rintro _ ⟨⟩; exact h)

lemma bind {p : Parser α} {q : α → Parser β} (hp : Gives source f P p)
    (hq : ∀ a f', f.Leads f' → P a f' → Gives source f' Q (q a)) : Gives source f Q (p >>= q) := by
  intro hf
  have ⟨hok, herror⟩ := hp hf
  simp only [Bind.bind, StateT.bind]
  cases hr : p f with
  | error e => exact ⟨nofun, fun _ h => by cases h; exact herror e hr⟩
  | ok r =>
    have ⟨hf', hleads, ha⟩ := hok r.1 r.2 hr
    refine (hq r.1 r.2 hleads ha hf').imp_left fun hok b f'' h => ?_
    have ⟨hf'', hleads', hb⟩ := hok b f'' h
    exact ⟨hf'', by omega, hb⟩

lemma ite {c : Prop} [Decidable c] {p q : Parser α} (hp : Gives source f P p)
    (hq : Gives source f P q) : Gives source f P (if c then p else q) := by
  split
  · exact hp
  · exact hq

lemma of_next {p : Parser Token} {g : Token × Lexer → Feed} {P : Token → Feed → Prop}
    (hp : f.At source → p f = f.lexer.next.map fun r => (r.1, g r))
    (hg : ∀ r, f.lexer.next = .ok r → f.Takes source r.1 ⟨r.2, none⟩ → (g r).At source ∧
      f.Leads (g r) ∧ P r.1 (g r)) : Gives source f P p := by
  intro hf
  rw [hp hf]
  cases hnext : f.lexer.next with
  | error e =>
    refine ⟨nofun, ?_⟩
    rintro _ ⟨⟩
    exact HolesPoint.scan (holesPoint source _) hf.lexer hnext
  | ok r =>
    refine ⟨?_, nofun⟩
    rintro _ _ ⟨⟩
    exact hg r hnext (Feed.takes hf.lexer hnext)

lemma next : Gives source f (fun token f' => f.Takes source token f' ∧ f.lexer.next =
    .ok (token, f'.lexer)) Parser.next := by
  refine .of_next (g := fun r => ⟨r.2, none⟩) (fun hf => ?_) fun r hnext h => ⟨⟨h.here, nofun⟩, h.leads, h, hnext⟩
  unfold Parser.next
  cases hahead : f.ahead with
  | none => cases f.lexer.next <;> rfl
  | some r => rw [hf.ahead r hahead]; rfl

lemma peek : Gives source f (fun token f' => ∀ {token' after}, f'.lexer.next = .ok (token', after) →
    token' = token) Parser.peek := by
  intro hf
  refine Gives.of_next (g := fun r => ⟨f.lexer, some r⟩) (fun hf => ?_) (fun r hnext h =>
    ⟨⟨hf.lexer, ?_⟩, ⟨le_rfl, le_rfl⟩, ?_⟩) hf
  · unfold Parser.peek
    obtain ⟨lx, ahead⟩ := f
    cases ahead with
    | none => cases lx.next <;> rfl
    | some r => simp only [hf.ahead r rfl]; rfl
  · rintro r ⟨⟩
    exact hnext
  · intro token' after' h
    cases hnext.symm.trans h
    rfl

lemma position : Gives source f (fun place _ => IsPlace source place) Parser.position := by
  cases hahead : f.ahead with
  | none => exact .stays (a := f.pos) (by simp [Parser.position, hahead]) fun hf => hf.lexer.isPlace
  | some r =>
    refine .stays (a := r.1.span.start) (by simp [Parser.position, hahead]) fun hf => ?_
    have htakes : f.Takes source r.1 ⟨r.2, none⟩ := Feed.takes hf.lexer (hf.ahead r hahead)
    exact htakes.spot.1.1

lemma remaining : Gives source f (fun fuel f' => f'.left < fuel) Parser.remaining :=
  .stays rfl fun _ => Nat.lt_succ_self _

lemma expect {p : TokenKind → Bool} {wanted : String} :
    Gives source f (fun token f' => Spot source f.pos token.span f'.pos) (expect source p wanted) :=
  .bind .next fun _ _ _ h => .ite (.pure h.1.spot) (.refuse h.1.spot.1)

lemma eatComma : Gives source f (fun _ _ => True) eatComma :=
  .bind .peek fun _ _ _ _ => .ite (.bind .next fun _ _ _ _ => .pure trivial) (.pure trivial)

lemma ensureAssignable {e : Expr} (he : Lies source e.span) : Gives source f (fun _ _ => True) (ensureAssignable e) :=
  .ite (.pure trivial) (.refuse he)

lemma arrowNames_moves {fuel : Nat} {names names' : List String} (hlx : InSource source lx.cursor)
    (h : arrowNames fuel names lx = some (names', after)) : InSource source after.cursor ∧
      Feed.Leads ⟨lx, none⟩ ⟨after, none⟩ := by
  have hmoves {lx after : Lexer} {token : Token} (hlx : InSource source lx.cursor) (h : lx.next =
      .ok (token, after)) : InSource source after.cursor ∧ Feed.Leads ⟨lx, none⟩ ⟨after, none⟩ :=
    have htakes : Feed.Takes source ⟨lx, none⟩ token ⟨after, none⟩ := Feed.takes hlx h
    ⟨htakes.here, htakes.leads⟩
  fun_induction arrowNames fuel names lx <;> grind [arrowNames.arrow]

lemma arrowParams : Gives source f (fun _ _ => True) arrowParams := by
  cases hnames : arrowNames (f.left + 1) [] f.lexer with
  | none => exact .stays (a := none) (by simp [Script.arrowParams, hnames]) fun _ => trivial
  | some r =>
    refine fun hf => ⟨?_, by simp [Script.arrowParams, hnames]⟩
    simp only [Script.arrowParams, hnames]
    rintro _ _ ⟨⟩
    have ⟨hhere, hleads⟩ := arrowNames_moves hf.lexer hnames
    exact ⟨⟨hhere, nofun⟩, hleads, trivial⟩

end Parser.Gives

open StoryMarkup.Script.Parser

/-- An expression that fits, behind a place and before where the parser stands. -/
abbrev Sits (source : List Char) (n lo : Nat) (e : Expr) (f : Feed) : Prop :=
  e.Fits source n ∧ Spot source lo e.span f.pos ∧ e.span.start < e.span.stop

abbrev Line (source : List Char) (n lo : Nat) (es : List Expr) (hi : Nat) : Prop :=
  (∀ x ∈ es, x.Fits source n) ∧ Row lo (es.map (·.span)) hi

section Productions

variable {sub : Nat → Parser Expr} {n lo mid mid' hi : Nat} {s t : Text.Span} {left : Expr} {es : List Expr}

lemma Sits.mono {f' : Feed} (h : Sits source n lo left f) (hle : f.pos ≤ f'.pos) : Sits source n lo left f' :=
  ⟨h.1, ⟨h.2.1.1, by omega⟩, h.2.2⟩

lemma Line.mono (h : Line source n lo es hi) (hlo : mid ≤ lo) (hhi : hi ≤ mid') : Line source n mid es mid' :=
  ⟨h.1, h.2.mono hlo hhi⟩

lemma Line.append {more : List Expr} (h : Line source n lo es mid)
    (hmore : Line source n mid more hi) : Line source n lo (es ++ more) hi :=
  ⟨forall_mem_append.2 ⟨h.1, hmore.1⟩, by simpa using h.2.append hmore.2⟩

lemma Line.nil (h : lo ≤ hi) : Line source n lo [] hi := ⟨nofun, h⟩

lemma Line.single (h : Sits source n lo left f) : Line source n lo [left] f.pos :=
  ⟨forall_mem_singleton.2 h.1, h.2.1.2.1, h.2.1.1.2.2, h.2.1.2.2⟩

lemma Line.parts (h : Line source n lo es hi) : Expr.Parts source (n + 1) lo (es.map (true, ·)) hi :=
  ⟨forall_mem_map.2 fun x hx => ⟨Nat.succ_pos n, h.1 x hx⟩, by simpa [Function.comp_def] using h.2⟩

lemma sits_mk (hs : Spot source lo s f.pos) (hlt : s.start < s.stop)
    (hshort : ∀ s ∈ form.literals, s.length ≤ source.length)
    (hparts : Expr.Parts source n s.start form.parts s.stop) : Sits source n lo (.mk s form) f :=
  ⟨Expr.fits_mk hs.1 hlt hshort hparts, hs, hlt⟩

lemma sits_leaf (hs : Spot source lo s f.pos) (hlt : s.start < s.stop) (hparts : form.parts = [])
    (hshort : ∀ s ∈ form.literals, s.length ≤ source.length) : Sits source n lo (.mk s form) f :=
  sits_mk hs hlt hshort (by simpa [hparts, Expr.Parts, Row] using hs.1.2.2)

lemma join_eq (hs : Spot source lo s mid) (ht : Spot source mid' t hi) (hmid : mid ≤ mid') :
    s.join t = ⟨s.start, t.stop⟩ ∧ Spot source lo ⟨s.start, t.stop⟩ hi := by
  rw [Text.Span.join, Nat.min_eq_left (by omega), Nat.max_eq_right (by omega)]
  exact ⟨rfl, ⟨hs.1.1, ht.1.2.1, show s.start ≤ t.stop by omega⟩, hs.2.1, ht.2.2⟩

/-- An expression from one span to another one behind it, with its parts in between. -/
lemma sits_join (hs : Spot source lo s mid) (ht : Spot source mid' t f.pos) (hmid : mid ≤ mid' ∧ s.start < t.stop)
    (hnone : form.literals = []) (hparts : Expr.Parts source n s.start form.parts t.stop) :
      Sits source n lo (.mk (s.join t) form) f := by
  obtain ⟨hjoin, hspot⟩ := join_eq hs ht hmid.1
  rw [hjoin]
  exact sits_mk hspot hmid.2 (by simp [hnone]) hparts

variable (hsub : ∀ ⦃least f lo⦄, lo ≤ f.pos → Gives source f (Sits source n lo) (sub least))
include hsub

lemma gives_arrowBody {params : List String} (hs : Spot source lo s f.pos) :
    Gives source f (Sits source (n + 1) lo) (arrowBody sub params s) :=
  (hsub le_rfl).bind fun _ _ _ hbody =>
    .pure (sits_join hs hbody.2.1 (by omega) rfl (by simp [Expr.Parts, parts, Row, hbody.1]; omega))

lemma gives_signed {op : UnaryOp} (hs : Spot source lo s f.pos) :
    Gives source f (Sits source (n + 1) lo) (signed sub op s) :=
  (hsub le_rfl).bind fun _ _ _ hoperand =>
    .pure (sits_join hs hoperand.2.1 (by omega) rfl (by simp [Expr.Parts, parts, Row, hoperand.1]; omega))

lemma gives_listItem (hlo : lo ≤ f.pos) : Gives source f (Sits source n lo) (listItem sub) :=
  .bind .peek fun _ _ hle hahead => .ite
    (.bind .next fun _ _ _ hnext => (hsub le_rfl).bind fun _ _ _ hinner => .pure (by
      obtain rfl := hahead hnext.2
      have hspot := hnext.1.spot
      exact sits_join ⟨hspot.1, by omega, hspot.2.2⟩ hinner.2.1 (by omega) rfl
        (by simp [Expr.Parts, parts, Row, hinner.1]; omega)))
    (hsub (by omega))

lemma gives_listItems {close : Bracket} (fuel : Nat) : ∀ {done f}, Line source n lo done.reverse f.pos →
    Gives source f (fun items f' => Line source n lo items f'.pos) (listItems sub close fuel done) := by
  induction fuel with
  | zero => exact fun hdone => .pure hdone
  | succ fuel ih =>
    intro done f hdone
    refine .bind .peek fun _ _ hle _ => .ite (.pure (hdone.mono le_rfl hle.1))
      ((gives_listItem hsub hle.1).bind fun item f' hle' hitem => ?_)
    have hmore : Line source n lo (item :: done).reverse f'.pos := by simpa using hdone.append (.single hitem)
    exact .bind .eatComma fun _ _ hle'' _ => .ite (ih (hmore.mono le_rfl hle''.1)) (.pure (hmore.mono le_rfl hle''.1))

lemma gives_bracketed {close : Bracket} :
    Gives source f (fun r f' => Line source n f.pos r.1 r.2.stop ∧ Spot source f.pos r.2 f'.pos)
    (bracketed source sub close) :=
  .bind .remaining fun fuel _ hle _ => (gives_listItems hsub fuel (.nil hle.1)).bind fun _ _ _ hitems =>
    .bind .expect fun _ _ _ htoken =>
      .pure ⟨⟨hitems.1, hitems.2.mono le_rfl (by dsimp only; omega)⟩, htoken.1, by dsimp only; omega, htoken.2.2⟩

lemma gives_selected {optional : Bool} {kind : TokenKind} (hleft : Sits source (n + 1) lo left f) :
    Gives source f (Sits source (n + 1) lo) (selected source sub left optional kind) := by
  unfold selected
  split
  · refine .bind .next fun _ _ _ hname => ?_
    have hspot := hname.1.spot
    split
    · exact .pure (sits_join hleft.2.1 hspot (by omega) rfl (by simp [Expr.Parts, parts, Row, hleft.1]; omega))
    · exact .refuse hspot.1
  · exact (hsub le_rfl).bind fun _ _ _ hkey => .bind .expect fun _ _ _ hclose =>
      .pure (sits_join hleft.2.1 hclose (by omega) rfl (by simp [Expr.Parts, parts, Row, hleft.1, hkey.1]; omega))
  · refine (gives_bracketed hsub).bind fun _ _ _ hargs => .pure (sits_join hleft.2.1 hargs.2 (by omega) rfl ?_)
    have hparts := (hargs.1.mono hleft.2.1.2.2 le_rfl).parts
    exact ⟨forall_mem_cons.2 ⟨hleft.1, hparts.1⟩, le_rfl, hleft.2.1.1.2.2, hparts.2⟩

lemma gives_accessAfter (hleft : Sits source (n + 1) lo left f) :
    Gives source f (Sits source (n + 1) lo) (accessAfter source sub left) := by
  refine .bind .next fun token _ hle _ => .ite (.bind .peek fun ahead _ hle' _ => ?_)
    (gives_selected hsub (hleft.mono hle.1))
  split
  iterate 2 exact .bind .next fun _ _ _ _ => gives_selected hsub (hleft.mono (by omega))
  · exact .bind (.pure (P := fun _ _ => True) trivial) fun _ _ _ _ => gives_selected hsub (hleft.mono (by omega))

lemma gives_joined {power : Power} {joiner : Joiner} (hleft : Sits source (n + 1) lo left f) :
    Gives source f (Sits source (n + 1) lo) (joined source sub power joiner left) := by
  unfold joined
  split
  iterate 2
    exact (hsub le_rfl).bind fun _ _ _ hright => .pure (sits_join hleft.2.1 hright.2.1 (by omega)
      rfl (by simp [Expr.Parts, parts, Row, hleft.1, hright.1]; omega))
  · exact .bind (.ensureAssignable hleft.2.1.1) fun _ _ hle _ => (hsub le_rfl).bind fun _ _ _ hvalue =>
      .pure (sits_join hleft.2.1 hvalue.2.1 (by omega) rfl (by simp [Expr.Parts, parts, Row, hleft.1, hvalue.1]; omega))
  · exact (hsub le_rfl).bind fun _ _ _ hyes => .bind .expect fun _ _ _ _ => (hsub le_rfl).bind fun _ _ _ hno =>
      .pure (sits_join hleft.2.1 hno.2.1 (by omega) rfl
        (by simp [Expr.Parts, parts, Row, hleft.1, hyes.1, hno.1]; omega))

lemma gives_operatorsAfter (least fuel : Nat) : ∀ {left f}, Sits source (n + 1) lo left f →
    Gives source f (Sits source (n + 1) lo) (operatorsAfter source sub least fuel left) := by
  induction fuel with
  | zero => exact fun hleft => .pure hleft
  | succ fuel ih =>
    intro left f hleft
    rw [operatorsAfter_succ]
    refine .bind .peek fun token f' hle hahead => ?_
    have hleft := hleft.mono hle.1
    refine .ite (.ite (.pure hleft) ?_) (.ite (.ite (.pure hleft) ?_) ?_)
    · refine .bind .next fun _ _ _ hnext => .bind (.ensureAssignable hleft.2.1.1) fun _ _ hle' _ => ih ?_
      obtain rfl := hahead hnext.2
      have hspot := hnext.1.spot
      exact sits_join hleft.2.1 ⟨hspot.1, hspot.2.1, by omega⟩ (by omega) rfl
        (by simp [Expr.Parts, parts, Row, hleft.1]; omega)
    · exact (gives_accessAfter hsub hleft).bind fun _ _ _ => ih
    · split
      · exact .pure hleft
      · exact .ite (.pure hleft) (.bind .next fun _ _ hle' _ =>
          (gives_joined hsub (hleft.mono hle'.1)).bind fun _ _ _ => ih)

lemma gives_named {name : String} (hs : Spot source lo s f.pos) (hlt : s.start < s.stop) :
    Gives source f (Sits source (n + 1) lo) (named sub name s) := by
  unfold named
  split
  iterate 4 exact .pure (sits_leaf hs hlt rfl nofun)
  iterate 2 exact gives_signed hsub hs
  · exact .bind .peek fun _ _ hle _ => .ite (.bind .next fun _ _ _ _ =>
      gives_arrowBody hsub ⟨hs.1, by omega⟩) (.pure (sits_leaf ⟨hs.1, by omega⟩ hlt rfl nofun))

lemma gives_parenthesised (hs : Spot source lo s f.pos) : Gives source f (Sits source (n + 1) lo)
    (parenthesised source sub s) := by
  refine .bind .arrowParams fun _ _ hle _ => ?_
  split
  · exact gives_arrowBody hsub ⟨hs.1, by omega⟩
  · refine (hsub le_rfl).bind fun inner _ _ hinner => .bind .expect fun close _ _ hclose => .pure ?_
    obtain ⟨hjoin, hspot⟩ := join_eq hs hclose (by omega)
    have hrow := (hinner.1.placed inner .refl).2.2
    rw [hjoin]
    exact ⟨hinner.1.place
      ⟨hspot.1, by dsimp only; omega, hrow.mono (by dsimp only; omega) (by dsimp only; omega)⟩,
        hspot, show s.start < close.span.stop by omega⟩

lemma gives_objectField (hs : Spot source lo token.span f.pos) (hlt : token.span.start < token.span.stop) :
    Gives source f (fun field f' => Line source n lo field.values f'.pos) (objectField source sub token) := by
  have hvalue {f lo} (hlo : lo ≤ f.pos) : Gives source f (Sits source n lo) (fieldValue source sub) :=
    .bind .expect fun _ _ _ _ => hsub (by omega)
  unfold objectField
  split
  · refine .bind .peek fun ahead _ _ _ => ?_
    split
    iterate 2 exact .pure (.single (sits_leaf ⟨hs.1, by omega⟩ hlt rfl nofun))
    exact (hvalue (by omega)).bind fun _ _ _ hvalue => .pure (.single hvalue)
  iterate 2 exact (hvalue (by omega)).bind fun _ _ _ hvalue => .pure (.single hvalue)
  · exact (hsub (by omega)).bind fun _ _ _ hkey => .bind .expect fun _ _ _ _ =>
      (hvalue (by omega)).bind fun _ _ _ hvalue =>
      .pure ((Line.single hkey).append (.single hvalue))
  · exact .refuse hs.1

lemma gives_objectFields (hs : Spot source lo s mid) (hlt : s.start < s.stop) (fuel : Nat) :
    ∀ {done f}, mid ≤ f.pos → f.left < fuel →
    Line source n mid (done.reverse.flatMap Field.values) f.pos →
    Gives source f (Sits source (n + 1) lo) (objectFields source sub s fuel done) := by
  have hobject {t : Text.Span} {done : List Field} {f f' : Feed} (hdone : Line source n mid
      (done.reverse.flatMap Field.values) f.pos)
      (ht : Spot source f.pos t f'.pos) (hmid : mid ≤ f.pos) :
        Sits source (n + 1) lo (.mk (s.join t) (.object done.reverse)) f' :=
    sits_join hs ht (by omega) rfl (hdone.mono (by omega) (by omega)).parts
  induction fuel with
  | zero => exact fun _ hfuel => absurd hfuel (Nat.not_lt_zero _)
  | succ fuel ih =>
    intro done f hmid hfuel hdone
    refine .bind .next fun token f' hle htoken => .ite (.pure (hobject hdone htoken.1.spot hmid)) ?_
    obtain ⟨hkind, -⟩ | ⟨hlt, hless⟩ := htoken.1.moves
    · have hrefuse : Gives source f' (fun _ _ => False) (objectField source sub token) := by
        simp only [objectField, hkind]
        exact .refuse htoken.1.spot.1
      exact hrefuse.bind nofun
    refine (gives_objectField hsub htoken.1.spot hlt).bind fun field f'' hle' hfield => ?_
    have hmore : Line source n mid ((field :: done).reverse.flatMap Field.values) f''.pos := by
      simpa [flatMap_append] using hdone.append hfield
    exact .bind .eatComma fun _ _ _ _ => .ite (ih (by omega) (by omega) (hmore.mono le_rfl (by omega)))
      (.bind .expect fun _ _ _ hclose => .pure (hobject (hmore.mono le_rfl (by omega)) hclose (by omega)))

lemma gives_templateSegments (parts : List TemplatePart) : ∀ lo, Row lo (TokenKind.template parts).holes hi →
    (∀ s ∈ (TokenKind.template parts).holes, IsPlace source s.start) →
    Gives source f (fun segs _ => Line source n lo (segs.filterMap Segment.hole?) hi)
      (templateSegments source sub parts) := by
  induction parts with
  | nil => exact fun _ hrow _ => .pure ⟨nofun, hrow⟩
  | cons part rest ih =>
    intro lo hrow hplaces
    cases part with
    | text s => exact (ih lo hrow hplaces).bind fun _ _ _ hsegs => .pure hsegs
    | hole span =>
      obtain ⟨hlo, -, hrow⟩ := hrow
      obtain ⟨hplace, hplaces⟩ := forall_mem_cons.1 hplaces
      have hstart : Feed.At source { lexer := Lexer.ofOffset source span.start } := .ofOffset hplace
      unfold templateSegments
      split
      · exact .throw ((hsub le_rfl hstart).2 _ ‹_›)
      · rename_i inner feed _
        obtain ⟨hfeed, -, hinner⟩ := (hsub le_rfl hstart).1 _ _ ‹_›
        split
        · exact .throw ((Gives.next hfeed).2 _ ‹_›)
        · rename_i token _ _
          obtain ⟨-, -, hnext, -⟩ := (Gives.next hfeed).1 _ _ ‹_›
          have hspot := hnext.spot
          split
          · rename_i hclosing
            have hstop : token.span.start = span.stop := by simpa using (Bool.and_eq_true_iff.1 hclosing).2
            have hle : span.start ≤ inner.span.start := hinner.2.1.2.1
            refine (ih inner.span.stop (hrow.mono (by omega) le_rfl) hplaces).bind fun _ _ _ hsegs => .pure ?_
            exact ⟨forall_mem_cons.2 ⟨hinner.1, hsegs.1⟩, Nat.le_trans hlo hle, hinner.2.1.1.2.2, hsegs.2⟩
          · exact .refuse hspot.1

lemma gives_operand : Gives source f (Sits source (n + 1) f.pos) (operand source sub) := by
  refine .bind .next fun token f' _ htoken => ?_
  obtain ⟨htoken, -⟩ := htoken
  have hs := htoken.spot
  have hshort := htoken.short
  dsimp only
  obtain ⟨hkind, -⟩ | ⟨hlt, -⟩ := htoken.moves
  · rw [hkind]
    exact .refuse hs.1
  split
  · exact .pure (sits_leaf hs hlt rfl nofun)
  iterate 2
    rename_i hkind
    rw [hkind] at hshort
    exact .pure (sits_leaf hs hlt rfl hshort)
  · rename_i hkind
    exact (gives_templateSegments hsub _ _ (hkind ▸ htoken.row) (hkind ▸ htoken.places)).bind fun _ _ _ hsegs =>
      .pure (sits_mk ⟨hs.1, by omega⟩ hlt nofun hsegs.parts)
  · exact gives_named hsub hs hlt
  · exact gives_parenthesised hsub hs
  · exact (gives_bracketed hsub).bind fun _ _ _ hitems =>
      .pure (sits_join hs hitems.2 (by omega) rfl (hitems.1.mono (by omega) le_rfl).parts)
  · exact .bind .remaining fun _ _ _ hfuel => gives_objectFields hsub hs hlt _ (by omega) hfuel (.nil (by omega))
  iterate 4 exact gives_signed hsub hs
  iterate 2
    exact (hsub le_rfl).bind fun _ _ _ htarget => .bind (.ensureAssignable htarget.2.1.1) fun _ _ _ _ =>
      .pure (sits_join hs ⟨htarget.2.1.1, htarget.2.1.2.1, by omega⟩ (by omega) rfl
        (by simp [Expr.Parts, parts, Row, htarget.1]; omega))
  · exact .refuse hs.1

end Productions

lemma gives_expression (levels : Nat) : ∀ least f lo, lo ≤ f.pos → Gives source f
    (Sits source levels lo) (expression source levels least) := by
  induction levels with
  | zero =>
    intro least f lo _
    exact .bind .position fun _ _ _ hplace => .throw (by rintro _ ⟨⟩; exact ⟨hplace, hplace, le_rfl⟩)
  | succ levels ih =>
    intro least f lo hlo
    refine (gives_operand ih).bind fun left f' _ hleft => .bind .remaining fun fuel _ hle _ => ?_
    exact gives_operatorsAfter ih least fuel (Sits.mono ⟨hleft.1, ⟨hleft.2.1.1, by omega⟩, hleft.2.2⟩ hle.1)

lemma parse_gives (source : List Char) : (∀ e, Expr.parse source = .ok e → e.Fits source maxNesting)
    ∧ ∀ err, Expr.parse source = .error err → err.PointsInto source := by
  have ⟨hok, herror⟩ := gives_expression maxNesting 0 _ 0 (Nat.zero_le _)
    (.ofOffset (show IsPlace source 0 by cases source <;> rfl))
  unfold Expr.parse
  cases hrun : (expression source maxNesting 0).run { lexer := Lexer.ofOffset source 0 } with
  | error err =>
    refine ⟨nofun, ?_⟩
    rintro _ ⟨⟩
    exact herror err hrun
  | ok r =>
    obtain ⟨hfeed, -, hfits, -⟩ := hok r.1 r.2 hrun
    have ⟨hnext, hfails⟩ := Gives.next hfeed
    simp only [bind, Except.bind]
    cases hread : Parser.next.run r.2 with
    | error err =>
      refine ⟨nofun, ?_⟩
      rintro _ ⟨⟩
      exact hfails err hread
    | ok r' =>
      dsimp only
      split
      · refine ⟨?_, nofun⟩
        rintro _ ⟨⟩
        exact hfits
      · refine ⟨nofun, ?_⟩
        rintro _ ⟨⟩ _ ⟨⟩
        exact (hnext _ _ hread).2.2.1.spot.1

/-- Whatever is parsed nests at most as deep as the limit says, in the parts that are read anew. -/
theorem parsed_nests {source : List Char} {e : Expr} (h : Expr.parse source = .ok e) {i l : Nat}
    (hpath : e.Path i l) : i ≤ maxNesting :=
  ((parse_gives source).1 e h).nests i l hpath

lemma Row.inside {lo hi : Nat} {spans : List Text.Span} (h : Row lo spans hi) :
    lo ≤ hi ∧ (∀ s ∈ spans, lo ≤ s.start ∧ s.stop ≤ hi) ∧ spans.Pairwise (·.stop ≤ ·.start) := by
  induction spans generalizing lo with
  | nil => exact ⟨h, nofun, .nil⟩
  | cons s spans ih =>
    obtain ⟨hlo, hle, h⟩ := h
    have ⟨hstop, hinside, hpairwise⟩ := ih h
    refine ⟨by omega, forall_mem_cons.2 ⟨⟨hlo, hstop⟩, fun t ht => ?_⟩, .cons (fun t ht => (hinside t ht).1) hpairwise⟩
    have := hinside t ht
    omega

lemma extract?_of_lies {s : Text.Span} (h : Lies source s) : s.stop ≤ Text.byteLength source ∧
    ∃ text, s.extract? source = some text ∧ s.stop = s.start + Text.byteLength text := by
  obtain ⟨start, stop⟩ := s
  obtain ⟨pre, rest, rfl, rfl⟩ := Text.exists_append_of_dropBytes? h.1
  obtain ⟨text, post, rfl, rfl⟩ := Text.exists_append_of_le h.2.1 h.2.2
  refine ⟨?_, text, Text.extract?_append pre text post, rfl⟩
  simp only [Text.byteLength_append]
  omega

/-- Each part of what is parsed takes up some text of the source, which its own parts share one
behind the other. Where parsing fails, the error points at some text of the source. -/
theorem spans_nest_in_source (source : List Char) :
    (∀ e, Expr.parse source = .ok e → ∀ node : Expr, node.Within e →
      (∃ text, text ≠ [] ∧ node.span.extract? source = some text) ∧
      (∀ part ∈ node.form.parts, node.span.start ≤ part.2.span.start ∧ part.2.span.stop ≤ node.span.stop) ∧
      (node.form.parts.map (·.2.span)).Pairwise (·.stop ≤ ·.start)) ∧
    ∀ err s, Expr.parse source = .error err → err.span = some s → (s.extract? source).isSome := by
  have ⟨hfits, hfails⟩ := parse_gives source
  refine ⟨fun e he node hnode => ?_, fun err s herr hs => ?_⟩
  · have ⟨hlies, hlt, hrow⟩ := (hfits e he).placed node hnode
    obtain ⟨-, text, htext, hstop⟩ := extract?_of_lies hlies
    have ⟨_, hinside, hpairwise⟩ := hrow.inside
    refine ⟨⟨text, ?_, htext⟩, fun part hpart => hinside _ (mem_map_of_mem hpart), hpairwise⟩
    rintro rfl
    exact Nat.ne_of_lt hlt hstop.symm
  · obtain ⟨-, text, htext, -⟩ := extract?_of_lies (hfails err herr s hs)
    rw [htext]
    rfl

theorem sum_spans_nest : let e : Expr := .mk ⟨0, 3⟩ (.binary .add (.mk ⟨0, 1⟩ (.ident "a")) (.mk ⟨2, 3⟩ (.ident "b")))
    Expr.parse ['a', '+', 'b'] = .ok e ∧ (∃ text, text ≠ [] ∧ e.span.extract? ['a', '+', 'b'] = some text) ∧
    Expr.parse ['('] = .error (.malformed (.unexpected "end of input") ⟨1, 1⟩) ∧
      (Text.Span.extract? ⟨1, 1⟩ ['(']).isSome :=
  ⟨rfl, ((spans_nest_in_source ['a', '+', 'b']).1 _ rfl _ .refl).1, rfl, (spans_nest_in_source ['(']).2 _ _ rfl rfl⟩

/-- The way down to the first part that is read anew, so many times. -/
def Expr.descend? : Nat → Expr → Option Expr
  | 0, e => some e
  | n + 1, e => (e.form.parts.find? (·.1)).bind fun p => p.2.descend? n

lemma Expr.path_of_descend? {n : Nat} : ∀ {e : Expr}, (e.descend? n).isSome = true → e.Path n 0 := by
  induction n with
  | zero => exact fun _ => .here _
  | succ n ih =>
    intro e h
    rw [descend?] at h
    cases hfind : e.form.parts.find? (·.1) with
    | none => simp [hfind] at h
    | some p =>
      obtain ⟨anew, x⟩ := p
      obtain rfl : anew = true := find?_some hfind
      exact .anew (mem_of_find?_eq_some hfind) (ih (by simpa [hfind] using h))

/-- All levels can be taken. -/
theorem negated_object_nests_to_limit :
    ∃ e, Expr.parse (replicate 63 '!' ++ ['{', 'a', '}']) = .ok e ∧ e.Path maxNesting 0 ∧
      ¬ e.Path (maxNesting + 1) 0 := by
  have hdeep : (Expr.parse (replicate 63 '!' ++ ['{', 'a', '}'])).toOption.any (fun e =>
    (e.descend? 64).isSome) = true := by
    decide +kernel
  cases he : Expr.parse (replicate 63 '!' ++ ['{', 'a', '}']) with
  | error err =>
    rw [he] at hdeep
    cases hdeep
  | ok e =>
    rw [he] at hdeep
    exact ⟨e, rfl, Expr.path_of_descend? hdeep, fun hpath => absurd (parsed_nests he hpath) (Nat.not_succ_le_self _)⟩

/-! Sums, whose summands but the last are no deeper than the limit of nesting knows of. -/

def summand : Operand := .ident ⟨⟨"a", by decide⟩, by decide, by decide⟩

def sum (n : Nat) : Sequence := ⟨summand, replicate n (.binary .add, summand)⟩

lemma tree_sum_succ : (sum (n + 1)).tree = Infix.build (.binary .add) (sum n).tree summand.tree := by
  have hsplit := @grouped_split (sum n).links [] summand (.binary .add) summand
    (fun x hx => Nat.le_of_eq (by rw [eq_of_mem_replicate hx])) nofun nofun
  rw [grouped_nil] at hsplit
  refine Eq.trans ?_ hsplit
  simp [Sequence.tree, sum, replicate_succ']

lemma path_sum : ∀ {e : Expr}, e.bare = (sum n).tree → e.Path 0 n := by
  induction n with
  | zero => exact fun _ => .here _
  | succ n ih =>
    intro e h
    rw [tree_sum_succ] at h
    obtain ⟨span, form⟩ := e
    cases form <;> simp [Expr.bare, bare, Infix.build] at h
    exact .before (.head _) (ih h.2.1)

lemma sum_parsed : ∃ e, Expr.parse (spaced (sum n).words) = .ok e ∧ e.Path 0 n := by
  have htakes := groups_expression (spaced (sum n).words) maxNesting (sum n).first (sum n).links []
    asksFor_zero (fun _ _ => Nat.zero_le _) nofun
  obtain ⟨e, he, htree⟩ | ⟨hdeep, -⟩ := Expr.parse_of_takes htakes ((sum n).spells (spaced_spaced _))
  · exact ⟨e, he, path_sum n htree⟩
  · have hpowers : (sum n).links.powers = 0 := by simp [sum, Links.powers, Infix.isPower]
    rw [hpowers] at hdeep
    exact absurd hdeep (by decide)

/-- No number bounds the height of what is parsed. -/
theorem parsed_height_unbounded :
    ¬ ∃ bound, ∀ source e, Expr.parse source = .ok e → ∀ i l, e.Path i l → i + l ≤ bound := by
  rintro ⟨bound, h⟩
  obtain ⟨e, he, hpath⟩ := sum_parsed (bound + 1)
  have := h _ e he _ _ hpath
  omega

end StoryMarkup.Script
