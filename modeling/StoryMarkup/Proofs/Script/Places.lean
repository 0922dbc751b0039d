import StoryMarkup.Proofs.Script.Dissection

/-! Where the lexer fails, it points at a part of the source. -/
namespace StoryMarkup.Script

open Text
variable {source t : List Char} {k k' : Cursor} {start n fuel levels : Nat} {e : ScriptError} {c : Char} {α : Type}

/-- A place between two characters of a source, at its start or at its end. -/
def IsPlace (source : List Char) (n : Nat) : Prop := (dropBytes? source n).isSome = true

/-- A part of a source, from one place to another. -/
abbrev Lies (source : List Char) (s : Span) : Prop := IsPlace source s.start ∧ IsPlace source s.stop ∧ s.start ≤ s.stop

def ScriptError.PointsInto (source : List Char) (e : ScriptError) : Prop := ∀ s ∈ e.span, Lies source s

def InSource (source : List Char) (k : Cursor) : Prop := ∃ pre, source = pre ++ k.rest ∧ k.pos = byteLength pre

lemma InSource.isPlace (h : InSource source k) : IsPlace source k.pos := by
  obtain ⟨pre, rfl, hpos⟩ := h
  simp [IsPlace, hpos, dropBytes?_append]

/-- A scanner that began at a place has come to the cursor. -/
structure Reaches (source : List Char) (start : Nat) (k : Cursor) : Prop where
  isPlace : IsPlace source start
  le : start ≤ k.pos
  here : InSource source k

namespace Reaches

lemma refl (h : InSource source k) : Reaches source k.pos k := ⟨h.isPlace, le_rfl, h⟩

lemma between (h : Reaches source start k) (hmoved : Between k t k') : Reaches source start k' := by
  obtain ⟨pre, hsource, hpos⟩ := h.here
  refine ⟨h.isPlace, hmoved.pos ▸ Nat.le_add_right_of_le h.le, pre ++ t, ?_, ?_⟩
  · rw [hsource, hmoved.rest, List.append_assoc]
  · rw [hmoved.pos, hpos, byteLength_append]

@[grind →] lemma next? (h : Reaches source start k) (hnext : k.next? = some (c, k')) : Reaches source start k' :=
  h.between (.of_next? hnext)

lemma skip (h : Reaches source start k) : Reaches source start (k.skip n) :=
  h.between ⟨(List.take_append_drop n k.rest).symm, rfl⟩

grind_pattern skip => Reaches source start k, k.skip n

lemma points {cause : Cause} (h : Reaches source start k) :
    ScriptError.PointsInto source ⟨cause, some ⟨start, k.pos⟩⟩ := by
  rintro _ ⟨⟩
  exact ⟨h.isPlace, h.here.isPlace, h.le⟩

grind_pattern points => Reaches source start k, ScriptError.mk cause (some ⟨start, k.pos⟩)

@[grind →] lemma fail {problem : SyntaxProblem} (h : Reaches source start k)
    (hfail : (fail problem start k : Except ScriptError α) = .error e) : e.PointsInto source := by
  cases hfail
  exact h.points

lemma hexDigits {count : Nat} (h : Reaches source start k) : Reaches source start (scanHexDigits count k).2 := by
  grind [scanHexDigits]

lemma bracedDigits (h : Reaches source start k) : Reaches source start (scanBracedDigits k).2 := by
  have hafter := h.between (.skipWhile isAsciiHexDigit k)
  grind [scanBracedDigits]

grind_pattern hexDigits => Reaches source start k, scanHexDigits count k
grind_pattern bracedDigits => Reaches source start k, scanBracedDigits k

@[grind →] lemma escape (h : Reaches source start k) (he : scanEscape start k = .error e) : e.PointsInto source := by
  grind [scanEscape]

@[grind →] lemma escaped {cs : List Char} (h : Reaches source start k)
    (hescape : scanEscape start k = .ok (cs, k')) : Reaches source start k' := by
  obtain ⟨t, -, -, hmoved, -⟩ := exists_reads_scanEscape hescape
  exact h.between hmoved

@[grind →] lemma stringBody {quote : Char} {done : List Char} (h : Reaches source start k)
    (he : scanStringBody quote start fuel done k = .error e) : e.PointsInto source := by
  fun_induction scanStringBody quote start fuel done k <;> grind

@[grind →] lemma patternBody {inClass : Bool} {done : List Char} (h : Reaches source start k)
    (he : scanPatternBody start fuel inClass done k = .error e) : e.PointsInto source := by
  fun_induction scanPatternBody start fuel inClass done k <;> grind

@[grind →] lemma blockComment {newlines : Nat} (h : Reaches source start k)
    (he : scanBlockComment start fuel newlines k = .error e) : e.PointsInto source := by
  fun_induction scanBlockComment start fuel newlines k <;> grind

lemma number (h : Reaches source k.pos k) (he : scanNumber k = .error e) : e.PointsInto source := by
  grind [scanNumber, scanNumber.decimal]

end Reaches

def HolesPoint (source : List Char) (levels : Nat) : Prop :=
  ∀ {start k e}, Reaches source start k → holeEndAt levels start k = .error e → e.PointsInto source

namespace HolesPoint

variable {keep : Bool} {lx after : Lexer} {token : Token} (hholes : HolesPoint source levels)
include hholes

lemma templateBody {parts : List TemplatePart} {done : List Char} (h : Reaches source start k)
    (he : scanTemplateBody (holeEndAt levels) start fuel parts done k = .error e) : e.PointsInto source := by
  have hend {k after} (h : Reaches source start k) (hend : holeEndAt levels start k = .ok after) :
    Reaches source start after := by
    obtain ⟨x, -, -, -, hmoved⟩ := holesRead levels _ _ _ hend
    exact h.between hmoved
  fun_induction scanTemplateBody (holeEndAt levels) start fuel parts done k <;> grind [HolesPoint]

lemma kind {p : Bool} (h : InSource source k) (he : scanKind (holeEndAt levels) p c k = .error e) :
    e.PointsInto source := by
  have hk := Reaches.refl h
  unfold scanKind at he
  grind [scanPattern, scanOperator, hk.number, hholes.templateBody]

lemma scanWith (h : InSource source lx.cursor)
    (he : lx.scanWith (holeEndAt levels) keep fuel = .error e) : e.PointsInto source := by
  induction fuel generalizing lx with
  | zero => cases he
  | succ fuel ih =>
    have hk := (Reaches.refl h).between (.skipWhile isBlank lx.cursor)
    have hcomment {newlines k'} (hcomment : scanComment? (lx.cursor.skipWhile isBlank) =
      some (.ok (newlines, k'))) : InSource source k' := by
      obtain ⟨t, hmoved, -⟩ := exists_comment hcomment
      exact (hk.between hmoved).here
    grind [Lexer.scanWith, scanComment?, hholes.kind hk.here, Reaches.refl hk.here]

lemma scan (h : InSource source lx.cursor) (he : lx.scan keep levels = .error e) : e.PointsInto source :=
  hholes.scanWith h ((scan_eq keep levels lx).symm.trans he)

end HolesPoint

/-- What the lexer reads in the source lies there, and so does the place where it stands then. -/
lemma Reaches.scans {keep : Bool} {lx after : Lexer} {token : Token}
    (h : Reaches source start lx.cursor) (hscans : Scans keep levels lx token after) :
    Lies source token.span ∧ after.cursor.pos = token.span.stop ∧ Reaches source start after.cursor := by
  obtain ⟨gap, text, hcovers⟩ := hscans.covers
  have hstart : Reaches source start ⟨token.span.start, text ++ after.cursor.rest⟩ :=
    h.between ⟨hcovers.rest, hcovers.start⟩
  have hafter : Reaches source start after.cursor := hstart.between ⟨rfl, hcovers.pos.trans hcovers.stop⟩
  exact ⟨⟨hstart.here.isPlace, hcovers.pos ▸ hafter.here.isPlace, hcovers.stop ▸ Nat.le_add_right
    _ _⟩, hcovers.pos, hafter⟩

lemma HolesPoint.findHoleEnd {lx : Lexer} {depth : Nat} (hholes : HolesPoint source levels)
    (h : Reaches source start lx.cursor) (he : Lexer.findHoleEnd (Lexer.scan false levels) start
    fuel depth lx = .error e) : e.PointsInto source := by
  induction fuel generalizing depth lx with
  | zero => exact h.fail he
  | succ fuel ih =>
    have hafter {token after} (hscan : lx.scan false levels = .ok (token, after)) :=
      h.scans ((holesRead levels).scans hscan)
    grind [Lexer.findHoleEnd, hholes.scan h.here, ScriptError.malformed]

lemma holesPoint (source : List Char) (levels : Nat) : HolesPoint source levels := by
  induction levels with
  | zero =>
    rintro start k _ h ⟨⟩
    exact h.points
  | succ levels ih => exact fun h => ih.findHoleEnd h

end StoryMarkup.Script
