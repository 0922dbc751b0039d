import Mathlib.Tactic.Lemma
import StoryMarkup.Script.Expr

/-!
The parts of expressions: those right below, and all the forms that an expression is made of.
-/
namespace StoryMarkup.Script

def Segment.hole? : Segment → Option Expr
  | .text _ => none
  | .hole e => some e

def Field.values : Field → List Expr
  | .named _ value => [value]
  | .computed key value => [key, value]

def Form.parts : Form → List (Bool × Expr)
  | .template segments => (segments.filterMap Segment.hole?).map (true, ·)
  | .array items => items.map (true, ·)
  | .object fields => (fields.flatMap Field.values).map (true, ·)
  | .spread inner => [(false, inner)]
  | .member target _ _ => [(false, target)]
  | .index target key _ => [(false, target), (true, key)]
  | .call callee args _ => (false, callee) :: args.map (true, ·)
  | .unary _ operand => [(true, operand)]
  | .update _ before target => [(before, target)]
  | .binary _ left right | .logical _ left right => [(false, left), (true, right)]
  | .conditional test yes no => [(false, test), (true, yes), (true, no)]
  | .assign _ target value => [(false, target), (true, value)]
  | .arrow _ body => [(true, body)]
  | .undefined | .null | .bool _ | .number _ | .string _ | .pattern _ _ | .ident _ => []

def Form.literals : Form → List String
  | .string s => [s]
  | .pattern source flags => [source, flags]
  | _ => []

def Form.isArrow : Form → Bool
  | .arrow .. => true
  | _ => false

namespace Expr

inductive Has (form : Form) : Bool → Expr → Prop
  | here {span : Text.Span} : Has form false (.mk span form)
  | within {span : Text.Span} {outer : Form} {part : Bool × Expr} {inside : Bool} (hpart : part ∈ outer.parts)
    (h : Has form inside part.2) : Has form (outer.isArrow || inside) (.mk span outer)

/-- What is said of a form, and of whether it stands in the body of an arrow function, holds of all
forms that an expression in such a place is made of. -/
def Each (p : Bool → Form → Prop) (inside : Bool) (e : Expr) : Prop := ∀ deeper form,
    Has form deeper e → p (inside || deeper) form

variable {p : Bool → Form → Prop} {inside : Bool} {span : Text.Span} {form : Form}

lemma each_mk : (Expr.mk span form).Each p inside ↔ p inside form ∧
    ∀ part ∈ form.parts, part.2.Each p (form.isArrow || inside) := by
  constructor
  · intro h
    refine ⟨by simpa using h false form .here, fun part hpart deeper form' hform' => ?_⟩
    have hp := h _ form' (.within hpart hform')
    rwa [← Bool.or_assoc, Bool.or_comm inside] at hp
  · rintro ⟨hform, hparts⟩ deeper form' h
    cases h with
    | here => simpa using hform
    | within hpart h =>
      have hp := hparts _ hpart _ form' h
      rwa [Bool.or_comm _ inside, Bool.or_assoc] at hp

/-- An expression is within itself, and within every expression that it is a part of. -/
inductive Within (e : Expr) : Expr → Prop
  | refl : Within e e
  | part {span : Text.Span} {outer : Form} {part : Bool × Expr} (hpart : part ∈ outer.parts) (h : Within e part.2) :
    Within e (.mk span outer)

def SpansIn (located : Text.Span → Prop) (e : Expr) : Prop := ∀ part : Expr, part.Within e → located part.span

lemma spansIn_mk {located : Text.Span → Prop} : (Expr.mk span form).SpansIn located ↔
    located span ∧ ∀ part ∈ form.parts, part.2.SpansIn located := by
  constructor
  · exact fun h => ⟨h _ .refl, fun part hpart e he => h e (.part hpart he)⟩
  · rintro ⟨hspan, hparts⟩ e he
    cases he with
    | refl => exact hspan
    | part hpart he => exact hparts _ hpart e he

end Expr
end StoryMarkup.Script
