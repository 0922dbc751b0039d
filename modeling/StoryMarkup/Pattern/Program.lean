import StoryMarkup.Pattern.Tree

/-! Patterns as programs. Where a step splits, the first branch is preferred. Code is laid out from
the end. -/
namespace StoryMarkup.Pattern

inductive Step where
  | take (s : Text.CharSet) (next : Nat)
  | split (first second : Nat)
  | check (l : Look) (next : Nat)
  | save (slot next : Nat)
  | done
deriving Repr

instance : Inhabited Step := ⟨.done⟩

abbrev Code := Array Step

def Code.add (code : Code) (step : Step) : Nat × Code := (code.size, code.push step)

def branch (greedy : Bool) (body after : Nat) : Step := if greedy then .split body after else .split after body

abbrev Layout := Nat → Code → Nat × Code

namespace Layout

def exactly (body : Layout) : Nat → Layout
  | 0, after, code => (after, code)
  | n + 1, after, code =>
    let (next, code) := body after code
    exactly body n next code

def atMost (greedy : Bool) (body : Layout) : Nat → Layout
  | 0, after, code => (after, code)
  | n + 1, after, code =>
    let (more, code) := atMost greedy body n after code
    let (start, code) := body more code
    code.add (branch greedy start after)

def oneOrMore (greedy : Bool) (body : Layout) : Layout := fun after code =>
  let (loop, code) := code.add (.split after after)
  let (start, code) := body loop code
  (start, code.setIfInBounds loop (branch greedy start after))

def star (greedy : Bool) (body : Layout) : Layout := fun after code =>
  let (loop, code) := code.add (.split after after)
  let (start, code) := body loop code
  (loop, code.setIfInBounds loop (branch greedy start after))

def optional (greedy : Bool) (body : Layout) : Layout := fun after code =>
  let (start, code) := body after code
  code.add (branch greedy start after)

/-- A repetition. A part that may take nothing is repeated as an optional run of one or more, so
that going round without taking anything is never preferred. -/
def times (least : Nat) (most : Option Nat) (greedy consumes : Bool) (body : Layout) : Layout := fun after code =>
  match most, least with
  | none, 0 => if consumes then star greedy body after code else optional greedy (oneOrMore greedy body) after code
  | none, n + 1 =>
    let (start, code) := oneOrMore greedy body after code
    exactly body n start code
  | some m, n =>
    let (start, code) := atMost greedy body (m - n) after code
    exactly body n start code

end Layout

def Tree.layout : Tree → Layout
  | .empty, after, code => (after, code)
  | .set s, after, code => code.add (.take s after)
  | .look l, after, code => code.add (.check l after)
  | .group index body, after, code =>
    let (stop, code) := code.add (.save (2 * index + 1) after)
    let (start, code) := body.layout stop code
    code.add (.save (2 * index) start)
  | .times least most greedy body, after, code =>
    Layout.times least most greedy body.consumes body.layout after code
  | .seq a b, after, code =>
    let (second, code) := b.layout after code
    a.layout second code
  | .alt a b, after, code =>
    let (second, code) := b.layout after code
    let (first, code) := a.layout after code
    code.add (.split first second)

structure Program where
  code : Code
  start : Nat
  slots : Nat

def Program.ofTree (t : Tree) : Program :=
  let (start, code) := (Tree.group 0 t).layout 0 #[.done]
  ⟨code, start, 2 * (t.lastGroup + 1)⟩

end StoryMarkup.Pattern
