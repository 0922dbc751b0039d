import StoryMarkup.Pattern.Encoding
import StoryMarkup.Pattern.Tree

/-! The size of a pattern: the bytes that the states of its automaton over bytes take. -/
namespace StoryMarkup.Pattern

open Text (CharSet)

def stateBytes : Nat := 32

def rangeBytes : Nat := 8

def choiceBytes : Nat := 4

inductive Direction where
  | forward
  | backward
deriving DecidableEq, Repr

def setSize (d : Direction) (s : CharSet) : Nat :=
  match s.only? with
  | some c => stateBytes * c.utf8Size
  | none =>
    if s.isAscii then 2 * stateBytes + rangeBytes * s.ranges.size
    else match d with
      | .forward => (forwardStates s).foldl (fun n t => n + stateBytes + rangeBytes * t.length) stateBytes
      | .backward =>
        let seqs := byteRanges s
        (2 + edgeCount 4 seqs) * stateBytes + choiceBytes * seqs.length

/-- A bound on the number of pieces of a range: with `k` bytes to a character there are at most two
for every byte but the first, and one between them. -/
def pieceBound (a b : Nat) : Nat :=
  if a / 64 == b / 64 then 1
  else if 0x80 ≤ a && b < 0x800 then 3
  else if 0x800 ≤ a && b < 0xD800 then 5
  else if 0x10000 ≤ a then 7
  else 24

def setBound (s : CharSet) : Nat :=
  s.ranges.foldl (fun n (a, b) => n + pieceBound a b * (4 * stateBytes + choiceBytes)) (4 * stateBytes)

def timesSize (n : Nat) (consumes : Bool) (least : Nat) (most : Option Nat) : Nat :=
  match most, least with
  | none, 0 => if consumes then n + stateBytes + 2 * choiceBytes else n + 3 * stateBytes + 4 * choiceBytes
  | none, _ => least * n + stateBytes + 2 * choiceBytes
  | some m, _ => if m == least then m * n else m * n + stateBytes + (m - least) * (stateBytes + 2 * choiceBytes)

namespace Tree

def sizeWith (set : CharSet → Nat) (group : Nat) : Tree → Nat
  | .empty => stateBytes
  | .set s => set s
  | .look _ => stateBytes
  | .group _ body => group + body.sizeWith set group
  | .times least most _ body => timesSize (body.sizeWith set group) body.consumes least most
  | .seq a b => a.sizeWith set group + b.sizeWith set group
  | .alt a b =>
    let ends := if b matches .alt .. then 0 else 2 * stateBytes + choiceBytes
    a.sizeWith set group + b.sizeWith set group + choiceBytes + ends

def size (t : Tree) : Direction → Nat
  | .forward => t.sizeWith (setSize .forward) (2 * stateBytes)
  | .backward => t.sizeWith (setSize .backward) 0

def maxSize : Nat := 10 * Nat.pow 2 20

/-- Whether a tree fits in both directions. Most trees fit by far, which the bound shows without
counting the states of their sets. -/
def fits (t : Tree) : Bool :=
  t.sizeWith setBound (2 * stateBytes) ≤ maxSize || (t.size .forward ≤ maxSize && t.size .backward ≤ maxSize)

end Tree
end StoryMarkup.Pattern
