import StoryMarkup.Text.Table

/-! Sets of characters, as ranges of code points in order and apart. Every set has one such form. -/
namespace StoryMarkup.Text

structure CharSet where
  ranges : Array (Nat × Nat)
deriving DecidableEq, Repr

namespace CharSet

def lastCode : Nat := 0x10FFFF

def empty : CharSet := ⟨#[]⟩

def any : CharSet := ⟨#[(0, lastCode)]⟩

def codes (a b : Nat) : CharSet := ⟨#[(a, b)]⟩

def range (first last : Char) : CharSet := codes first.toNat last.toNat

def single (c : Char) : CharSet := range c c

instance : Inhabited CharSet := ⟨empty⟩

def addRange : List (Nat × Nat) → Nat × Nat → List (Nat × Nat)
  | (a, b) :: done, (c, d) => if c ≤ b + 1 then (a, max b d) :: done else (c, d) :: (a, b) :: done
  | [], r => [r]

def ofRanges (rs : List (Nat × Nat)) : CharSet :=
  ⟨((rs.mergeSort fun r s => r.1 ≤ s.1).foldl addRange []).reverse.toArray⟩

def ofChars (cs : List Char) : CharSet := ofRanges (cs.map fun c => (c.toNat, c.toNat))

def ofTable (text : String) : CharSet := ofRanges (Table.ranges text)

def contains (s : CharSet) (c : Char) : Bool := (Table.lastAtMost? s.ranges c.toNat).any (c.toNat ≤ ·)

def union (s t : CharSet) : CharSet := ofRanges (s.ranges.toList ++ t.ranges.toList)

def unions (ss : List CharSet) : CharSet := ofRanges (ss.flatMap (·.ranges.toList))

def gaps (next : Nat) : List (Nat × Nat) → List (Nat × Nat)
  | [] => if next ≤ lastCode then [(next, lastCode)] else []
  | (a, b) :: rest => if next < a then (next, a - 1) :: gaps (b + 1) rest else gaps (b + 1) rest

def complement (s : CharSet) : CharSet := ⟨(gaps 0 s.ranges.toList).toArray⟩

def meet (s t : CharSet) : CharSet := (s.complement.union t.complement).complement

def minus (s t : CharSet) : CharSet := (s.complement.union t).complement

def apart (s t : CharSet) : CharSet := (s.minus t).union (t.minus s)

def isBelow (s : CharSet) (n : Nat) : Bool := s.ranges.all fun (_, b) => b < n

def isAscii (s : CharSet) : Bool := s.isBelow 128

def only? (s : CharSet) : Option Char :=
  match s.ranges.toList with
  | [(a, b)] => if a == b then some (Char.ofNat a) else none
  | _ => none

end CharSet
end StoryMarkup.Text
