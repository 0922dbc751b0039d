import StoryMarkup.Text.CharSet

/-! How many states it takes to recognise a set of characters byte by byte. -/
namespace StoryMarkup.Pattern

open Text (CharSet)

abbrev ByteRange := Nat × Nat

def encode (n : Nat) : List Nat :=
  let tail (shift : Nat) : Nat := 0x80 + n / Nat.pow 2 shift % 64
  if n < 0x80 then [n]
  else if n < 0x800 then [0xC0 + n / Nat.pow 2 6, tail 0]
  else if n < 0x10000 then [0xE0 + n / Nat.pow 2 12, tail 6, tail 0]
  else [0xF0 + n / Nat.pow 2 18, tail 12, tail 6, tail 0]

def lengthCut? (a b : Nat) : Option Nat :=
  [0x7F, 0x7FF, 0xFFFF].find? fun n => a ≤ n && n < b

/-- Where a range has to be divided so that the last `i` bytes take all their values or the bytes
before them stay the same. -/
def tailCut? (a b i : Nat) : Option Nat :=
  let m := Nat.pow 2 (6 * i)
  if a / m == b / m then none
  else if a % m != 0 then some (a / m * m + m - 1)
  else if b % m != m - 1 then some (b / m * m - 1)
  else none

/-- The pieces of a range whose encodings are products of byte ranges. Surrogates are left out. -/
def pieces : Nat → Nat → Nat → List (Nat × Nat)
  | 0, _, _ => []
  | fuel + 1, a, b =>
    if a > b then []
    else if a < 0xE000 && b > 0xD7FF then pieces fuel a 0xD7FF ++ pieces fuel 0xE000 b
    else
      let cut := match lengthCut? a b with
        | some n => some n
        | none => if b < 0x80 then none else [1, 2, 3].findSome? (tailCut? a b)
      match cut with
      | some n => pieces fuel a n ++ pieces fuel (n + 1) b
      | none => [(a, b)]

def byteRanges (s : CharSet) : List (List ByteRange) :=
  s.ranges.toList.flatMap fun (a, b) => (pieces 64 a b).map fun (c, d) => (encode c).zip (encode d)

def groupFirst : List (List ByteRange) → List (ByteRange × List (List ByteRange))
  | [] => []
  | [] :: rest => groupFirst rest
  | (r :: tail) :: rest =>
    match groupFirst rest with
    | (q, tails) :: groups => if r == q then (q, tail :: tails) :: groups else (r, [tail]) :: (q, tails) :: groups
    | [] => [(r, [tail])]

def edgeCount : Nat → List (List ByteRange) → Nat
  | 0, _ => 0
  | depth + 1, seqs => ((groupFirst seqs).map fun (_, tails) => edgeCount depth tails + 1).sum

/-- A state by its transitions: byte ranges with the number of the state they lead to, zero for the
end. -/
abbrev Transitions := List (ByteRange × Nat)

def shareState (t : Transitions) : StateM (Array Transitions) Nat := do
  match (← get).findIdx? (· == t) with
  | some i => return i + 1
  | none =>
    modify (·.push t)
    return (← get).size

def shareStates : Nat → List (List ByteRange) → StateM (Array Transitions) Nat
  | 0, _ => return 0
  | depth + 1, seqs => do
    let t ← (groupFirst seqs).mapM fun (r, tails) => do
      if tails.all List.isEmpty then return (r, 0) else return (r, ← shareStates depth tails)
    shareState t

def forwardStates (s : CharSet) : Array Transitions := ((shareStates 4 (byteRanges s)).run #[]).2

end StoryMarkup.Pattern
