/-!
Computations that ask for comparisons, run with any way of comparing two items, and the merging of
two sorted lists. Of equal items those of the left list come first.
-/
namespace StoryMarkup.Sorting

/-- A result that depends on the answers to questions whether one item is less than another. -/
inductive Asking (α β : Type) where
  | done (result : β)
  | ask (x y : α) (next : Bool → Asking α β)

variable {α β γ : Type}

namespace Asking

def bind : Asking α β → (β → Asking α γ) → Asking α γ
  | .done r, f => f r
  | .ask x y next, f => .ask x y fun b => (next b).bind f

instance : Monad (Asking α) where
  pure := .done
  bind := bind

def run {m : Type → Type} [Monad m] (less : α → α → m Bool) : Asking α β → m β
  | .done r => pure r
  | .ask x y next => do (next (← less x y)).run less

def All (p : β → Prop) : Asking α β → Prop
  | .done r => p r
  | .ask _ _ next => ∀ b, (next b).All p

end Asking

def less (x y : α) : Asking α Bool := .ask x y .done

structure Merging (α : Type) where
  left : List α
  right : List α
  taken : List α := []

namespace Merging

def rightIsLess (m : Merging α) : Asking α Bool :=
  match m.left, m.right with
  | x :: _, y :: _ => less y x
  | _, _ => return false

def takeRight (m : Merging α) : Merging α :=
  match m.right with
  | y :: rest => ⟨m.left, rest, y :: m.taken⟩
  | [] => m

def takeLeft (m : Merging α) : Merging α :=
  match m.left with
  | x :: rest => ⟨rest, m.right, x :: m.taken⟩
  | [] => m

def takeLesser (m : Merging α) : Asking α (Merging α) := do
  if ← m.rightIsLess then return m.takeRight else return m.takeLeft

def takeGreater (m : Merging α) : Asking α (Merging α) := do
  if ← m.rightIsLess then return m.takeLeft else return m.takeRight

def isOver (m : Merging α) : Bool := m.left.isEmpty || m.right.isEmpty

def exhaust (step : Merging α → Asking α (Merging α)) : Nat → Merging α → Asking α (Merging α)
  | 0, m => return m
  | fuel + 1, m => do if m.isOver then return m else exhaust step fuel (← step m)

end Merging

def merge (left right : List α) : Asking α (List α) := do
  let size := left.length + right.length
  if left.length ≤ right.length then
    let m ← Merging.exhaust Merging.takeLesser size ⟨left, right, []⟩
    return m.taken.reverse ++ m.left ++ m.right
  else
    let m ← Merging.exhaust Merging.takeGreater size ⟨left.reverse, right.reverse, []⟩
    return m.left.reverse ++ m.right.reverse ++ m.taken

def mergeEnds : Nat → Merging α → Merging α → Asking α (Merging α × Merging α)
  | 0, front, back => return (front, back)
  | n + 1, front, back => do
    let front ← front.takeLesser
    let back ← back.takeGreater
    mergeEnds n front back

/-- Merge two sorted halves from both ends until the ends meet. Both ends take from the same items;
if answers that contradict each other make them take an item twice, the halves stay as they are. -/
def mergeHalves (left right : List α) : Asking α (List α) := do
  let (front, back) ← mergeEnds left.length ⟨left, right, []⟩ ⟨left.reverse, right.reverse, []⟩
  let leftOver := front.left.length + back.left.length
  let rightOver := front.right.length + back.right.length
  if left.length ≤ leftOver && right.length ≤ rightOver then
    return front.taken.reverse ++ front.left.take (leftOver - left.length)
      ++ front.right.take (rightOver - right.length) ++ back.taken
  else return left ++ right

end StoryMarkup.Sorting
