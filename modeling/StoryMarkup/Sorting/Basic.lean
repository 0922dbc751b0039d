import StoryMarkup.Sorting.Runs

/-! The stable sort of lists: short lists by insertion, others by runs and by pivots where there is
no order. -/
namespace StoryMarkup.Sorting

variable {α : Type}

def median (item : Nat → α) (i j k : Nat) : Asking α Nat := do
  let x ← less (item i) (item j)
  let y ← less (item i) (item k)
  if x != y then return i
  let z ← less (item j) (item k)
  return if z == x then j else k

def medianOfMedians (item : Nat → α) (i j k n : Nat) : Asking α Nat := do
  if _h : n < 8 then median item i j k
  else
    let m := n / 8
    let i ← medianOfMedians item i (i + m * 4) (i + m * 7) m
    let j ← medianOfMedians item j (j + m * 4) (j + m * 7) m
    let k ← medianOfMedians item k (k + m * 4) (k + m * 7) m
    median item i j k
termination_by n

def pivotPosition (first : α) (items : Array α) : Asking α Nat :=
  let item (i : Nat) := items.getD i first
  let m := items.size / 8
  if items.size < 64 then median item 0 (m * 4) (m * 7)
  else medianOfMedians item 0 (m * 4) (m * 7) m

def divide (test : α → Asking α Bool) : List α → List α × List α → Asking α (List α × List α)
  | [], parts => return parts
  | v :: rest, (yes, no) => do
    if ← test v then divide test rest (v :: yes, no) else divide test rest (yes, v :: no)

structure Pivoted (α : Type) where
  before : List α
  pivot : α
  after : List α

def Pivoted.divideLess (p : Pivoted α) : Asking α (List α × List α) := do
  let test (v : α) := less v p.pivot
  let (yes, no) ← divide test p.before ([], [])
  let (yes, no) ← divide test p.after (yes, p.pivot :: no)
  return (yes.reverse, no.reverse)

def Pivoted.divideNotGreater (p : Pivoted α) : Asking α (List α × List α) := do
  let test (v : α) := do return !(← less p.pivot v)
  let (yes, no) ← divide test p.before ([], [])
  let (yes, no) ← divide test p.after (p.pivot :: yes, no)
  return (yes.reverse, no.reverse)

def isFloor (floor : Option α) (pivot : α) : Asking α Bool :=
  match floor with
  | some v => do return !(← less v pivot)
  | none => return false

/-- Sort by partition, `limit` times deep, and beyond that by runs. No item is less than the item
`floor`; a pivot that equals it is the least, so the items equal to it are set apart. -/
def partitionSort : Nat → Option α → List α → Asking α (List α)
  | 0, _, items => if items.length ≤ smallLength then smallSort items else sortRuns smallSort true items
  | limit + 1, floor, items => do
    if items.length ≤ smallLength then return ← smallSort items
    let first :: _ := items | return items
    let position ← pivotPosition first items.toArray
    let pivot := items.getD position first
    let p : Pivoted α := ⟨items.take position, pivot, items.drop (position + 1)⟩
    let (lower, upper) ← if ← isFloor floor pivot then pure ([], items) else p.divideLess
    if lower.isEmpty then
      let (equal, greater) ← p.divideNotGreater
      return equal ++ (← partitionSort limit none greater)
    else
      let upper ← partitionSort limit (some pivot) upper
      return (← partitionSort limit floor lower) ++ upper

def insertionLength : Nat := 20

def sort (items : List α) : Asking α (List α) :=
  if items.length ≤ insertionLength then insertionSort items
  else sortRuns (fun part => partitionSort (2 * part.length.log2) none part) (items.length ≤ 2 * smallLength) items

end StoryMarkup.Sorting
