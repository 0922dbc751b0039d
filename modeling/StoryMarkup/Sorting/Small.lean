import StoryMarkup.Sorting.Merge

/-! Sorting short lists: by insertion, or as two halves that are sorted by insertion and merged. -/
namespace StoryMarkup.Sorting

variable {α : Type}

/-- Put an item into a sorted list that is given last item first: behind the items it is not less
than. -/
def insertBackward (v : α) : List α → Asking α (List α)
  | [] => return [v]
  | w :: rest => do
    if ← less v w then return w :: (← insertBackward v rest) else return v :: w :: rest

def insertAll (sorted items : List α) : Asking α (List α) := do
  return (← items.foldlM (fun done v => insertBackward v done) sorted.reverse).reverse

def insertionSort (items : List α) : Asking α (List α) := insertAll [] items

/-- Four items in order: the pairs first, then the least and the greatest of all, then the two
between them, of which the one that stood further left is known. -/
def sortFour (p q r s : α) : Asking α (List α) := do
  let (a, b) := if ← less q p then (q, p) else (p, q)
  let (c, d) := if ← less s r then (s, r) else (r, s)
  let firstIsC ← less c a
  let lastIsB ← less d b
  let (first, x, y, last) := match firstIsC, lastIsB with
    | false, false => (a, b, c, d)
    | false, true => (a, c, d, b)
    | true, false => (c, a, b, d)
    | true, true => (c, a, d, b)
  if ← less y x then return [first, y, x, last] else return [first, x, y, last]

def sortStart (byFour : Bool) : List α → Asking α (List α × List α)
  | p :: q :: r :: s :: rest => do
    if byFour then return (← sortFour p q r s, rest) else return ([p], q :: r :: s :: rest)
  | p :: rest => return ([p], rest)
  | [] => return ([], [])

def fourLength : Nat := 8

def smallSort (items : List α) : Asking α (List α) := do
  if items.length < 2 then return items
  let byFour := fourLength ≤ items.length
  let half := items.length / 2
  let (left, leftRest) ← sortStart byFour (items.take half)
  let (right, rightRest) ← sortStart byFour (items.drop half)
  let left ← insertAll left leftRest
  let right ← insertAll right rightRest
  mergeHalves left right

def smallLength : Nat := 32

end StoryMarkup.Sorting
