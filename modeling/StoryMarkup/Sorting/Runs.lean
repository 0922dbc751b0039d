import StoryMarkup.Sorting.Small

/-! Sorting by runs, stretches that are sorted or are put off. They are joined along a balanced
tree. -/
namespace StoryMarkup.Sorting

variable {α : Type}

structure Run (α : Type) where
  items : List α
  sorted : Bool

/-- How many items continue a run that ends in `x`, where `n` are known to; `down` says whether
every item must be less than the one before it. -/
def runLength (down : Bool) : Nat → α → List α → Asking α Nat
  | n, _, [] => return n
  | n, x, y :: rest => do if (← less y x) == down then runLength down (n + 1) y rest else return n

def firstRun : List α → Asking α (Nat × Bool)
  | x :: y :: rest => do
    let down ← less y x
    return (← runLength down 2 y rest, down)
  | items => return (items.length, false)

/-- The sorted stretch at the start of the list, if it has at least `good` items, and the items
after it. -/
def naturalRun? (good : Nat) (items : List α) : Asking α (Option (Run α × List α)) := do
  if items.length < good then return none
  let (n, down) ← firstRun items
  if n < good then return none
  let run := items.take n
  return some (⟨if down then run.reverse else run, true⟩, items.drop n)

/-- The next run and the items after it. Where no long enough run stands, an eager sort makes a
short sorted one, and the other puts `good` items off. -/
def nextRun (eager : Bool) (good : Nat) (items : List α) : Asking α (Run α × List α) := do
  match ← naturalRun? good items with
  | some found => return found
  | none =>
    if eager then return (⟨← smallSort (items.take smallLength), true⟩, items.drop smallLength)
    else return (⟨items.take good, false⟩, items.drop good)

def Run.settle (sort : List α → Asking α (List α)) (r : Run α) : Asking α (List α) :=
  if r.sorted then return r.items else sort r.items

def Run.join (sort : List α → Asking α (List α)) (left right : Run α) : Asking α (Run α) := do
  if left.sorted || right.sorted then
    let l ← left.settle sort
    let r ← right.settle sort
    return ⟨← merge l r, true⟩
  else return ⟨left.items ++ right.items, false⟩

def rootEstimate (n : Nat) : Nat :=
  let shift := (1 + n.log2) / 2
  (Nat.pow 2 shift + n / Nat.pow 2 shift) / 2

def goodLength (size : Nat) : Nat :=
  if size ≤ 64 * 64 then min (size - size / 2) 64 else rootEstimate size

/-- The depth, in a binary tree over a list of `size` items, of the node that joins the run from
`start` to `middle` with the run from there to `stop`: where the binary fractions of the two runs'
centres first differ. -/
def joinDepth (size start middle stop : Nat) : Nat :=
  let scale := (Nat.pow 2 62 + size - 1) / size
  let difference := (scale * (start + middle)) ^^^ (scale * (middle + stop))
  if difference == 0 then 64 else 63 - difference.log2

def joinDeeper (sort : List α → Asking α (List α)) (depth : Nat) :
    List (Run α × Nat) → Run α → Asking α (List (Run α × Nat) × Run α)
  | [], last => return ([], last)
  | (run, d) :: stack, last => do
    if depth ≤ d then joinDeeper sort depth stack (← run.join sort last) else return ((run, d) :: stack, last)

/-- Go on from position `done`, which the run `last` reaches; the stack holds the runs before it,
each with the depth of its joint to the next. -/
def joinRuns (sort : List α → Asking α (List α)) (eager : Bool) (size : Nat) :
    Nat → List (Run α × Nat) → Run α → Nat → List α → Asking α (List α)
  | fuel + 1, stack, last, done, x :: rest => do
    let (run, rest) ← nextRun eager (goodLength size) (x :: rest)
    let stop := done + run.items.length
    let depth := joinDepth size (done - last.items.length) done stop
    let (stack, last) ← joinDeeper sort depth stack last
    joinRuns sort eager size fuel ((last, depth) :: stack) run stop rest
  | _, stack, last, _, rest => do
    let (_, whole) ← joinDeeper sort 0 stack last
    return (← whole.settle sort) ++ rest

def sortRuns (sort : List α → Asking α (List α)) (eager : Bool) (items : List α) : Asking α (List α) := do
  if items.length < 2 then return items
  let (run, rest) ← nextRun eager (goodLength items.length) items
  joinRuns sort eager items.length items.length [] run run.items.length rest

end StoryMarkup.Sorting
