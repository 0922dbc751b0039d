/-! The name that was probably meant: the closest of several by edit distance. -/
namespace StoryMarkup.Text

/-- The next row of the distance table, for one more character `a` of the first text. The first
entry of a row is the distance to the empty text. -/
def distanceRow (a : Char) : List Char → List Nat → Nat → List Nat
  | b :: bs, diagonal :: above :: row, left =>
    let here := min (min (left + 1) (above + 1)) (if a == b then diagonal else diagonal + 1)
    here :: distanceRow a bs (above :: row) here
  | _, _, _ => []

def distanceFrom (target : List Char) : List Char → List Nat → List Nat
  | [], row => row
  | a :: rest, row =>
    let first := row.headD 0 + 1
    distanceFrom target rest (first :: distanceRow a target row first)

def editDistance (s t : String) : Nat :=
  (distanceFrom t.toList s.toList (List.range (t.toList.length + 1))).getLastD 0

/-- The first candidate of least distance, among those other than the target that are within a third
of its length, or within two. -/
def nearest? (target : String) (candidates : List String) : Option String :=
  let limit := max (target.length / 3) 2
  let close := candidates.filterMap fun c =>
    if c == target then none
    else
      let d := editDistance target c
      if d ≤ limit then some (c, d) else none
  (close.foldl (fun best p => match best with
    | some (b : String × Nat) => if p.2 < b.2 then some p else some b
    | none => some p) none).map (·.1)

end StoryMarkup.Text
