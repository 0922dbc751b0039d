/-! Finding a text inside another. Places are counted in characters. -/
namespace StoryMarkup.Text

def findFrom? (needle : List Char) : Nat → List Char → Option Nat
  | place, [] => if needle.isEmpty then some place else none
  | place, c :: cs => if needle.isPrefixOf (c :: cs) then some place else findFrom? needle (place + 1) cs

def find? (needle hay : List Char) : Option Nat := findFrom? needle 0 hay

def findLast? (needle hay : List Char) : Option Nat :=
  (find? needle.reverse hay.reverse).map fun n => hay.length - n - needle.length

/-- The pieces between the occurrences of a separator that is not empty; `piece` holds the
characters read since the last one, and `skip` counts those of a separator still to pass over. -/
def splitFrom (sep : List Char) : Nat → List Char → List Char → List (List Char)
  | _, piece, [] => [piece.reverse]
  | skip + 1, piece, _ :: cs => splitFrom sep skip piece cs
  | 0, piece, c :: cs =>
    if sep.isPrefixOf (c :: cs) then piece.reverse :: splitFrom sep (sep.length - 1) [] cs
    else splitFrom sep 0 (c :: piece) cs

def splitAt (sep hay : List Char) : List (List Char) := splitFrom sep 0 [] hay

def cycle (fill : List Char) (n : Nat) : List Char :=
  let cs := fill.toArray
  (List.range n).map fun i => cs.getD (i % cs.size) ' '

end StoryMarkup.Text
