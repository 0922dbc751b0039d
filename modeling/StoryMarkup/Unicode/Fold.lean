import StoryMarkup.Unicode.Edition

/-!
Characters that differ in case only, by the simple case folding of the sixteenth edition of the
Unicode Character Database.
-/
namespace StoryMarkup.Unicode

open Text (CharSet Table.Shift)

def foldShifts : Array Table.Shift := Text.Table.shifts "b5:307 17f:-10c 345:74 c2:1 d0:-1e 1:-19 5:-f 6:-16
  f0:-36 1:-30 5:-40 1c80:-184e 1:-184d 2:-1844 3-4:-1842 5:-1843 6:-183c 7:-1824 8:89c3 e9b:-3a
  fbe:-1c05 d3:-1c43 e3:-1c33 fb06:-1"

def foldPairs : List (Nat × Nat) :=
  let lowered := (Text.lowerShifts.toList.flatMap (·.moves)).filter fun (n, target) =>
    !newest.contains (Char.ofNat n) && !newest.contains (Char.ofNat target)
  ((lowered ++ foldShifts.toList.flatMap (·.moves)).map fun (n, target) => (target, n)).mergeSort fun a b => a.1 ≤ b.1

/-- Pairs in order of their first part, with the second parts of equal first parts joined to
them. -/
def joinPairs : List (Nat × Nat) → List (List Nat)
  | [] => []
  | (a, b) :: rest =>
    match joinPairs rest with
    | (c :: more) :: classes => if a == c then (a :: b :: more) :: classes else [a, b] :: (c :: more) :: classes
    | classes => [a, b] :: classes

def foldClasses : List (List Nat) := joinPairs foldPairs

def foldTable : Array (Nat × List Nat) :=
  ((foldClasses.flatMap fun c => c.map fun n => (n, c)).mergeSort fun a b => a.1 ≤ b.1).toArray

def fold (s : CharSet) : CharSet :=
  let variants := s.ranges.toList.flatMap fun (a, b) => (Text.Table.between foldTable a b).flatten
  .ofRanges (s.ranges.toList ++ variants.map fun n => (n, n))

def foldAscii (s : CharSet) : CharSet :=
  let letters := s.meet ((CharSet.range 'a' 'z').union (.range 'A' 'Z'))
  s.union (.ofRanges (letters.ranges.toList.map fun (a, b) => if a < 97 then (a + 32, b + 32) else (a - 32, b - 32)))

end StoryMarkup.Unicode
