import StoryMarkup.Text.Blank

/-!
Tables of character properties written as text. In a table of shifts or expansions numbers are
hexadecimal and leave out the leading digits shared with the one before. A set of characters is
written by the distances between the ends of its ranges.
-/
namespace StoryMarkup.Text.Table

def hexDigit? (c : Char) : Option Nat :=
  let n := c.toNat
  if 48 ≤ n && n ≤ 57 then some (n - 48)
  else if 97 ≤ n && n ≤ 102 then some (n - 87)
  else if 65 ≤ n && n ≤ 70 then some (n - 55)
  else none

def hex (cs : List Char) : Nat :=
  cs.foldl (fun n c => match hexDigit? c with | some d => 16 * n + d | none => n) 0

def cut (sep : Char) (cs : List Char) : List (List Char) :=
  cs.foldr (fun c acc => match acc with
    | piece :: done => if c == sep then [] :: piece :: done else (c :: piece) :: done
    | [] => if c == sep then [[], []] else [[c]]) [[]]

/-- The digits of a number. It may leave out the first of them, where they are those of the number
before it. -/
def filled (before digits : List Char) : List Char := before.take (before.length - digits.length) ++ digits

structure Run where
  first : Nat
  last : Nat
  stride : Nat

/-- A run written `41-5a`, or `100/12e` for every other character, or `5f` for a single one, and the
digits of its last number. -/
def readRun (before entry : List Char) : Run × List Char :=
  let ends (a b : List Char) (stride : Nat) :=
    let a := filled before a
    let b := filled a b
    (⟨hex a, hex b, stride⟩, b)
  match cut '-' entry, cut '/' entry with
  | [a, b], _ => ends a b 1
  | _, [a, b] => ends a b 2
  | _, _ => ends entry entry 1

def readRuns (before : List Char) : List (List Char) → List (Run × List Char)
  | [] => []
  | entry :: rest =>
    let (run, last) := readRun before (entry.takeWhile (· != ':'))
    (run, (entry.dropWhile (· != ':')).drop 1) :: readRuns last rest

def entries (text : String) : List (Run × List Char) := readRuns [] ((words text).map (·.toList))

def Run.codes (r : Run) : List Nat := (List.range ((r.last - r.first) / r.stride + 1)).map (r.first + · * r.stride)

/-- A set of characters while it is read: the ranges so far, last one first, the code point behind
them, and the numbers of the range that is being read. -/
structure SetReader where
  done : List (Nat × Nat) := []
  next : Nat := 0
  gap : Nat := 0
  extent? : Option Nat := none

def SetReader.close (r : SetReader) : SetReader :=
  match r.extent? with
  | some extent =>
    let last := r.next + r.gap + extent
    ⟨(r.next + r.gap, last) :: r.done, last + 1, 0, none⟩
  | none => r

/-- Read on. A small letter or digit is a digit to base 36 and a capital is one to base 26. -/
def SetReader.read (r : SetReader) (c : Char) : SetReader :=
  if c.isUpper then { r with extent? := some (26 * r.extent?.getD 0 + (c.toNat - 65)) }
  else if c.isAlphanum then
    let r := r.close
    { r with gap := 36 * r.gap + (if c.isDigit then c.toNat - 48 else c.toNat - 87) }
  else r

/-- The ranges of a set, in ascending order. Each is written as the number of code points between it
and the one before it, in small letters and digits, and how far its last is from its first, in
capitals. -/
def ranges (text : String) : List (Nat × Nat) := (text.toList.foldl SetReader.read {}).close.done.reverse

structure Shift extends Run where
  distance : Int

/-- Shifts written `c0-d6:20`, or `100/12e:1` for every other character, or `178:-79`. -/
def shifts (text : String) : Array Shift :=
  ((entries text).map fun (run, move) => ⟨run, match move with
    | '-' :: digits => -(hex digits : Int)
    | digits => hex digits⟩).toArray

def Shift.reversed (s : Shift) : Shift :=
  ⟨⟨(s.first + s.distance).toNat, (s.last + s.distance).toNat, s.stride⟩, -s.distance⟩

def Shift.moves (s : Shift) : List (Nat × Nat) := s.codes.map fun n => (n, (s.distance + n).toNat)

def Shift.moved? (s : Shift) (n : Nat) : Option Nat :=
  if s.first ≤ n && n ≤ s.last && (n - s.first) % s.stride == 0 then some (n + s.distance).toNat else none

def shift? (table : Array Shift) (c : Char) : Option Char :=
  (table.findSome? (·.moved? c.toNat)).map Char.ofNat

/-- Replacements by several characters, written `df:53,53`. Along a run the first of them goes up as
well. -/
def expansions (text : String) : Array (Nat × List Char) :=
  ((entries text).flatMap fun (run, images) => run.codes.map fun n => (n, match (cut ',' images).map hex with
    | first :: more => ((first + n - run.first) :: more).map Char.ofNat
    | [] => [])).toArray

def searchAbove {α : Type} (table : Array (Nat × α)) (n : Nat) : Nat → Nat → Nat → Nat
  | 0, lo, _ => lo
  | fuel + 1, lo, hi =>
    if hi ≤ lo then lo
    else
      let mid := (lo + hi) / 2
      match table[mid]? with
      | some (place, _) => if place ≤ n then searchAbove table n fuel (mid + 1) hi else searchAbove table n fuel lo mid
      | none => lo

def countAtMost {α : Type} (table : Array (Nat × α)) (n : Nat) : Nat := searchAbove table n table.size 0 table.size

def lastAtMost? {α : Type} (table : Array (Nat × α)) (n : Nat) : Option α :=
  match countAtMost table n with
  | 0 => none
  | i + 1 => table[i]?.map (·.2)

def between {α : Type} (table : Array (Nat × α)) (a b : Nat) : List α :=
  let first := if a == 0 then 0 else countAtMost table (a - 1)
  (table.extract first (countAtMost table b)).toList.map (·.2)

end StoryMarkup.Text.Table
