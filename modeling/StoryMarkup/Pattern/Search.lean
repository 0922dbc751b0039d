import StoryMarkup.Pattern.Program

/-! Running a program over a text: all threads together, character by character, in order of
preference. -/
namespace StoryMarkup.Pattern

abbrev Slots := Array (Option Nat)

structure Thread where
  step : Nat
  slots : Slots

/-- The threads at one place, last one first, and for every step the number after the place where it
was entered last. -/
structure Front where
  threads : List Thread
  entered : Array Nat

namespace Program

def front (p : Program) : Front := ⟨[], Array.replicate p.code.size 0⟩

def enter (p : Program) (place : Nat) (before after : Option Char) : Nat → Nat → Slots → Front → Front
  | 0, _, _, f => f
  | fuel + 1, step, slots, f =>
    if f.entered.getD step 0 == place + 1 then f
    else
      let f := { f with entered := f.entered.setIfInBounds step (place + 1) }
      match p.code[step]? with
      | none => f
      | some (.split a b) => p.enter place before after fuel b slots (p.enter place before after fuel a slots f)
      | some (.check l next) => if l.holds before after then p.enter place before after fuel next slots f else f
      | some (.save slot next) => p.enter place before after fuel next (slots.setIfInBounds slot (some place)) f
      | some (.take ..) | some .done => { f with threads := ⟨step, slots⟩ :: f.threads }

def advance (p : Program) (place : Nat) (c after : Option Char) : List Thread → Front →
    Option Slots → Front × Option Slots
  | [], f, found => (f, found)
  | t :: rest, f, found =>
    match p.code[t.step]? with
    | some .done => (f, some t.slots)
    | some (.take s next) =>
      let f := if c.any s.contains then p.enter (place + 1) c after p.code.size next t.slots f else f
      p.advance place c after rest f found
    | _ => p.advance place c after rest f found

def searchFrom (p : Program) (text : Array Char) : Nat → Nat → Front → Option Slots → Option Slots
  | 0, _, _, found => found
  | fuel + 1, place, f, found =>
    if f.threads.isEmpty && found.isSome then found
    else
      let before := if place == 0 then none else text[place - 1]?
      let here := text[place]?
      let f :=
        if found.isSome then f
        else p.enter place before here p.code.size p.start (Array.replicate p.slots none) f
      let (next, found) := p.advance place here text[place + 1]? f.threads.reverse ⟨[], f.entered⟩ found
      p.searchFrom text fuel (place + 1) next found

def search (p : Program) (text : Array Char) (start : Nat) : Option Slots :=
  if start > text.size then none else p.searchFrom text (text.size - start + 1) start p.front none

end Program

structure Match where
  start : Nat
  stop : Nat
  groups : List (Option (Nat × Nat))
deriving Repr

def Match.ofSlots (slots : Slots) : Match :=
  let group (i : Nat) : Option (Nat × Nat) := do
    some (← slots.getD (2 * i) none, ← slots.getD (2 * i + 1) none)
  let whole := (group 0).getD (0, 0)
  ⟨whole.1, whole.2, (List.range (slots.size / 2)).map group⟩

namespace Program

def find? (p : Program) (text : Array Char) (start : Nat) : Option Match := (p.search text start).map Match.ofSlots

/-- The matches one after another. An empty match right behind the one before it does not count, and
the search goes on one place further. -/
def matchesFrom (p : Program) (text : Array Char) : Nat → Nat → Option Nat → List Match
  | 0, _, _ => []
  | fuel + 1, start, lastStop =>
    let next := match p.find? text start with
      | some m => if m.start == m.stop && lastStop == some m.stop then p.find? text (start + 1) else some m
      | none => none
    match next with
    | none => []
    | some m => m :: p.matchesFrom text fuel m.stop (some m.stop)

def allMatches (p : Program) (text : Array Char) : List Match := p.matchesFrom text (text.size + 2) 0 none

end Program
end StoryMarkup.Pattern
