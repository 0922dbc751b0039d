/-! Byte positions in text. A position counts UTF-8 bytes. -/
namespace StoryMarkup.Text

def byteLength (cs : List Char) : Nat :=
  cs.foldl (fun n c => n + c.utf8Size) 0

structure Span where
  start : Nat
  stop : Nat
deriving DecidableEq, Repr, Inhabited

namespace Span

def join (a b : Span) : Span := ⟨min a.start b.start, max a.stop b.stop⟩

end Span

def dropBytes? : List Char → Nat → Option (List Char)
  | cs, 0 => some cs
  | [], _ + 1 => none
  | c :: cs, n + 1 => if c.utf8Size ≤ n + 1 then dropBytes? cs (n + 1 - c.utf8Size) else none

def takeBytes? : List Char → Nat → Option (List Char)
  | _, 0 => some []
  | [], _ + 1 => none
  | c :: cs, n + 1 =>
    if c.utf8Size ≤ n + 1 then (takeBytes? cs (n + 1 - c.utf8Size)).map (c :: ·) else none

/-- The text a span covers, when both its ends are boundaries of the source. -/
def Span.extract? (s : Span) (source : List Char) : Option (List Char) :=
  if s.start ≤ s.stop then do takeBytes? (← dropBytes? source s.start) (s.stop - s.start) else none

/-- A place in a text: the bytes before it and the characters from it on. -/
structure Cursor where
  pos : Nat
  rest : List Char
deriving Repr, Inhabited

namespace Cursor

def ofList (cs : List Char) : Cursor := ⟨0, cs⟩

/-- The cursor at byte `offset` of the text; past the end there is nothing left to read. -/
def ofOffset (source : List Char) (offset : Nat) : Cursor := ⟨offset, (dropBytes? source offset).getD []⟩

def next? (k : Cursor) : Option (Char × Cursor) :=
  match k.rest with
  | [] => none
  | c :: cs => some (c, ⟨k.pos + c.utf8Size, cs⟩)

def peek? (k : Cursor) : Option Char := k.rest.head?

def peekAt? (k : Cursor) (n : Nat) : Option Char := (k.rest.drop n).head?

def skip (k : Cursor) (n : Nat) : Cursor := ⟨k.pos + byteLength (k.rest.take n), k.rest.drop n⟩

def skipWhile (p : Char → Bool) (k : Cursor) : Cursor :=
  ⟨k.pos + byteLength (k.rest.takeWhile p), k.rest.dropWhile p⟩

def runWhile (p : Char → Bool) (k : Cursor) : List Char := k.rest.takeWhile p

def upTo (k : Cursor) (offset : Nat) : List Char := (takeBytes? k.rest (offset - k.pos)).getD []

def startsWith (k : Cursor) (s : String) : Bool := s.toList.isPrefixOf k.rest

end Cursor
end StoryMarkup.Text
