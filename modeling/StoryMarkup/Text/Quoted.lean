import StoryMarkup.Text.Letter

/-! Text in quotes for people to read. What would not show by itself is escaped. -/
namespace StoryMarkup.Text

def extendingSigns : CharSet := .ofTable "1xaAoA9yAoA2uAoA6gA1A4B1B9B2vAoA3bAfA1thAuAsgA5A1A5B2tA1zBt4A36pBnxfA
  30AgylB3kwA38A7cAeA9A2oA9A2A1C5A68AcA6pA7aAhlAcA16rAfxqBj8zB6Fh419DR"

def extending : CharSet := (Category.chars [.mn, .me]).union extendingSigns

def fillers : CharSet := .ofTable "3fjB6bnA14qjA"

def shapeless : CharSet := (Category.chars [.cc, .cf, .cs, .co, .cn, .zs, .zl, .zp]).union fillers

def unshown : CharSet := extending.union shapeless

/-- The characters that are written by their number; of the blanks the space is written as it is. -/
def isUnshown (c : Char) : Bool := if isAscii c then c.toNat < 32 || c.toNat == 127 else unshown.contains c

def hexDigitChar (n : Nat) : Char := if n < 10 then Char.ofNat (48 + n) else Char.ofNat (87 + n)

def hexDigits (n : Nat) : List Char :=
  (Nat.toDigits 16 n)

def quoteChar (c : Char) : List Char :=
  if c == '\x00' then ['\\', '0']
  else if c == '\t' then ['\\', 't']
  else if c == '\r' then ['\\', 'r']
  else if c == '\n' then ['\\', 'n']
  else if c == '"' then ['\\', '"']
  else if c == '\\' then ['\\', '\\']
  else if isUnshown c then "\\u\x7b".toList ++ hexDigits c.toNat ++ "\x7d".toList
  else [c]

def quoted (s : String) : String := "\"" ++ String.ofList (s.toList.flatMap quoteChar) ++ "\""

end StoryMarkup.Text
