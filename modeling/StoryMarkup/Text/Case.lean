import StoryMarkup.Text.Letter

/-!
Upper and lower case. A character may become several, and a capital sigma at the end of a word
becomes the final form.
-/
namespace StoryMarkup.Text

def lowerShifts : Array Table.Shift := Table.shifts "41-5a:20 c0-d6:20 8-e:20 100/2e:1 32/6:1 9/47:1 a/76:1
  8:-79 9/d:1 81:d2 2/4:1 6:ce 7:1 9-a:cd b:1 e:4f f:ca 90:cb 1:1 3:cd 4:cf 6:d3 7:d1 8:1 c:d3 d:d5 f:d6
  a0/4:1 6:da 7:1 9:da c:1 e:da f:1 b1-2:d9 3/5:1 7:db 8:1 c:1 c4:2 5:1 7:2 8:1 a:2 b/db:1 e/ee:1 f1:2 2/4:1
  6:-61 7:-38 8/21e:1 20:-82 2/32:1 a:2a2b b:1 d:-a3 e:2a28 41:1 3:-c3 4:45 5:47 6/e:1 370/2:1 6:1 f:74
  86:26 8-a:25 c:40 e-f:3f 91-a1:20 3-b:20 cf:8 d8/ee:1 f4:-3c 7:1 9:-7 a:1 d-f:-82 400-f:50 10-2f:20
  60/80:1 a/be:1 c0:f 1/d:1 d0/52e:1 31-56:30 10a0-c5:1c60 7:1c60 d:1c60 3a0-ef:97d0 f0-5:8 c89:1 90-ba:-bc0
  d-f:-bc0 e00/94:1 e:-1dbf a0/fe:1 f08-f:-8 18-d:-8 28-f:-8 38-f:-8 48-d:-8 59/f:-8 68-f:-8 88-f:-8 98-f:-8
  a8-f:-8 b8-9:-8 a-b:-4a c:-9 c8-b:-56 c:-9 d8-9:-8 a-b:-64 e8-9:-8 a-b:-70 c:-7 f8-9:-80 a-b:-7e c:-9
  2126:-1d5d a:-20bf b:-2046 32:1c 60-f:10 83:1 4b6-cf:1a c00-2f:30 60:1 2:-29f7 3:-ee6 4:-29e7 7/b:1
  d:-2a1c e:-29fd f:-2a1f 70:-2a1e 2:1 5:1 e-f:-2a3f 80/e2:1 b/d:1 f2:1 a640/6c:1 80/9a:1 722/e:1 32/6e:1
  79/b:1 d:-8a04 e/86:1 b:1 d:-a528 90/2:1 6/a8:1 a:-a544 b:-a54f c:-a54b d:-a541 e:-a544 b0:-a512 1:-a52a
  2:-a515 3:3a0 4/c2:1 4:-30 5:-a543 6:-8a38 7/9:1 b:-a567 c/da:1 c:-a641 f5:1 ff21-3a:20 10400-27:28
  b0-d3:28 570-a:27 c-8a:27 c-92:27 4-5:27 c80-b2:40 d50-65:20 18a0-bf:20 6e40-5f:20 a0-b8:1b e900-21:22"

def lowerExpansions : Array (Nat × List Char) := Table.expansions "130:69,307"

/-- Upper case undoes lower case, except where several letters have one lower or one upper case. -/
def upperShifts : Array Table.Shift :=
  Table.shifts "b5:2e7 131:-e8 7f:-12c c5:-1 8:-1 b:-1 f2:-1 345:54 c2:-1f d0:-3e 1:-39 5:-2f 6:-36 f0:-56
    1:-50 5:-60 1c80:-186e 1:-186d 2:-1864 3-4:-1862 5:-1863 6:-185c 7:-1825 8:89c2 e9b:-3b fbe:-1c25"
    ++ lowerShifts.map (·.reversed)

def upperExpansions : Array (Nat × List Char) := Table.expansions "df:53,53 149:2bc,4e f0:4a,30c
  390:399,308,301 b0:3a5,308,301 587:535,552 1e96:48,331 7:54,308 8:57,30a 9:59,30a a:41,2be f50:3a5,313
  2:3a5,313,300 4:3a5,313,301 6:3a5,313,342 80-7:1f08,399 8-f:1f08,399 90-7:1f28,399 8-f:1f28,399
  a0-7:1f68,399 8-f:1f68,399 b2:1fba,399 3:391,399 4:386,399 6:391,342 7:391,342,399 c:391,399 c2:1fca,399
  3:397,399 4:389,399 6:397,342 7:397,342,399 c:397,399 d2:399,308,300 3:399,308,301 6:399,342 7:399,308,342
  e2:3a5,308,300 3:3a5,308,301 4:3a1,313 6:3a5,342 7:3a5,308,342 f2:1ffa,399 3:3a9,399 4:38f,399 6:3a9,342
  7:3a9,342,399 c:3a9,399 fb00:46,46 1:46,49 2:46,4c 3:46,46,49 4:46,46,4c 5:53,54 6:53,54 13:544,546
  4:544,535 5:544,53b 6:54e,546 7:544,53d"

def lowerSigns : CharSet := .ofTable "4qAfAdxI7BuE2oA1gA2o1A2enCKdAyBKj5AdAgM5vPnkZ1huBo4eB5uA3kD3Bo2D9Ai6uA2C
  1BP1I16r9CJ"

def upperSigns : CharSet := .ofTable "6lcPnaZ2ixsZ6Z6Z"

def midWordSigns : CharSet := .ofTable "13A6AbA3gAjzAd3A44A55vBaA2A17u3A1qA2A4xA6AbA"

def cased : CharSet := .unions [Category.chars [.lu, .ll, .lt], lowerSigns, upperSigns]

def caseIgnorable : CharSet := (Category.chars [.mn, .me, .cf, .lm, .sk]).union midWordSigns

def lowerAscii (c : Char) : Char := if 'A' ≤ c && c ≤ 'Z' then Char.ofNat (c.toNat + 32) else c
def upperAscii (c : Char) : Char := if 'a' ≤ c && c ≤ 'z' then Char.ofNat (c.toNat - 32) else c

def mapCase (expansions : Array (Nat × List Char)) (shifts : Array Table.Shift) (c : Char) : List Char :=
  match expansions.find? (·.1 == c.toNat) with
  | some (_, cs) => cs
  | none => [(Table.shift? shifts c).getD c]

def lowerChar (c : Char) : List Char :=
  if isAscii c then [lowerAscii c] else mapCase lowerExpansions lowerShifts c

def upperChar (c : Char) : List Char :=
  if isAscii c then [upperAscii c] else mapCase upperExpansions upperShifts c

def reachesCased (cs : List Char) : Bool :=
  match cs.dropWhile caseIgnorable.contains with
  | c :: _ => cased.contains c
  | [] => false

/-- Lower case of a list. `before` holds the characters already passed and `done` what they became,
both with the last one first. -/
def lowerChars (before done : List Char) : List Char → List Char
  | [] => done.reverse
  | c :: cs =>
    let low :=
      if c == 'Σ' then [if reachesCased before && !reachesCased cs then 'ς' else 'σ'] else lowerChar c
    lowerChars (c :: before) (low.reverse ++ done) cs

def toLower (s : String) : String := String.ofList (lowerChars [] [] s.toList)
def toUpper (s : String) : String := String.ofList (s.toList.flatMap upperChar)

def lowerAsciiText (s : String) : String := s.map lowerAscii

def sameAscii (s t : String) : Bool := s.map lowerAscii == t.map lowerAscii

end StoryMarkup.Text
