/-! Blank characters and trimming. Blank means the Unicode property White_Space. -/
namespace StoryMarkup.Text

def isBlank (c : Char) : Bool :=
  let n := c.toNat
  (9 ≤ n && n ≤ 13) || n == 32 || n == 0x85 || n == 0xA0 || n == 0x1680 ||
    (0x2000 ≤ n && n ≤ 0x200A) || n == 0x2028 || n == 0x2029 || n == 0x202F || n == 0x205F || n == 0x3000

def dropBlankEnd (cs : List Char) : List Char :=
  (cs.reverse.dropWhile isBlank).reverse

def trimChars (cs : List Char) : List Char :=
  dropBlankEnd (cs.dropWhile isBlank)

def trimStart (s : String) : String := String.ofList (s.toList.dropWhile isBlank)
def trimEnd (s : String) : String := String.ofList (dropBlankEnd s.toList)
def trim (s : String) : String := String.ofList (trimChars s.toList)

def isBlankText (s : String) : Bool := s.toList.all isBlank

def words (s : String) : List String :=
  let step : Char → List Char × List String → List Char × List String := fun c (run, done) =>
    if isBlank c then ([], if run.isEmpty then done else String.ofList run :: done) else (c :: run, done)
  let (run, done) := s.toList.foldr step ([], [])
  if run.isEmpty then done else String.ofList run :: done

/-! Short samples of source text, shown beside a message. -/

def sampleLength : Nat := 40

def clip (cs : List Char) : String :=
  if cs.length > sampleLength then String.ofList (cs.take sampleLength) ++ "..." else String.ofList cs

def sampleOf (cs : List Char) : String := clip (trimChars cs)

def sample (s : String) : String := sampleOf s.toList

end StoryMarkup.Text
