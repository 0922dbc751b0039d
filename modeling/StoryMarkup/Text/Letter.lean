import StoryMarkup.Text.Category

/-! Letters and digits. Plain ASCII and blanks are decided without the tables. -/
namespace StoryMarkup.Text

def alphabeticSigns : CharSet := .ofTable "n9AtMg0N1A1B1B1A20K1cM1GgA2tG4D2B4AzAuP2uK2tB3I1C1D2yA1oL3G6T1iB2O1B
  5CaBtC1mG2B2BaAaBtC1mE4B2B4AuB3AbC1mH1C1BlBmC4C1mG2B2B9BaBuA1nE3C1CaA14E1lG1C1C8BbBtC1mG1C1C8BbBfAcD1mG1C1CaA
  aBtC23F1A1HiB1pA2GiA2rA2F1BgA4jS9K1BJ32L1A2DnD4C1C2G3DdL1AaD19wBuBuBuB1uS58ByA3aL4I66E1lJ2T22BbC1dE1cO1oCuI2B
  1lK1eSbgBH1c1BZ1rqBFnskHyB9uA8AnE2gB1eP1A1lA12EsL19D1cL11A1vNcA8B19C1eA1C2B5A18E5A6lHfn7A1nbE1aeC1B5DlwD1tA8xB
  25C77C1hN19BbC19I9A1pC10LiB1lC1cMeB2kI2A6A2A4dJnD1mG2B2BaAaB2cI1A2A1D1B2vM1C2yR6lG2GtB2aO1A2yK2vN75M6vF1B2B3A
  1A3yG2F4AsJ16E1DiK1aN5kH5jH1G2bV1N3eF3A1B1C1A3A1uE1B1D9oD9B1A1cG3Cd0dQ2sgA1CC7D2lBf58A6zlG1Q2G1B1E2sA18zA2A7B
  5AghA1k8Z6Z6Z"

def alphabetic : CharSet := (Category.chars (.nl :: Category.letters)).union alphabeticSigns

def numeric : CharSet := Category.chars Category.numbers

def isAsciiLetter (c : Char) : Bool :=
  ('a' ≤ c && c ≤ 'z') || ('A' ≤ c && c ≤ 'Z')

def isAsciiDigit (c : Char) : Bool := '0' ≤ c && c ≤ '9'

def isAsciiAlphanumeric (c : Char) : Bool := isAsciiLetter c || isAsciiDigit c

def isAsciiHexDigit (c : Char) : Bool :=
  isAsciiDigit c || ('a' ≤ c && c ≤ 'f') || ('A' ≤ c && c ≤ 'F')

def isAscii (c : Char) : Bool := c.toNat < 128

def isAlphabetic (c : Char) : Bool :=
  if isAscii c then isAsciiLetter c else !isBlank c && alphabetic.contains c

def isNumeric (c : Char) : Bool :=
  if isAscii c then isAsciiDigit c else !isBlank c && numeric.contains c

def isAlphanumeric (c : Char) : Bool := isAlphabetic c || isNumeric c

end StoryMarkup.Text
