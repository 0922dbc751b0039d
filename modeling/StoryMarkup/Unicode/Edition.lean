import StoryMarkup.Text.Case
import StoryMarkup.Text.Quoted

/-!
Patterns follow the sixteenth edition of the Unicode Character Database: the sets of the
seventeenth, which the text functions follow, without the characters that are new in it.
-/
namespace StoryMarkup.Unicode

open Text (CharSet Category)

def newest : CharSet := .ofTable "1ovAr0A3jA2r6O2L15hA250AojbB2A1AsAgk1PcdB1iG29dZ12jC8IxB2g4Hg8BR4JfxyY2Y7yE
  4qpHztV2pEKcg7CcdWfQ4pbBE1V8B34oA4eD9hIajD1eA3A1lA4AsA4A7eA10zjF4maLgsiGJH"

def earlier (s : CharSet) : CharSet := s.minus newest

def glottalStop : CharSet := .codes 0x295 0x295

def categoryChars (k : Category) : CharSet :=
  match k with
  | .ll => (earlier (Category.chars [.ll])).union glottalStop
  | .lo => (earlier (Category.chars [.lo])).minus glottalStop
  | .cn => (Category.chars [.cn]).union newest
  | _ => earlier (Category.chars [k])

def categorySets : List (Category × CharSet) := Category.all.map fun k => (k, categoryChars k)

def categories (ks : List Category) : CharSet :=
  .unions (categorySets.filterMap fun (k, s) => if ks.contains k then some s else none)

/-- Code points that never stand for a character: the last two of every plane and a block of their
own. -/
def noncharacters : CharSet :=
  .ofRanges ((0xFDD0, 0xFDEF) :: (List.range 17).map fun n => (0x10000 * n + 0xFFFE, 0x10000 * n + 0xFFFF))

def unassigned : CharSet := categories [.cn]

def whiteSpace : CharSet := .ofTable "9EiA2sAqA4bjA1vjKtB5A1bA334A"

def digit : CharSet := categories [.nd]

def alphabetic : CharSet := earlier Text.alphabetic

def joinControl : CharSet := .ofTable "6bwB"

def word : CharSet := .unions [alphabetic, categories (.nd :: .pc :: Category.marks), joinControl]

/-- Groups of categories, by short and by long name. Surrogates are no characters and have no
name. -/
def categoryNames : List (List String × List Category) :=
  [(["l", "letter"], Category.letters), (["lc", "casedletter"], [.lu, .ll, .lt]),
   (["lu", "uppercaseletter"], [.lu]), (["ll", "lowercaseletter"], [.ll]), (["lt", "titlecaseletter"], [.lt]),
   (["lm", "modifierletter"], [.lm]), (["lo", "otherletter"], [.lo]),
   (["m", "mark", "combiningmark"], Category.marks),
   (["mn", "nonspacingmark"], [.mn]), (["mc", "spacingmark"], [.mc]), (["me", "enclosingmark"], [.me]),
   (["n", "number"], Category.numbers), (["nd", "decimalnumber", "digit"], [.nd]),
   (["nl", "letternumber"], [.nl]), (["no", "othernumber"], [.no]),
   (["p", "punctuation", "punct"], [.pc, .pd, .ps, .pe, .pi, .pf, .po]),
   (["pc", "connectorpunctuation"], [.pc]), (["pd", "dashpunctuation"], [.pd]),
   (["ps", "openpunctuation"], [.ps]), (["pe", "closepunctuation"], [.pe]),
   (["pi", "initialpunctuation"], [.pi]), (["pf", "finalpunctuation"], [.pf]), (["po", "otherpunctuation"], [.po]),
   (["s", "symbol"], [.sm, .sc, .sk, .so]), (["sm", "mathsymbol"], [.sm]), (["sc", "currencysymbol"], [.sc]),
   (["sk", "modifiersymbol"], [.sk]), (["so", "othersymbol"], [.so]),
   (["z", "separator"], [.zs, .zl, .zp]), (["zs", "spaceseparator"], [.zs]), (["zl", "lineseparator"], [.zl]),
   (["zp", "paragraphseparator"], [.zp]),
   (["c", "other"], [.cc, .cf, .co, .cn]), (["cc", "control", "cntrl"], [.cc]), (["cf", "format"], [.cf]),
   (["co", "privateuse"], [.co]), (["cn", "unassigned"], [.cn])]

def named? {α : Type} (name : String) (table : List (List String × α)) : Option α :=
  (table.find? fun (names, _) => names.contains name).map (·.2)

def columns (line : String) : List String × List CharSet :=
  match (Text.Table.cut ':' line.toList).map String.ofList with
  | names :: sets => (Text.words names, sets.map .ofTable)
  | [] => ([], [])

def category? (name : String) : Option CharSet :=
  match name with
  | "any" => some .any
  | "assigned" => some unassigned.complement
  | "ascii" => some (.codes 0 127)
  | _ => (named? name categoryNames).map categories

end StoryMarkup.Unicode
