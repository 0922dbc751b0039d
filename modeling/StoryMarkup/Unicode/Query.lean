import StoryMarkup.Unicode.Age
import StoryMarkup.Unicode.Break

/-! Questions for the characters with a property, by a name alone or a name with a value. -/
namespace StoryMarkup.Unicode

open Text (CharSet)

/-- Blanks, underscores, hyphens and the case of letters do not tell names apart, nor does a leading
`is`; other characters than those of ASCII are passed over. -/
def normalName (cs : List Char) : String :=
  let isDropped := match cs with
    | a :: b :: _ => Text.lowerAscii a == 'i' && Text.lowerAscii b == 's'
    | _ => false
  let rest := if isDropped then cs.drop 2 else cs
  let kept := (rest.filter fun c => Text.isAscii c && c != ' ' && c != '_' && c != '-').map Text.lowerAscii
  if isDropped && kept == ['c'] then "isc" else String.ofList kept

inductive Unanswered where
  | noProperty
  | noValue
deriving DecidableEq, Repr

def valuedProperties : List String :=
  [ "age", "bc", "bidiclass", "bidimirroringglyph", "bidipairedbracket", "bidipairedbrackettype", "blk",
    "block", "bmg", "bpb", "bpt", "canonicalcombiningclass", "casefolding", "ccc", "ce", "cf",
    "changeswhennfkccasefolded", "cjkaccountingnumeric", "cjkcompatibilityvariant", "cjkiicore",
    "cjkirggsource", "cjkirghsource", "cjkirgjsource", "cjkirgkpsource", "cjkirgksource", "cjkirgmsource",
    "cjkirgssource", "cjkirgtsource", "cjkirguksource", "cjkirgusource", "cjkirgvsource", "cjkothernumeric",
    "cjkprimarynumeric", "cjkrsunicode", "compex", "compositionexclusion", "cwkcf", "decompositionmapping",
    "decompositiontype", "dm", "dt", "ea", "eastasianwidth", "equideo", "equivalentunifiedideograph",
    "expandsonnfc", "expandsonnfd", "expandsonnfkc", "expandsonnfkd", "fcnfkc", "fcnfkcclosure",
    "fullcompositionexclusion", "gc", "gcb", "generalcategory", "graphemeclusterbreak", "hangulsyllabletype",
    "hst", "incb", "indicconjunctbreak", "indicpositionalcategory", "indicsyllabiccategory", "inpc", "insc",
    "isc", "jamoshortname", "jg", "joininggroup", "joiningtype", "jsn", "jt", "kaccountingnumeric",
    "kcompatibilityvariant", "kehcat", "kehdesc", "kehhg", "kehifao", "kehjsesh", "kehnomirror", "kehnorotate",
    "kiicore", "kirggsource", "kirghsource", "kirgjsource", "kirgkpsource", "kirgksource", "kirgmsource",
    "kirgssource", "kirgtsource", "kirguksource", "kirgusource", "kirgvsource", "kothernumeric",
    "kprimarynumeric", "krsunicode", "lb", "lc", "linebreak", "lowercasemapping", "na", "na1", "name",
    "namealias", "nfcqc", "nfcquickcheck", "nfdqc", "nfdquickcheck", "nfkccasefold", "nfkccf", "nfkcqc",
    "nfkcquickcheck", "nfkcscf", "nfkcsimplecasefold", "nfkdqc", "nfkdquickcheck", "nt", "numerictype",
    "numericvalue", "nv", "ocomment", "sb", "sc", "scf", "script", "scriptextensions", "scx", "sentencebreak",
    "sfc", "simplecasefolding", "simplelowercasemapping", "simpletitlecasemapping", "simpleuppercasemapping",
    "slc", "stc", "suc", "tc", "titlecasemapping", "uc", "unicode1name", "unicoderadicalstroke",
    "uppercasemapping", "urs", "verticalorientation", "vo", "wb", "wordbreak", "xonfc", "xonfd", "xonfkc",
    "xonfkd"]

def isProperty (name : String) : Bool := (binaryProperty? name).isSome || valuedProperties.contains name

def memberless : List String := ["cs", "surrogate", "hrkt", "katakanaorhiragana", "unknown", "zzzz"]

def ofName (name : String) : Except Unanswered CharSet :=
  match binaryProperty? name <|> category? name <|> script? name with
  | some s => .ok s
  | none => .error (if memberless.contains name then .noValue else .noProperty)

def ofValue? (property value : String) : Option CharSet :=
  match property with
  | "gc" | "generalcategory" => category? value
  | "sc" | "script" => script? value
  | "scx" | "scriptextensions" => scriptExtensions? value
  | "age" => age? value
  | "gcb" | "graphemeclusterbreak" => named? value graphemeBreaks
  | "wb" | "wordbreak" => named? value wordBreaks
  | "sb" | "sentencebreak" => named? value sentenceBreaks
  | _ => none

def ofValue (property value : String) : Except Unanswered CharSet :=
  match ofValue? property value with
  | some s => .ok s
  | none => .error (if isProperty property then .noValue else .noProperty)

def splitAt? (sign : List Char) : List Char → Option (List Char × List Char)
  | [] => none
  | c :: cs =>
    if sign.isPrefixOf (c :: cs) then some ([], (c :: cs).drop sign.length)
    else (splitAt? sign cs).map fun (before, after) => (c :: before, after)

/-- What a text asks for, and whether it asks for the characters outside of it. A name and its value
are divided by the first of `!=`, `:` and `=` that occurs in the text. -/
def query (text : List Char) : Except Unanswered (CharSet × Bool) :=
  let value (parts : List Char × List Char) := ofValue (normalName parts.1) (normalName parts.2)
  match splitAt? ['!', '='] text with
  | some parts => (value parts).map fun s => (s, true)
  | none =>
    match splitAt? [':'] text <|> splitAt? ['='] text with
    | some parts => (value parts).map fun s => (s, false)
    | none => (ofName (normalName text)).map fun s => (s, false)

end StoryMarkup.Unicode
