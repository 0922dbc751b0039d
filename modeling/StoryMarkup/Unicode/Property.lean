import StoryMarkup.Unicode.Edition

/-! Properties of characters that hold or do not hold, each with its short and its long name. -/
namespace StoryMarkup.Unicode

open Text (CharSet Category)

def lowercase : CharSet := (categories [.ll]).union (earlier Text.lowerSigns)

def uppercase : CharSet := (categories [.lu]).union (earlier Text.upperSigns)

def titlecase : CharSet := categories [.lt]

def cased : CharSet := .unions [lowercase, uppercase, titlecase]

def graphemeExtend : CharSet := earlier Text.extending

def graphemeBase : CharSet :=
  ((categories [.cc, .cf, .cs, .co, .cn, .zl, .zp]).union graphemeExtend).complement

def otherMath : CharSet := .ofTable "2mAohC2AqB2B5k0ArCbAwDoBeB1tM4A3B4EiA4A2J1A3E6A3B2B1C1F3D5E23E2D1B1B1A1E2B
  4B4R2B1A1G1A6B82D4oB1AoAhAcdBcI5E5B2B3EeA1A2FoB1lA1AtD9B9iBvJb7V1rDwB15ybA1A4A5vA1A160xDG1CS1B2A2B2D1L1A1G1CM
  1D2H1G1BB1D1E1A3G1NB2Y1Y1BE1Y1BE1Y1BE1Y1BE1Y1H2BX4cgD1BA1B1A2A1J1D1A1A6A4A1A1A1C1B1A2A1A1A1A1A1B1A2D1G1D1D1A1J
  1Q5C1E1Q"

def patternSyntax : CharSet := .ofTable "xOaGqD1AqDyG1A1B1A1B4A4A3AnAvA654X8O2S1J8hBBR4gYFuBRNe8EXapC4YfA14i5B
  79B"

def patternWhiteSpace : CharSet := .ofTable "9EiA2sA688BoB"

def otherIdStart : CharSet := .ofTable "4udB1oxAlA31oB"

def otherIdContinue : CharSet := .ofTable "53AjzA34xI19kA181B3cdA14rtA"

def idStart : CharSet :=
  (CharSet.unions [categories (.nl :: Category.letters), otherIdStart]).minus (patternSyntax.union patternWhiteSpace)

def idContinue : CharSet :=
  (CharSet.unions [idStart, categories [.mn, .mc, .nd, .pc], otherIdContinue]).minus
    (patternSyntax.union patternWhiteSpace)

/-- Letters whose compatibility form begins with a blank or another sign that no identifier
holds. -/
def unstableLetters : CharSet := .ofTable "oqA8wwB148xFbaB38A1A1A1A1A1A1A1A"

/-- Letters whose compatibility form continues an identifier and cannot begin one. -/
def unstableStarts : CharSet := .ofTable "2szA3jA1bl6B"

def variationSelector : CharSet := .ofTable "4qzC1A19f4Pi9yoJF"

def prependedMarks : CharSet := .ofTable "16oF5zA1dAaoB28A1g4aAfA"

def otherIgnorable : CharSet := .ofTable "njA2rzB18zB1prA3cuA14qjA27Ii9dzA1BD2oEX6oFIL"

/-- Characters that are not shown where they have no effect: formats and selectors, but not the
annotations and the controls of hieroglyphs. -/
def ignorable : CharSet :=
  (CharSet.unions [otherIgnorable, categories [.cf], variationSelector]).minus
    (.unions [whiteSpace, .codes 0xFFF9 0xFFFB, .codes 0x13430 0x13440, prependedMarks])

def changedBy (expansions : Array (Nat × List Char)) (shifts : Array Text.Table.Shift) : CharSet :=
  let moved := (shifts.toList.flatMap (·.moves)).filter fun (_, image) => !newest.contains (Char.ofNat image)
  earlier (.ofRanges (expansions.toList.map (fun (n, _) => (n, n)) ++ moved.map fun (n, _) => (n, n)))

def lowered : CharSet := changedBy Text.lowerExpansions Text.lowerShifts

def raised : CharSet := changedBy Text.upperExpansions Text.upperShifts

def titleStable : CharSet := .ofTable "3bkBQ2C"

def titleDigraphs : CharSet := .ofTable "ckA2A2A12A"

def foldStable : CharSet := .ofTable "3vkDH"

def foldUnstable : CharSet := .ofTable "51A15A2xA1hAclA3gAdB3BpB3Ab5A2uoF1oiIepB6cH8H8HaC2AaC2A16C2ArjsDBfnkGcE"

def emojiModifier : CharSet := .ofTable "2qrfE"

def ideographic : CharSet := .ofTable "9hiBpIeCqtJTN1sBFBJhkwOB2EBn4aArJBZ8BVP15J76vPFf7oCLFBwGDT6IN2INPeLBKfXX
  1wiUV15uHHY5GFF"

def sentenceTerminal : CharSet := .ofTable "xAcAgA11lA43C50A17C6uA1pA1A3B85B1d0BlyA4BlhA5iB4dB19A5A8qB9uD4iBaB2B
  tC57B1tBpwAnB9C2i7C8iAdAmBbxAn3wA7iB6bA3AamB2eB2nA48B43C40B6xAg86A2B1nA3B4pAcAgA1tA25wBzhE18D59B39D3jC3lB6AgB
  2gB1B30A8aB39BadB5O2xB6xCedA1A6zB2fBboBj8B22BeuhB3pA1tBbAfdB88AfeuA5woA"

def binaryProperties : List (List String × CharSet) :=
  [(["ahex", "asciihexdigit"], .ofTable "1cJ7FqF"),
   (["alpha", "alphabetic"], alphabetic),
   (["bidic", "bidicontrol"], .ofTable "17gA54hBqE1jD"),
   (["bidim", "bidimirrored"], .ofTable "14BiA1AsA1AtA1A19AfA2v2D1gdB1wcBaB1iBeB4xA5cD3F3A3B3D1D1A1A4I5A1R5D9B1A
     1H1BF2D5A9B2S5B9E2B4X2P8DkB7Bu5N22A2D1B1C5D5C3Nb7V2F1N8A7F3A4E1B2E4A1C2BaF2BcS1D2A1A2A1D5B6CoBbB4D1B2B4BQ2H
     1BN5A1A3E5C4A3E1A74AebD3B1BeB2J17HbvJ2H14qlF5B4iBiA1AsA1AtA1A1B1B16k7A1lA1lA1lA1lA"),
   (["ci", "caseignorable"], earlier Text.caseIgnorable),
   (["cased"], cased),
   (["cwcf", "changeswhencasefolded"], (lowered.minus foldStable).union foldUnstable),
   (["cwcm", "changeswhencasemapped"], lowered.union raised),
   (["cwl", "changeswhenlowercased"], lowered),
   (["cwt", "changeswhentitlecased"], (raised.minus (titlecase.union titleStable)).union titleDigraphs),
   (["cwu", "changeswhenuppercased"], raised),
   (["dash"], .ofTable "19A124A1fA2tdAslA1l5F1pA13AfAauA2dgA2AvB4AsAceAjA33A14lsB11AaA4pA2u8A8uA"),
   (["di", "defaultignorablecodepoint"], ignorable),
   (["dep", "deprecated"], .ofTable "95A10pA1s3A1A1m1B1qdFjdBjh06A"),
   (["dia", "diacritic"], .ofTable "2mA1A1zA6A4A2BdzGC1H5FhB4A9B71E5tA1jQ1BA1A1B1A3qH4B3qB4B3C1vBA2jK1mKyB3iH15J
     gBB1pAgA3DsA22AgA32AgA32AgA1bC1oAgA7A3bA32AgA32AgA31BgA3gA33AcF1A2zAdE23BrA1A1A4B1uC1B1qA34A1B14B4EpG1AaB
     jlCqcBuA44K9A9nC84AkH2A1cO2K2wAfA12I1iB1mAbB1uB1sF2aY4A6A2C1eCK2hL11KcdA1CbCdCdCdB2k0C8tAe2F2xD2nAn76AcB1A
     sB2aBeBH2uC31BcA11A47ArR1lD10A2nAcA10A45C1tD1fA2sE9C3kBfn4AldP7iA1A1bA19B1vAl8AwvF1BP1IhpC4A4lBfvF12AqEb3C
     1yK1dD5cA15A20B3cB1qA24A9C2wB4yB28BgAoG3E2hC1BdB2nA3A3fB6zB3iA3aB37A7hB76B4A4cA2bAiA29AbpA76A1B29AbtBnA44sO
     8uxA1xcE1nGfoBf6Q28Bcn2D1G1B64hBT2Wf4C3F8H2GuD2v6CJ5eGafA1pDlaBkgG31C1C"),
   (["emoji"], .ofTable "zA6A5J33A4A68dAcA60AmA2iFfBa7BcA4mApK4C5jA6fBaA9A1mD1E9A2A2B2A4A2A1B2A3A3B8C5A1A5LbB2A
     1B1AiA2BiF1A1B3B5A2B4BbB5B2A5B1A1BkB5F1D2A4A2A2F1A2A1A1A6A3A6AaBfA2A4A1A4C1AbB1cC9AeAeAacBcvCjB1fA4AyiAcA
     gpA1A2fzeA5mA4gBcBeA2J23Z1BnAkA2IlB4uBH2EH2B1C2DE2C1KC1CKbF1X7B2HcA2D2A4BdB2A8B9A5CcC8C2A1A4A6A3A6DH1cCR5H
     2C4J3A1B3A2J6bL4A7vBU1J1HC34M3J5CD7O2K6I"),
   (["ecomp", "emojicomponent"], .ofTable "zA6A5J6abA5xA17orA1c5yZe3E14gDgw30DR"),
   (["emod", "emojimodifier"], emojiModifier),
   (["ebase", "emojimodifierbase"], .ofTable "7j1A63AgD2iyfA1oC2A2C39B2KlS3A4C1C7A1AoA5lB4AlA4B4uC3E2bAgC9AbAfzA
     2A8H6A9J2C1kA1pB1B1AhC1M6dC16I"),
   (["epres", "emojipresentation"], .ofTable "6xmB5pD3A2AehBlB1eL17AjAdA8BhB5B8A5AlA7B1A4A2A7A4BsAzA1A4C1A1pCoA
     eAnvB1fA4A2hf2A5mA5aA2J23Z1AoAkA2E1ClB4uBGcI1CR1VcBQ4EcQ3A3CS1A1HE2CKdD1XiAqBdA2eDG1cCR6A3C2C4DbB7I6bL4A
     7vBU1J1HC34M3J5CD7O2K6I"),
   (["extpict", "extendedpictographic"], .ofTable "4pA4A68dAcA60AmA2iFfBa7BcA2nA1yApK4C5jA6fBaA9A1mD1F1L1EJaEN2K
     1A1A6A3A6AaBfA2A4A1A4C1AbE19C9AeAeAacBcvCjB1fA4AyiAcAgpA1A2fzaJVdCvA1oFcBeA2JiCErOaAkA2I1D9QR5MF8KF1cEX38L
     2dBQcD1kHaF14HuDDcBU1J1QY74BNH"),
   (["ext", "extender"], .ofTable "53AewBoeAc9AhiA3tA2hAkwA3jA1tvA1kAgzAb2A1wA3uxA17E2vB2lClxyA16eAqqAmA3tA30AlB
     gorA1lcB157ArA4AxzA85A38BduCy7AfxlBwsB1Ame0BxdAnoC"),
   (["grbase", "graphemebase"], graphemeBase),
   (["grext", "graphemeextend"], graphemeExtend),
   (["grlink", "graphemelink"], .ofTable "1u5A3jA3jA3jA3jA3jA3jA3jA31BgA3gA33A3jA5lA50B1cpBuA4dAi5A6bA2tB1yB3grA
     o7aA11A47A3yA30A8lA6uAimpA16uA15AeA1lA3dB3vA38A50A2qA3kC35A3jA70A3jA3aA38A7hA77B4hA2bAiA29AbpA78B29AbtB
     d0sA"),
   (["hex", "hexdigit"], .ofTable "1cJ7FqF1eaxJ7FqF"),
   (["hyphen"], .ofTable "19A3jAykA3nfA1l5B2rpAkjA14knA4pA2fA"),
   (["idsb", "idsbinaryoperator"], .ofTable "9gwB2JdtA"),
   (["idst", "idstrinaryoperator"], .ofTable "9gyB"),
   (["idsu", "idsunaryoperator"], .ofTable "9haB"),
   (["idcompatmathcontinue"], .ofTable "4yB5A69iA3K1OabA4AmA2e8yApAvApAvApAvApAvApA"),
   (["idcompatmathstart"], .ofTable "6puA4AmA2e8yApAvApAvApAvApAvApA"),
   (["idc", "idcontinue"], idContinue),
   (["ids", "idstart"], idStart),
   (["ideo", "ideographic"], ideographic),
   (["joinc", "joincontrol"], joinControl),
   (["loe", "logicalorderexception"], .ofTable "2tcE3fE25sC2AsmyB2A1B"),
   (["lower", "lowercase"], lowercase),
   (["math"], (categories [.sm]).union otherMath),
   (["mcm", "modifiercombiningmark"], .ofTable "190B2A3nA6A3BddB1C3AvA"),
   (["nchar", "noncharactercodepoint"], noncharacters),
   (["oalpha", "otheralphabetic"], earlier Text.alphabeticSigns),
   (["odi", "otherdefaultignorablecodepoint"], otherIgnorable),
   (["ogrext", "othergraphemeextend"], earlier Text.extendingSigns),
   (["oidc", "otheridcontinue"], otherIdContinue),
   (["oids", "otheridstart"], otherIdStart),
   (["olower", "otherlowercase"], earlier Text.lowerSigns),
   (["omath", "othermath"], otherMath),
   (["oupper", "otheruppercase"], earlier Text.upperSigns),
   (["patsyn", "patternsyntax"], patternSyntax),
   (["patws", "patternwhitespace"], patternWhiteSpace),
   (["pcm", "prependedconcatenationmark"], prependedMarks),
   (["qmark", "quotationmark"], .ofTable "yA4A3nAfA670HpB2rrAcpDdC14ptD59A4A2iB"),
   (["radical"], .ofTable "96oZ1DKcIF"),
   (["ri", "regionalindicator"], .ofTable "2qcmZ"),
   (["sterm", "sentenceterminal"], sentenceTerminal),
   (["sd", "softdotted"], .ofTable "2xB5gA7tAuA1gAkA8wA2qA1A4y1A1fAdA3A3oA4dAbpA5yB27mA2bolB1eB1eB1eB1eB1eB1eB
     1eB1eB1eB1eB1eB1eB1omA8hBqA"),
   (["term", "terminalpunctuation"], .ofTable "xAaA1AbB3An2A8Ae9A1lA20AeA1C50A17K1A6jB1iF1HvA79Bz8B4sA4F8nBlxH
     lhA3gC1zB4dC3A13D2B8qB9uD4iBaB1CtC57E1qBpwAnB9C2i7C8iAdA4AaA1B3BbwBn3vB7hC6bEamB2eB2nA47C43C3jAgB6xAg86A2B
     1lC1D4pAaA1AbB3A1tA2Au2A1cAw6A5jA8mB48F1wF2hDqgE18D59G34D3jC3lB6AgB2gE30A8aB39CcB9yD3O2xB6xCedA1A6zB2fB4B
     biC19AhxB22B10rEdtlB3pA1tCaAfdB87BfeuA5wnD"),
   (["uideo", "unifiedideograph"], .ofTable "a9sJTN1sBFBJhseB1A1BaA1A1B2C1fpyCLFBwGDT6IN2INPeLBKfXX3heHHY5GFF"),
   (["upper", "uppercase"], uppercase),
   (["vs", "variationselector"], variationSelector),
   (["space", "wspace", "whitespace"], whiteSpace),
   (["xidc", "xidcontinue"], idContinue.minus unstableLetters),
   (["xids", "xidstart"], idStart.minus (unstableLetters.union unstableStarts))]

def binaryProperty? (name : String) : Option CharSet := named? name binaryProperties

end StoryMarkup.Unicode
