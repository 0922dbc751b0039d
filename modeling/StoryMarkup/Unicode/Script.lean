import StoryMarkup.Unicode.Edition

/-! Scripts, by short and by long name. What several scripts use is listed under each of them. -/
namespace StoryMarkup.Unicode

open Text (CharSet)

/-- A run of characters may go on over unassigned code points. What no other script has is
common. -/
def scriptTable : List (List String × List CharSet) :=
  [
    "adlm adlam:2olcDR:17jAwA55aA2r5A",
    "ahom:1j40CS",
    "hluw anatolianhieroglyphs:1s00WK",
    "arab arabic:16oE1F1N1C1BF1JbZ1ED1BH28BV6oEJ1BC1bv4SZ2HJ34FK31fBE1vCJ181sJH:170AeA3AwAaKqA53yA2r5A14vwB
      140BB",
    "armn armenian:10xDQ1chvE:lkA",
    "avst avestan:1gqoCL:53A8zcB",
    "bali balinese:5c0EX",
    "bamu bamum:wwwDJ124oVW",
    "bass bassavah:1zo0BL",
    "batk batak:5hcCL",
    "beng bengali:1vkEW:jgA1asBhB3u2A1A2B1A8A8A2A4A2CrndA",
    "bhks bhaiksuki:1k3kEE",
    "bopo bopomofo:kqB93tBQ34BF:jrA1CdA8x3C4J1MaD2A6A5fA14jtB7uE",
    "brah brahmi:1hq8EX",
    "brai braille:7wgJV",
    "bugi buginese:54wBF:xjjA",
    "buhd buhid:4lcT:4l1B",
    "cans canadianaboriginal:3y8YPfkCR1ewqP",
    "cari carian:1f34BW:53A68yA2A2qbA",
    "aghb caucasianalbanian:1flcCL:lgA18A18A",
    "cakm chakma:1hxcCT:1yeJ18wJ",
    "cham:xkwDR",
    "cher cherokee:3vkDPtwyDB:lcC1A6BmBbB",
    "chrs chorasmian:1ho0BB",
    "zyyy common:",
    "copt qaac coptic:rmN80gEX:53Ag8A3B1A30B8f5A1614BB",
    "xsux cuneiform:1kw0BZV",
    "cprt cypriot:1g5cCL:1erkCL",
    "cpmn cyprominoan:1nyoDU:1erkB",
    "cyrl cyrillic:sgFC2GM4lsK4gA24A38nBFnr4DRhamB18n4DR:jgA1vC1A1A1A2A5AabB50xA37uA",
    "dsrt deseret:1fcwDB",
    "deva devanagari:1s0DC4O2ZvhcBFmioJ:jgA1asBhB3u2BM1Bs6AqprJ",
    "diak divesakuru:1ji8DL",
    "dogr dogra:1jb4CH:1usLvcwJ",
    "dupl duployan:2fpcGD:53AgfB1AoB8ifA26ozD",
    "egyp egyptianhieroglyphs:1o1sHOS",
    "elba elbasan:1fk0BN:53AgdA",
    "elym elymaic:1hpcW",
    "ethi ethiopic:3k0PT546DQopuBT1qk1BE:lqA",
    "gara garay:1h6oDB:170AeA3A",
    "geor georgian:3a8DM1D2a8BV37kBT:53Ay9A29dA31aA2qeA",
    "glag glagolitic:8owDR2e1sBQ:53AgbA1AamA2A75A29dA31aA2qwAnqjA",
    "goth gothic:1f74BA:53AgcB2A14A",
    "gran grantha:1ibkCF2CE:1u9BhBhsN3bwA1BuC3Bs6A1buyA2hgB1A",
    "grek greek:ogD1I1F1A1DLeP4yuE1eE4E2cA8wJU87Arb2AgyiDAhA155rCR:53Ag8B2A1A1AaA1aA2A1aA56zBijA",
    "gujr gujarati:22pEW:1u9BhBvd6J",
    "gong gunjalagondi:1kdcCV:53A1poB",
    "guru gurmukhi:1z5EN:1u9BhBvd6J",
    "gukh gurungkhema:1xq8CF:1utA",
    "han hani:96oND1bA1ApIeDqsJTN1sBFBJhkwSFn48BcBsgeEGLZ:53A9bsP1C2A1J1MaD2A6A4D57A44PwBV1cBN1kBWfL1fA2gYaE2oBE
      mptHh8dB7uE15veR63iB",
    "hang hangul:3cwJV5ymB75DP35BE1tBEnhdBChvQRB7twCI:9hdC4J1MgA6A5fA14jtB7uE",
    "rohg hanifirohingya:1h4wCF:170AeA3AwA43A",
    "hano hanunoo:4kgU:4l1B",
    "hatr hatran:1gbkBF",
    "hebr hebrew:13lDV1cfcBY:ljB",
    "hira hiragana:9j5DH6C23q9LAiBGcrxA:9hdC4J1MgF1A4B2jD3A2iB14jsB7uEaA19B",
    "armi imperialaramaic:1g74BF",
    "qaai zinh inherited:lcEH7pBckKqAkgD3ffBEe9C1M1G4A6A3B5iCLekB5eBG309D2zB14klPgNr3A6aA38aA1138CSf4ChH2GuD
      h45uJF",
    "phli inscriptionalpahlavi:1gtcBF",
    "prti inscriptionalparthian:1gsgBF",
    "java javanese:xhcCZ2P:xjjA",
    "kthi kaithi:1htsCZ:1uuJ79dAo3iJ",
    "knda kannada:2gwEL:1u9BhB3u2A1B6AnA1Ari3F",
    "kana katakana:9ltDL2C6oP5sBU1DJ14b2J1BSytuQ7zC1eS:lhAtA8v1C4J1MgF1A4B2jD3A2iB14jsB7uEaA19B",
    "kawi:1kowDM",
    "kali kayahli:xdsBT1A:xf2A",
    "khar kharoshthi:1gjkDK",
    "kits khitansmallscript:20o4A5crTR",
    "khmr khmer:4n4ERdiBF",
    "khoj khojki:1i4gCN:25iJv28J",
    "sind khudawadi:1i9cCV:1usBvd6J",
    "krai kiratrai:205cCF",
    "lao laoo:2v5DQ",
    "latn latin:1tZ6Z1bAfA5W1BE1RG13E55nBL6BW5D5M1CR1tJVa9AdAgM3xB6ArAhBO253BFo82DX3EMmoBQ1I1DfpyGt6Z6Z1lxCG
      16itBQ:53AecAaA1C1A9A1A12O1B1AcA2C7B1B12A5A4M7pBy2B1igA2kcAfqA5cA2liAnvsHfaA",
    "lepc lepcha:5j4DB",
    "limb limbu:4xsDB:1utA",
    "lina lineara:1fr4NV:1errBS",
    "linb linearb:1ekgJQ:1erkCL",
    "lisu:wk0BVo8gA:jgAgA8xoB",
    "lyci lycian:1f28BC:6e2A",
    "lydi lydian:1gdcBF:53A8zdA",
    "mahj mahajani:1hzkBM:53A1poLvcwJ",
    "maka makasar:1ko0Y",
    "mlym malayalam:2kgEX:1u9BhB3ucAnAri5C",
    "mand mandaic:1moBE:18gA",
    "mani manichaean:1gowCC:18gA",
    "marc marchen:1k6oCS",
    "gonm masaramgondi:1kaoDL:1usB",
    "medf medefaidrin:20cgDM",
    "mtei meeteimayek:xr4W5lCF",
    "mend mendekikakui:2oe8IG",
    "merc meroiticcursive:1ggwDR",
    "mero meroitichieroglyphs:1gg0BF:6e5A",
    "miao plrd:20hsGD",
    "modi:1iwwDL:x80J",
    "mong mongolian:4qoB2A1GI1e45M:4qqB1A1m1A34hB5D",
    "mro mroo:1zk0BV",
    "mult multani:1i80BP:21yJ",
    "mymr myanmar:35sGDu9sBE2pBFle8T:xf2A",
    "nbat nabataean:1g8wBV",
    "nagm nagmundari:2nrkBP",
    "nand nandinagari:1jmoCQ:1usBowJ35lA8A7ArhxF",
    "talu newtailue:51cDR",
    "newa:1iioDT",
    "nko nkoo:1j4CL:170AeA3A1ctaB",
    "nshu nushu:20o1Acy6PF",
    "hmnp nyiakengpuachuehmong:2n0gDB",
    "ogam ogham:4g0BC",
    "olck olchiki:5lcBV",
    "onao olonal:2nyoBV:1usB",
    "hung oldhungarian:1h1cEX:6e2A2A2qbAfA",
    "ital olditalic:1f5sBV",
    "narb oldnortharabian:1gn4BF",
    "perm oldpermic:1f80BQ:53Ag8A5CaAa7A",
    "xpeo oldpersian:1fa8CB",
    "sogo oldsogdian:1hj4BN",
    "sarb oldsoutharabian:1gm8BF",
    "orkh oldturkic:1gxsCU:6e2A2qdA",
    "ougr olduyghur:1hm8Z:18gA1fhtA",
    "orya oriya:269EO:1u9BhB3ucAnA",
    "osge osage:1fhsCX:ldA2A6A24A",
    "osma osmanya:1fggBP",
    "hmng pahawhhmong:1zpcFN",
    "palm palmyrene:1g80BF",
    "pauc paucinhau:1juoCE",
    "phag phagspa:x8gCD:4qqB1A1m1A34iA",
    "phnx phoenician:1gcgBF",
    "phlp psalterpahlavi:1gu8BV:18gA",
    "rjng rejang:xf4BV",
    "runr runic:4gwCW3K:4izC",
    "samr samaritan:1kwCK:94hA",
    "saur saurashtra:xa8DL",
    "shrd sharada:1i0wDR:1u9A3utA1A2B2ArinF2A",
    "shaw shavian:1ff4BV:53A",
    "sidd siddham:1itcDP",
    "sgnw signwriting:2l8gBAL",
    "sinh sinhala:2o1EL1fccT:1usB3v0A",
    "sogd sogdian:1hkgBP:18gA",
    "sora sorasompeng:1hw0BP",
    "soyo soyombo:1jrkDE",
    "sund sundanese:5fkCL74H",
    "sunu sunuwar:1k1sCF:lcB1A9A2AsA3A",
    "sylo sylotinagri:x6oBS:1usB3kJ",
    "syrc syriac:1dsDB7kK:lfB2B1AlA2C7B1AkbAeB2AwAaKqA4nbA1A",
    "tglg tagalog:4jkBF:4l1B",
    "tagb tagbanwa:4m8T:4l1B",
    "tale taile:500BK:lcB5B3A2lvJ",
    "lana taitham:55sFL",
    "tavt taiviet:xogDR",
    "takr takri:1j0gCV:1usBvd6J",
    "taml tamil:29uEQ1ih1CL:1u9BhB3ucAro8Aky5A1A1jB",
    "tnsa tangsa:1zlcDL",
    "tang tangut:20o0AvKFVe8I:9gwPdrA",
    "telu telugu:2dcEX:1u9BhB3ucAnA",
    "thaa thaana:1hcBX:170AeB2A1sJ1cw8AaA",
    "thai:2rlCF5BB:jgAqA17A19A",
    "tibt tibetan:2yoIE4B:9hkD",
    "tfng tifinagh:8xcDB:leA1A2A1A",
    "tirh tirhuta:1im8DL:1u9BhB3v0Ari5J",
    "todr todhri:1fpcBZ:ldA2A2A9A1A22A",
    "toto:2nbkBE:jgA",
    "tutg tulutigalari:1if4DU:2jqJ35uA1Ari3F57A",
    "ugar ugaritic:1f9cBF",
    "vai vaii:wlcLN",
    "vith vithkuqi:1fn4CY",
    "wcho wancho:2ncwCL",
    "wara warangciti:1jfkDR",
    "yezi yezidi:1hfkBX:170AeA3A1sJ",
    "yi yiii:vlsBVA:9hdB5J2H67A14rpE",
    "zanb zanabazarsquare:1jpcCT"].map columns

def shared : CharSet := .unions (scriptTable.flatMap (·.2.drop 1))

def common : CharSet :=
  (CharSet.unions (categories [.co, .cs] :: scriptTable.flatMap (·.2.take 1))).complement

def scriptSets? (name : String) : Option (List CharSet) :=
  (named? name scriptTable).map fun sets => if ["zyyy", "common"].contains name then [common] else sets

def script? (name : String) : Option CharSet := (scriptSets? name).bind (·.head?.map (·.minus unassigned))

def scriptExtensions? (name : String) : Option CharSet := do
  let s := (.unions (← scriptSets? name) : CharSet).minus unassigned
  if ["zyyy", "common", "qaai", "zinh", "inherited"].contains name then some (s.minus shared) else some s

end StoryMarkup.Unicode
