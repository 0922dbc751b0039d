import StoryMarkup.Unicode.Property
import StoryMarkup.Unicode.Script

/-!
The parts that characters play where texts are broken into clusters, words and sentences.
-/
namespace StoryMarkup.Unicode

open Text (CharSet)

def carriageReturn : CharSet := .codes 0x0D 0x0D

def lineFeed : CharSet := .codes 0x0A 0x0A

def zeroWidthJoiner : CharSet := .codes 0x200D 0x200D

def regionalIndicator : CharSet := .codes 0x1F1E6 0x1F1FF

/-- The first code point of the Hangul syllables, and the number of final consonants with none
counted. -/
def firstSyllable : Nat := 0xAC00

def finalCount : Nat := 28

def openSyllables : CharSet :=
  .ofRanges ((List.range 399).map fun i => (firstSyllable + finalCount * i, firstSyllable + finalCount * i))

def closedSyllables : CharSet :=
  (CharSet.codes firstSyllable (firstSyllable + finalCount * 399 - 1)).minus openSyllables

def freeMarks : CharSet := .ofTable "36zBbA15C2GlA3F2AaC1xgA1BsgmA1AlgiB"

def graphemeBreaks : List (List String × CharSet) :=
  [(["cr"], carriageReturn), (["lf"], lineFeed), (["zwj"], zeroWidthJoiner),
   (["cn", "control"], (CharSet.unions [categories [.zl, .zp, .cc, .cf], (categories [.cn]).meet ignorable]).minus
     (.unions [carriageReturn, lineFeed, zeroWidthJoiner, prependedMarks, graphemeExtend])),
   (["ex", "extend"], graphemeExtend.union emojiModifier),
   (["l"], .ofTable "3cwDRu0wBC"), (["v"], .ofTable "3fkCT1348WtjwA3D"),
   (["t"], .ofTable "3hkDJ132jBW"), (["lv"], openSyllables), (["lvt"], closedSyllables),
   (["pp", "prepend"], .ofTable "16oF5zA1dAaoB28AvfA1f8uAfA6sBelA12lA1A6wA21FjgAcbA"),
   (["ri", "regionalindicator"], regionalIndicator),
   (["sm", "spacingmark"], ((categories [.mc]).minus (graphemeExtend.union freeMarks)).union (.ofTable "2szA3jA"))]

def breakExtend : CharSet := CharSet.unions [graphemeExtend, categories [.mc], emojiModifier]

def tags : CharSet := .codes 0xE0020 0xE007F

def hebrewLetters : CharSet := .ofTable "15cBA4D1cfeA1J1M1E1A1B1B1J"

def kana : CharSet := .ofTable "9ipE2tB3DM1D6oP5sBU1DJ14b2CDytuD1G1B1A7zC1eAeD"

def numberSigns : CharSet := digit.union (.ofTable "16oF2tA35Ac2B28A3cnA1crmAfA")

def undividedLetters : CharSet := .ofTable "2rlBV1BcG1mB1A1E1X1A1J1B9A2E1AlD80BQkAgF4D3A3B7C4McA1ddBZzA4AabBD2E
  bBR4Z2eCA2aAsagE1JaE2pW3A3BX1A3B2E2A1AoClcyBA11G"

def wordSigns : CharSet := .ofTable "jmDcF6B5G1A1QgqC1A17A2wA7vAvlkO9B2vBr4A"

def hiragana : CharSet := (script? "hiragana").getD .empty

def wordLetters : CharSet :=
  (alphabetic.minus (.unions [ideographic, kana, hebrewLetters, breakExtend, hiragana, numberSigns,
    undividedLetters])).union wordSigns

def wordBreaks : List (List String × CharSet) :=
  [(["cr"], carriageReturn), (["lf"], lineFeed), (["zwj"], zeroWidthJoiner),
   (["nl", "newline"], .ofTable "bB3cA68yB"),
   (["extend"], breakExtend.minus zeroWidthJoiner),
   (["ri", "regionalindicator"], regionalIndicator),
   (["fo", "format"], (categories [.cf]).minus (.unions [.codes 0x200B 0x200D, prependedMarks, tags])),
   (["ka", "katakana"], kana), (["hl", "hebrewletter"], hebrewLetters), (["le", "aletter"], wordLetters),
   (["sq", "singlequote"], .codes 0x27 0x27), (["dq", "doublequote"], .codes 0x22 0x22),
   (["mb", "midnumlet"], .ofTable "1aA6axBaA17vxA50A6A"),
   (["ml", "midletter"], .ofTable "1mA3gAjzAd3A44A56aA17u3A1tA5gA"),
   (["mn", "midnum"], .ofTable "18AeAn6AeiA3mB2mAazA4srA17uzA3A53AeA"),
   (["nu", "numeric"], numberSigns),
   (["ex", "extendnumlet"], .ofTable "2nA6a7AfBjA17tqBoC6nA"),
   (["wsegspace"], .ofTable "wA4f3A1vjG1C2cA334A")]

def caselessLower : CharSet := .ofTable "3bkBQ2C"

def caselessUpper : CharSet := .ofTable "5n4BQ2C"

def sentenceExtend : CharSet := (graphemeExtend.union (categories [.mc])).union zeroWidthJoiner

def sentenceLower : CharSet := lowercase.minus (graphemeExtend.union caselessLower)

def sentenceUpper : CharSet := (uppercase.union titlecase).minus caselessUpper

def fullStops : CharSet := .ofTable "1aA6b9A17vxA57A"

def paragraphEnds : CharSet := .ofTable "3pA68yB"

def closingSigns : CharSet := .ofTable "yA4A7qrF1b3B4C2A2i5mC"

def sentenceBreaks : List (List String × CharSet) :=
  [(["cr"], carriageReturn), (["lf"], lineFeed), (["ex", "extend"], sentenceExtend),
   (["se", "sep"], paragraphEnds),
   (["fo", "format"], (categories [.cf]).minus (.unions [joinControl, numberSigns, tags])),
   (["sp"], whiteSpace.minus (.unions [carriageReturn, lineFeed, paragraphEnds])),
   (["lo", "lower"], sentenceLower), (["up", "upper"], sentenceUpper),
   (["le", "oletter"], (alphabetic.union (.codes 0x5F3 0x5F3)).minus
     (.unions [sentenceLower, sentenceUpper, sentenceExtend])),
   (["nu", "numeric"], numberSigns.union (.codes 0x66C 0x66C)),
   (["at", "aterm"], fullStops), (["st", "sterm"], sentenceTerminal.minus fullStops),
   (["sc", "scontinue"], .ofTable "18BcBn6AdaA4uBdmA361A5A1l6B358A14paB1BsBtB2B2AaA4oBcB20A"),
   (["cl", "close"], (categories [.ps, .pe, .pi, .pf]).union closingSigns)]

end StoryMarkup.Unicode
