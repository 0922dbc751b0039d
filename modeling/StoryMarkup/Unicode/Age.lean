import StoryMarkup.Unicode.Edition

/-! The edition that a character came with. -/
namespace StoryMarkup.Unicode

open Text (CharSet)

/-- The characters that each edition added, from the second edition on. A run of them may go on over
code points that had no character before a later edition, or have none still. -/
def additions : List (List String × List CharSet) :=
  [
    "2.0 v20:13lBEkA1tnHD2xtAenArisQNR1mjeCDYFH",
    "2.1 v21:6gcA183zA",
    "3.0 v30:dyDuBB39E1dAaE2fIjA38A3A1A1A1AuAcA1uAcA16H2kB4cA5kC2qB5AfA16HA15dEKadA17AnC7A1GDbqCNP1hhAoF2nC1eB
      2dB20A2vI7hA3dBF3uBcpHxA2eBb2DAP1oG9tXg8JTDg96BVAh1yAyjC",
    "3.1 v31:s4B1dcqBF100DCRF7wgDQSRfherEW",
    "3.2 v32:f4A8eAjM2wBsA43B1lB2B2B1dP9qB8xA1txB16vEL1qrA6VdA1qB1eG2aO4oL6qN3gAuBZ7wT47J2gHmB2iX66N2iBV74TR117C
      2fB8B2mA6oP29O29OmhuBgAcA3AgveCGpdT1hB18A6jB",
    "4.0 v40:f5AiC3bB1rQ28P47EecD9I1sC45BfA19CtCc4A54A1vA1A3sA2cCdA1vA1nA3lH5dB273AiJ7aBRNknB6eAibB8eA7oB38Xv2N
      1e7B1dA17B26D4nD2rBvA534CLyrhA21Bc7MHg0BF3qB12BMV141sDIa2Ah3jyJF",
    "4.1 v41:frK7qE4fD6uB4qAyC1vAiA1mF6pBDenA28AdjA1bArtB87B1A7eA1rA1rA13AvAvAvAfA13AnBvZ15yDRwBFngDJi9B1G1dEtD
      1hA28AfAhwKfwA2tBiK5P7iGnbBEDpuP4uAlk7V1foLNg90EBmuJmeCWetCB17uDK13frCRv2B",
    "5.0 v50:g2N8bC9dA16FgD4mAedCGaoB1Bo2BdB2rxEUg7CHksD2lB1hAgnLjuA7oDndP8sXo7zK7yCDj2gBF4ioBRVyjwRuwB",
    "5.1 v51:ogD2B2fA53A3wP6aEbEwE8eRdtB66AzA5qAtB30A30AqB8BkH59A6AtBcPdnB2pA3C25A5A2A7C4FqCR1l6Ak5JV97BB51D2iF
      9wA3vA2mA1hD104AlQ7cAvDmjE4BW7sG4F9uBFoD2Sl8A4iTlp4H118PR3nE2IN3kSLgjoCo9MI18vBF13hlA63aFR",
    "5.2 v52:10kBkaJW25A6AzB3kA15lD5dD58E1wE2aFe8AhiIfkCR50B1aA1xFLf6BI7eAjcC47C1iAguAj9BtC4CH2fAsdE7qAdB2zG8vA
      syLlmcHzoBVbkDJ8oJ4mBB2sEX3kPT8muCX6svC2qaBF56B90CKV666BPE11apMQzp3GDO",
    "6.0 v60:10mB6wA1qAdcBE63BjA6BrEe2Fc1AgAjAfxD21BoyB1nlCLe4AigHsAmnKkaAjA1DtA4BsAzA1A4C9B1gCoAeAeB140Pu0Cn1hB
      8bEFliBTfwjP3zyEHhaoBBGZcriCL28A1K1A1B1C1C5H1G1Y1A2B1J4B1EG1B1bIlBYP11vwIN",
    "6.1 v61:13jA38AijDQdtArxBdjG1bC23vCcF74H17D250A1A10kB1fG1kB5mJmfkA1bbHzA6qBmDBkmWfnbB30wCL1e8CGVhfaGDoyoJH
      hkBr8D58AgA3A1A1A1A3A6B4A1B4A",
    "6.2 v62:6gqA",
    "6.3 v63:17gA56xD",
    "7.0 v70:ovAbsH2lB3aAijAbF24A3cA7AhrA1fA24A3jA6cJ1s1Hf8Bb5OftB6lOjpCmuGlhAukCaEPh6GnrpF6uLbCYdkBE3hD4wCBgchG
      nxBjA8vBBzA1cBQatXR6wDBcwEO3tBVy7A5sBM2eAcBSHg6XC1o6BP5mL5AdsbMXfw0GH8kcIG1k8AwVlBesL9A1yAmL11A5UhG1zA1A
      52A4B1rB4GtFQ1yBdBV1yBT3wLP",
    "8.0 v80:1pvBWetA9sA78A1atI2ioA5nB21sDmvxI1c8A6oAyF90BgyDcDBga6B240BF58B2CLhsEXy1DeE4gBP2eA27AhlT82CL2ftA
      6eHN62kWKrknK17bBAL4u5C26B27E10H73A23E6rB3vAfzGU11lrINP",
    "9.0 v90:1pyBSppA5qH1GnC2yvIaaA16nD210BnzdA7qAhjbBm9CX2maAchDPeaM13nHAgfdKGOgstBQ1qtDR1mjR3yAn2A15A8cBxCf6CR
      12M",
    "10.0 v100:1nkKb5B70Fe8A1mB33uA72DjpAn3A1jmAheEkkAluvUjluC4i8GGgtDLgavAco0BDHcisFvhByBefLjA8H1BpAiM12F1kW
      1615LBK",
    "11.0 v110:128A13A2uAelC5vA8aA3bAb1A3jA2czAt3BV2yiCmY4OgbEkgAlvfE1j3A8B90Bj78BiAjbCFcmDLabA3aCdwA82AjfA6dCH
      gxAjmPSfnrDM502EesuT3iG4xkCPvuA155A63DacCsToBH7B10FE",
    "12.0 v120:2gnAemA2A2A1F4A7A7B2AdA2tbA2xaA1hAgfAnzeMprBjugWvcAgoAknCQ4fB116CL3zkIbnwK1bI2iB4r2F860X9egTR18rA
      qdCItqA12gA10A6dL81C1bA1dA9A15KaF3M1cDFsBL",
    "12.1 v121:a2nA",
    "13.0 v130:1q6Ji5AbyA3gA2m5B3bqAjcCo8E5iuJg8gM1jeBV1hAmzDh0wA2jnBX72BBajA3qBi2A5BwuDL192AfubN5c1UNjr8C2lC1pA
      10oBzBc3B2iA2tA4B16B6CtA4oAeDfNRxr1GhluHHY",
    "14.0 v140:17hAgiBVlAiKo9AwA3jA20fA7K6nAj5N3hA1cBhnAjpA29aA1bAdvKmfzC1j4BeBKgjxAalP3jA1aB1gwCYcjCG1itZ6eF24A
      16eA3qGo9P440DUbjxDLdnqO80D5wdHNf9B2l1BEohBE10xBE2xqC7kAawA2aA4uB18DaD8ChBFxyfB385D",
    "15.0 v150:2k3Ad6A1elqCn3C1q6Js6DL445A9BConwAyA6lmT2flF79DRu8BP3j6A47L2hAijCfB10CbEeBaBcAeB116oAi6uGFF",
    "15.1 v151:9h8DdrA3tvkXX",
    "16.0 v160:1p3A3p2B1bA7dB1i4C2pmBnadCcCijnBZ1fwDB8iCGw3DUktTykCFo0A45hFXQ5qdCF2diCF685Acg0BAP4kcBV3oyPcnG1aA
      7AlD9A69BK"].map columns

def age? (name : String) : Option CharSet :=
  let newer := if ["1.1", "v11"].contains name then some additions
    else (additions.dropWhile fun (names, _) => !names.contains name).tail?
  newer.map fun editions => ((categories [.cs]).union (unassigned.minus noncharacters)).complement.minus
    (.unions (editions.flatMap (·.2)))

end StoryMarkup.Unicode
