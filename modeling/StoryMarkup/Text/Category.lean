import StoryMarkup.Text.CharSet

/-!
General categories of characters, from the seventeenth edition of the Unicode Character Database.
The table lists runs of equal category from code point 0: a character for the category, then the
length of the run unless it is 1. Where two categories take turns a number of times, it stands after
a star.
-/
namespace StoryMarkup.Text

inductive Category where
  | lu | ll | lt | lm | lo | mn | mc | me | nd | nl | no
  | pc | pd | ps | pe | pi | pf | po | sm | sc | sk | so | zs | zl | zp | cc | cf | cs | co | cn
deriving DecidableEq, Repr, Inhabited

namespace Category

/-- All categories, in the order of the characters from `>` on that stand for them in the table. -/
def all : List Category :=
  [.zl, .zp, .cs, .lu, .ll, .lt, .lm, .lo, .mn, .mc, .me, .nd, .nl, .no, .pc, .pd, .ps, .pe, .pi, .pf, .po, .sm, .sc,
   .sk, .so, .zs, .cc, .cf, .cn, .co]

def isMark (c : Char) : Bool := '>' ≤ c && c ≤ '['

def runs : String :=
  "X20WR3TR3NORSRMR2IaR2S3R2A1aNROULUB1aNSOSX21WRT4VRUVEPSYVUVSK2UBR2UKEQK3RA17SA7B18SB8AB*1bAB2AB*7AB2AB*17A2BA*2B3
   A2BABA2BA3B2A4BA2BA3B3A2BA2BA*2BA2BAB2ABA2BA3BABA2B2EAB3E4ACBACBACBA*8B2AB*8AB2ACBABA3BA*1dB7A2BA2B2ABA4BA*4B45E2
   B1aD12U4DcUeD5U7DUDU11F70AB*2DUABZ2DB3RAZ4U2ARA3ZAZA2BA11ZA9B23AB2A3B3AB*bAB5ABSABA2B2A33B30AB*11VF5H2AB*1bA2BA*6
   B2AB*30ZA26Z2DR6B29RMZ2V2TZF2dMFRF2RF2RFZ8E1bZ4E4R2ZbY6S3R2TR2V2FbRYR3E20DEaF15IaR4E2FE63REF7YVF6D2F2VF4E2IaE3V2E
   ReZYEFE1eF1bZ2E59FbEZeIaE21F9D2VR3DZ2FT2E16F4DF9DF3DF5Z2RfZE19F3Z2RZEbZ5E18UE7Y2Z5F9E29DF18YF20GE36FGFEG3F8G4FG2E
   F7EaF2R2IaRDEfFG2ZE8Z2E2Z2E16ZE7ZEZ3E4Z2FEG3F4Z2G2Z2G2FEZ8GZ4E2ZE3F2Z2IaE2T2K6VTERFZ2F2GZE6Z4E2Z2E16ZE7ZE2ZE2ZE2
   Z2FZG3F2Z4F2Z2F3Z3FZ7E4ZEZ7IaF2E3FRZaF2GZE9ZE3ZE16ZE7ZE2ZE5Z2FEG3F5ZF2GZG2FZ2EZfE2F2Z2IaRTZ7EF6ZFG2ZE8Z2E2Z2E16Z
   E7ZE2ZE5Z2FEGFGF4Z2G2Z2G2FZ7F2GZ4E2ZE3F2Z2IaVEK6ZaFEZE6Z3E3ZE4Z3E2ZEZE2Z3E2Z3E3Z3EcZ4G2FG2Z3G3ZG3FZ2EZ6GZeIaK3V6T
   VZ5FG3FE8ZE3ZE17ZE10Z2FEF3G4ZF3ZF4Z7F2ZE3ZE2Z2E2F2Z2IaZ7RK7VEFG2RE8ZE3ZE17ZEaZE5Z2FEGFG5ZFG2ZG2F2Z7G2Z5E3ZE2F2Z2
   IaZE2GZcF2G2E9ZE3ZE29F2EG3F4ZG3ZG3FEVZ4E3GK7E3F2Z2IaK9VE6ZFG2ZE12Z3E18ZE9ZEZ2E7Z3FZ4G3F3ZFZG8Z6IaZ2G2RZcE30FE2F7
   Z4TE6DF8RIaR2Z25E2ZEZE5ZE18ZEZEaFE2F9EZ2E5ZDZF7ZIaZ2E4Z20EV3RfVRV3F2V6IaKaVF*3NO*2G2E8ZE24Z4FeGF5RF2E5FbZF24ZV8F
   V6ZV2R5V4R2Z25E2bG2F4GF6GF2G2F2EIaR6E6G2F2E4F3EG3E2G7E3F4EdFG2F2G6FEGIaG3FV2A26ZAZ5AZ2B2bRDB3E149ZE4Z2E7ZEZE4Z2
   E29ZE4Z2E21ZE4Z2E7ZEZE4Z2EfZE39ZE4Z2E43Z2F3R9K14Z3E10VaZ6A56Z2B6Z2ME26cVRE11WE1aNOZ3E4bR3J3E8Z7E12F3GZ9E13F2GR2Z9
   E12F2ZcEdZE3ZF2ZcE34F2GF7G8FG2FbR3DR3TEFZ2IaZ6KaZ6R6MR4F3YFIaZ6E23DE35Z7E5F2E22FEZ5E46ZaE1fZF3G4F2G3Z4G2FG6F3Z4V
   Z3R2IaE1eZ2E5ZbE2cZ4E1aZ6IaKZ3V22E17F2G2FZ2R2E35GFGF7ZFGFG2F8G6FaZ2FIaZ6IaZ6R7DR6Z2FeHF1fZ2FcZ14F4GE2fFGF5GFG5FG2
   E8ZR2IaR7VaF9V9R3F2GE1eGF4G2F2GF3E2IaE2cFGF2G3FGF3G2Z8R4E24G8F8G2F2Z3R5IaZ3E3IaE1eD6R2B9ABZ5A2bZ2A3R8Z8F3RFdGF7E4
   FE6FE2GF2EZ5B2cD3fBdDB22D25F40AB*4aAB9AB*30AB9A8B6Z2A6Z2B8A8B8A8B6Z2A6Z2B8ZA*4B8A8BeZ2B8C8B8C8B8C8B5ZB2A4CUBU3B3Z
   B2A4CU3B4Z2B2A4ZU3B8A5U3Z2B3ZB2A4CU2ZWbY5M6R2PQNP2QNPR8>?Y5WR9PQR4L2R3SNORbSRLRaWY5ZYaKDZ2K6S3NODKaS3NOZDdZ3T22Ze
   FdH4FH3FcZfV2AV4AV2BA3B2A3BVAV2SA5V6AV*3A4VBA4BE4BV2B2A2S5AB4VSV2BVK10J23ABJ4KV2Z4S5V5S2V4SV2SV2SV7SV1fS2V2SVSV1f
   S10cV8NO*2V14S2V7NOV51SV1eS19V28S6V48Z16VbZ15K3cV4eK16Vb7SV9SV36S8V6fSVf8NO*7K1eV2cS5NOS1fNO*5S10V100S83NO*bS3fN
   O*2S20NOS102V30S15V2S6V27Z2V8aA30B30ABA3B2AB*3A4BAB2AB6D2A3BA*31B2V6AB*2F3ABZ5R4KR2B26ZBZ5BZ2E38Z7DRZeFE17Z9E7ZE7
   ZE7ZE7ZE7ZE7ZE7ZE7ZF20R2PQ*2R3PQRPQR9MR2MRPQR2PQNO*4R5DRaM2R4MRNRdV2R3NO*4MZ22V1aZV59ZcVd6Z1aV10WR3VDEJNO*5V2NO*4
   MNO2VJ9F4G2MD5V2J3DERV2ZE56Z2F2U2D2EME5aRD3EZ5E2bZE5eZV2K4VaE20V26Z9VE10V1fZKaV1eK8VKfV20KaV27KfV140E19c0V40E5215
   DE477Z3V37Z9E28D6R2E10cDR3E10IaE2Z14AB*17EFH3RFaRDAB*eD2F2E46JaF2R6Z8U17D9U2AB*6AB3AB*1fDB8AB*2A2BA*4BDU2AB*2EABA
   B3AB*aA5BA5BA*7BA4BABA2BA*8Z14D4ABED2BE7FE3FE4FE17G2F2GV4FZ3K6V2TVZ6E34R4Z8G2E32G10F2Z8R2IaZ6F12E6R3ERE2FIaE1cF8
   R2E17FbG2ZbRE1dZ3F3GE2fFG2F4G2F2G3RdZDIaZ4R2E5FDE9IaE5ZE29F6G2F2G2F2Z9E3FE8FGZ2IaZ2R4E10DE6V3EGFGE32FEF3E2F2E5F2E
   FEZ18E2DR2EbGF2G2R2ED2GFZaE6Z2E6Z2E6Z9E7ZE7ZB2bUD4B9DU2Z4B50E23G2FG2FG2RGFZ2IaZ6E2ba4ZcE17Z4E31Z4@800[1900E16eZ2
   E6aZ26B7ZcB5Z5EFEaSEdZE5ZEZE2ZE2ZE6cU11V10E16bONV10E40V2E36V8Z20EcTV3F10R7NORZ6F10RM2L2NO*8R2NOR4L3R3ZR4MNO*3R3SM
   S3ZRTR2Z4E5ZE87Z2YZR3TR3NORSRMR2IaR2S3R2A1aNROULUB1aNSOSNORNOR2EaDE2dD2E1fZ3E6Z2E6Z2E6Z2E3Z3T2SUVT2ZVS4V2ZaY3V2Z2
   EcZE1aZE13ZE2ZEfZ2EeZ22E7bZ5R3Z4K2dZ3V9J35K4V11K2V3ZVdZ3VZ2fV2dFZ82E1dZ3E31ZfFK1bZ4E20K4Z9E14JE8JZ5E26F5Z5E1eZR
   E24Z4E8RJ5Z2aA28B28E4eZ2IaZ6A24Z4B24Z4E28Z8E34ZbRAbZAfZA7ZA2ZBbZBfZB7ZB2Z3E34ZcE137Z9E16ZaE8Z18D6ZD2aZD9Z45E6Z2EZ
   E2cZE2Z3EZ2E17ZRK8E17V2K7E1fZ8K9Z30E13ZE2Z5K5E16K6Z3RE1aZ5RE1aZ26E38Z4K2E2K10Z2K2eEF3ZF2Z5F4E4ZE3ZE1dZ2F3Z4FK9Z7
   R9Z7E1dK2RE1dK3Z20E8VE1cF2Z4K5R7Z9E36Z3R7E16Z2K8E13Z5K8E12Z7R4ZcK7Z50E49Z37A33ZdB33Z7K6E24F4Z8IaZ6IaE4DEA16Z3F5MD
   B16Z8S2Zd0K1fZE2aZF2MZ2E2Z10E3DE2Z8RV8Z21F6E1dKaEZ8E16FbK4R5Z16E12F4R4Z26E15K7Z14E17Z9GFGE35FfR7Z4K14IaFE2F2EZ9F3
   GE2dG3F4G2F2R2YR4FZaYZ2E19Z7IaZ6F3E24F5GF8ZIaR4EG2EZ8E23FR2EZ9F2GE30G3F9G2E4R4F4RGFIaERER3ZK14ZbE12ZE19G3F3G2FGF2
   R6FE2FZ3eE7ZEZE4ZEfZEaRZ6E2fFG3F8Z5IaZ6F2G2ZE8Z2E2Z2E16ZE7ZE2ZE5ZF2EG2FG4Z2G2Z2G3Z2EZ6GZ5E5G2Z2F7Z3F5ZbEaZEZ2EZ
   E26ZEG3F6ZGZ2GZG4ZG2FGFE*2R2ZR2Z8F2Z1dE35G3F8G2F3GFE4R5IaR2ZRFE3Z1eE30G3F6GFG4F2GF2E2REZ8IaZa6E2fG3F4Z2G4F2GF2R17
   E4F2Z22E30G3F8G2FGF2R3EZbIaZ6RdZ13E2bFGFG2F6GFERZ6IaZ6I14Z1cE1bZ2FGFG2F4GF5Z4IaK2R3VE7Zb9E2cG3F9GF2RZ64A20B20IaK9
   ZcE8Z2EZ2E8ZE2ZE18G6ZG2Z2F2GFEG*2FR3Z9IaZ46E8Z2E27G3F4Z2F2G4FEREGZ1bEFaE28F6GEF4R8FZ8EF6G2F3E2eFdGF2R3ER5ZdE49Z7
   RaZ56FGF3GFGZ58E21RZeIaZ6E9ZE25GF7ZF6GFER5ZaIaK13Z3R2E1eZ2F16ZGF7GF2GF2Z49E7ZE2ZE26F6Z3FZF2ZF7EFZ8IaZ6E6ZE2ZE20G5
   ZF2ZG2FGFEZ7IaZ6E29DE2Z4IaZf6E13F2G2R2Z7F2EGEdZE22G2F5Z3G2FGFRdIaFZ55EZfK15V8T4V11ZdRE39aZ66J6fZR5ZbEc4Za4cE61R2
   ZdE430Y10FE6FfZaEf9bZ5E247Z1ab9E1eFcG3F3IaZ6c6E239Z7E1fZIaZ4R2E4fZIaZ6E1eZ2F5RZaE30F7R5V4D4RVZaIaZK7ZE15Z5E13Z1b0
   D3E28D2R3IaZc6A20B20K17R4Z5A19Z2B19Z2cE4bZ4FEG37Z7F4DdZ40D2RDFZbG2D2J3Z9E1cd6Z29E20Z61E73Z21fdD4ZD7ZD2ZE123ZfEZ1d
   E3Z2EZeE4Z8E18cZ904E6bZ5EdZ3E9Z7EaZ2VF2RY4Zf5cVf0IaV3Z3V1b4Z6V17ZfV10SZfF2eZ2F17Z9V74Z3cVf6ZaV27Z2V3cG2F3V3G6Y8F8
   V2F7V1eF4V3dZ15V42F3VZ7aK14ZcK14ZcV57Z9K19Z87A1aB1aA1aB7ZB12A1aB1aAZA2Z2AZ2A2Z2A4ZA8B4ZBZB7ZBbA1aB1aA2ZA4Z2A8ZA7Z
   B1aA2ZA4ZA5ZAZ3A7ZB1aA1aB1aA1aB1aA1aB1aA1aB1aA1aB1aA1aB1cZ2A19SB19SB6A19SB19SB6A19SB19SB6A19SB19SB6A19SB19SB6ABZ2
   I32V200F37V4F32V8FVeFV2R5ZfF5ZFfZ450BaEB14Z6B6Zd5F7ZF11Z2F7ZF2ZF5Z5D3eZ21FZ70E2dZ3F7D7Z2IaZ4EVZ140E1eFZ11E2cF4Ia
   Z5TZ1d0E1bDF4IaZd6E1eF2EIaZ4RZc0E1fZE3FE2FE7F2E5FZ8EDZe0E7ZE4ZE2ZEfZEc5Z2K9F7Z29A22B22F7DZ4IaZ4R2Z311K3bVK3TK4Z4c
   K2dVKfZc2E4ZE1bZE2ZEZ2EZEaZE4ZE*2Z6EZ4EZ*3E3ZE2ZEZ2EZ*5E2ZEZ2E4ZE7ZE4ZE4ZEZEaZE11Z5E3ZE5ZE11Z34S2Z10eV2cZ4V64ZcVf
   Z2VfZVfZV25ZaKdVa1Z38V1dZdV2cZ4V9Z7V2ZeV6Z9aVfbU5V2d9Z3V11Z3VdZ3VdaZ6VcZ4VZfVcZ4V38Z8VaZ6V28Z8V1eZ2VcZ4V2ZeS9Z27
   V158Z8VeZ2VdZ3VbZ3V39ZVZ4V10Z2VcZ4VaZ7V93ZV5cIaVZ405Ea6e0Z20E111eZ2E168eZ2E1d31ZfE26eZ9a2E21eZ5e2E134bZ5E212a
   Zacb87YZ1eY60Z80Ff0Zfe10[fffeZ2[fffeZ2"

def addEntry (done : List (Category × Nat)) (entry : List Char) : List (Category × Nat) :=
  match entry.head?.bind fun mark => all[mark.toNat - 62]?, entry.drop 1 with
  | some k, [] => (k, 1) :: done
  | some k, '*' :: times => (List.replicate (Table.hex times) ((k, 1) :: done.take 1)).flatten ++ done.drop 1
  | some k, count => (k, Table.hex count) :: done
  | none, _ => done

def starts : Array (Nat × Category) :=
  let entries := ((runs.toList.filter (!isBlank ·)).splitBy fun _ c => !isMark c).foldl addEntry []
  (entries.reverse.foldl (fun (done, n) (k, count) => (done.push (n, k), n + count)) (#[], 0)).1

def ranges : List (Category × Nat × Nat) :=
  starts.toList.zipWith (fun (a, k) (b, _) => (k, a, b - 1))
    (starts.toList.drop 1 ++ [(CharSet.lastCode + 1, .cn)])

def chars (ks : List Category) : CharSet :=
  CharSet.ofRanges (ranges.filterMap fun (k, r) => if ks.contains k then some r else none)

def letters : List Category := [.lu, .ll, .lt, .lm, .lo]

def marks : List Category := [.mn, .mc, .me]

def numbers : List Category := [.nd, .nl, .no]

end Category
end StoryMarkup.Text
