import TypedLua.Text.Digit

/-!
# Identifiers of the target language

A name of the target language starts with a letter or the underscore and goes on with alphanumeric
characters, marks and underscores.
-/

namespace TypedLua.Text

def startExtraRanges : List (Nat × Nat) := rangeTable 0 [
  5870,3,404,2,2193,1,21,1,49,35,2,4,3710,1,25,9,14,3,30379,10,23120,53,460,1,8,1,134,5,8234,111]

def startMissingRanges : List (Nat × Nat) := rangeTable 0 [
  890,1,2744,1,127,1,8059,1,52782,6,406,2,116,1,1,1,1,1,1,1,1,1,1,1,1,1,1,1,287,2]

def continueExtraRanges : List (Nat × Nat) := rangeTable 0 (lengthsOf [
  " 183 1 584  112 n1 251 5 265  45 11121211 72 b 48 lg1 101 7262214z1ur 91 b 58 991o4191315 43 3 60 8 42 o1x",
  "54 31i17a2t3 56 117222391a2q123 56 115422331u231b3 56 1181313k2m613 56 117222373a2u1 59 5331491 40 5",
  "55 117131472b2t3 56 117131472b2s4 55 217131491a2t3 70 1461118i2 61 127c8 98 129b6 74 2r1111142 49 k125b1",
  "36 91 100 kn443132734dc11a4 703 3 946 4s3t2u2 64 w91 45 311 117 2y1 118 c4c 219 5 57 a1t21 48 e1g 49 5",
  "47 h 38 9c3ud 56 e 48 k 152 31l416123 198  64  575 2j1 123 d413c 39 1l1 3008 3 141 1 96 w 554 6 105 2",
  "30164 14aw2 80 2 272 13141n541 83 2 50 iqid1 38 8pd 44 4 47 e 36 1 67 ec182 45 3 50 113225211 41 552",
  "236 812 20272 1 737 ggg32o3 239 1 701 1 226 1 149 5 1670 31254 40 341 165 2 573 4 387 2 153 b 49 4 122 3",
  "53 f 41 122a4 45 b71 61 3 36 eg2 44 1c3 48 e8412 92 c61 160 cl4 55 217222391a22735 192 in1 81 k 235 729r2",
  "82 h 106 d 101 f 256 f 245 612241112 141 72731sa 40 714819b 46 g 405 818 82 m1e 122 631121711 66 51215",
  "347 4 19449 5 59 7 1048 11 55 74 81 1b2 19627 2 4705  46 2n 542 5368827u4 148 3 1979  55 4 50 81e1m51f",
  "1360 71h271215 261 7 375 1 61 4 1504 7 109 7 792501  240 "])

def continueMissingRanges : List (Nat × Nat) := rangeTable 0 (lengthsOf [
  " 178 25123 699 1 1657 6 376 6 120 3 133 7 217 7h9 433 a 1086 b 1139 a 2166 1366a 198 g 41 1 726  60  78 m",
  "630 u 1385 1 305 1 866 4 138 au81fwa 39 f 30064 6 21544 6 406 2 116 111111111111111 648  45  65 4h2 341 r",
  "36 4 1332 8p7 39 9 75 5m6 160 22g2 46  64 9 52 2u3 75 5 104 8o8 41 7 330 6 352 v 158 a 42 4 112 7 134 k",
  "379 k 1349 2 430 9 871 j 851 l 19334 7 798 n 25673 k 108 p 5454 9 929  59 1314 76  45 1f 962 d"])

def isNameStart (c : Char) : Bool :=
  if c.toNat < 128 then c.isAlpha || c == '_'
  else inRanges startExtraRanges c || (isLetter c && !inRanges startMissingRanges c)

def isNameContinue (c : Char) : Bool :=
  if c.toNat < 128 then c.isAlphanum || c == '_'
  else inRanges continueExtraRanges c || (isAlphanumeric c && !inRanges continueMissingRanges c)

def isIdentifier (s : String) : Bool :=
  match s.toList with
  | [] => false
  | c :: cs => isNameStart c && cs.all isNameContinue

end TypedLua.Text
