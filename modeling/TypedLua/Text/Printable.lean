import TypedLua.Text.Range

/-!
# Printable characters

A character is printable unless it is a control or format character, a separator other than the
ASCII space, or not assigned at all.
-/

namespace TypedLua.Text

/-- Ranges beyond ASCII of characters that are not printable, ends included. -/
def unprintableRanges : List (Nat × Nat) := [(0x80, 0xa0), (0x2028, 0x202f)] ++ rangeTable 0 (lengthsOf [
  " 173 1 714 2647111k1 397 1 38 2 50 231 55 8r46hm1 192 1 48 2 59 2 101 e 59 2 49 2f1s211b5v9 74 1 161",
  "18222m1711342922248142152p2316422m17121212211542233174117ha319131m1712152a131321f42c771318222m1712152922237342152ia216331432111232333c4533142161el5d131n1g291314721321242a7m131n1a152913147262142a12dd131",
  "51 13164g2q131i3o191127314611186a23c 58 4t 37 211151o111n2511162a24w 72 1 36 4 39 1 36 1f1d 37  198",
  "11512 377 142711142 41 142x142711142f1 57 142 67 2w3q6 86 262 640 1s3 89 7m9o9kcd1312c 94 2a6a6e1b6 89 7",
  "43 5 70 av1c4c413 42 25b 44 4q6b3 62 2 65 1t2b6a6e2v 49  77 3 47 1 116 8 60 3f3 60 7 43 2b8 43 5 534 262",
  "38 26281111111v2 53 1f1e261j2319h 79 h22r1d3xfxf 140 4 663 pbl 1812 2w1 349 5 45 11512 56",
  "72eo97171717171717171 126 yq1 89 c 214 qc5 63 1 86 2 103 5 43 1 94 1 84 c 47 1 29293 3 55 9 348 k 184 8",
  "203 521115o 59 3a6 56 8 70 8c6 116 bu3 78 1b4x1 55 9e2a2 103 osa6262697171 60 4 126 2a6 11172 cn4 49 ",
  "8452  366 2 106  38 7c55q151112121 125 g 445 2 54 71w 42 6 51 1j14451 135 4 190",
  "362626233717d22c1q1j121f2ey 123 534 45 3 88 1d31 47  46  130 t3 49 fs4 36 9u5 43 5u1 37 4e 42  158 2a6",
  "36 4 36 4 40 8 52 bc1f17121b1f1712 67  311 9ma8o61 42 19 69 6211 44 12312n1 72 89 48 j125x3r51 64  56",
  "4k2 50 1258131t234a797 64 w 39 4c9 54 3t2r5q74c7 80  73  55  51 d 51 7 46 8a 294 v1 42 1322 78  40 8 42",
  "mq 38 skn9 78 4 36 9 62 15dp7a6 53 1i8 39 9 96 1kbi1 44  65 711141f1b6 59",
  "5a6418222m1712151a22232161572735 139  92 15u 72 8a 166  54 2 38 y 69 ba6dj 58 6a 54 r2f4n 185  60  100 ",
  "83 c82128121u122c9a 70 82 46 2br 72 8 83 d 73  263 91 45 1eat3w2m1e 73 7121 44 3112198a66121 37 12167a",
  "310 p 183 1f 50 d 923  102  111 15b 196  2636  99 d 1071  4049  583  8633  569 7v1a4 81 1a6u26a 70",
  "aa171l5j 688  91  101  75 4 57 7h 64 5b2e 6136 8 1238  42 9 8935 417121 291  45 3h48 396  2308  107",
  "5d397a24 4704  46 2n9 116  60  246 a 39 2 74 8 112 l 70  154 kc 87 9p 135  85 1 71 122122241c11171 65",
  "1428171s141511371 340 2 292 2 702 f51f 1104 v 225 71h271215 213  45 3e2a42 320 vh 58 51 1248 714121f1",
  "197 2g 41  76 4a42 785  68  76  61  194",
  "41r1211211a141111614111111312112111111111121124171414111a1h53151h 52 2 270  44 4 100 cf2f1f1 37 a 174 ",
  "56 td 44 4972e6 154  984 5g3d3 116 c 89 7c41fc4 56 8a6 40 8u22 78  340 ce2535379t3b56aa68879 147 1 55 ",
  "37 a 1030  42720 w 4153 7 222 2 5762 e 7473  3103  542  1506  4939  716213  240  196112 "])

def isPrintable (c : Char) : Bool :=
  if c.toNat < 128 then 32 ≤ c.toNat && c.toNat < 127 else !inRanges unprintableRanges c

end TypedLua.Text
