import TypedLua.Text.Form

/-!
# Letter case

Upper and lower case of text.
-/

namespace TypedLua.Text

/-- A run of letters with one case distance: first, last, stride and distance. -/
abbrev CaseRun := Nat × Nat × Nat × Int

/-- The runs of a table: ranges with their distances, and before them strides other than one. -/
def CaseRun.table (lines : List String) : List CaseRun :=
  (tableWords lines).map fun word =>
    let parts := word.splitOn ":"
    let range := rangeOf (parts.headD "")
    let stride := if parts.length < 3 then 1 else ((parts.getD 1 "").toNat?).getD 1
    (range.1, range.2, stride, ((parts.getLastD "").toInt?).getD 0)

def lowerRuns : List CaseRun := CaseRun.table [
  "c0-d6:32 d8-de:32 100-12e:2:1 132-136:2:1 139-147:2:1 14a-176:2:1 178:-121 179-17d:2:1 181:210",
  "182-184:2:1 186:206 187:1 189-18a:205 18b:1 18e:79 18f:202 190:203 191:1 193:205 194:207",
  "196:211 197:209 198:1 19c:211 19d:213 19f:214 1a0-1a4:2:1 1a6:218 1a7:1 1a9:218 1ac:1 1ae:218",
  "1af:1 1b1-1b2:217 1b3-1b5:2:1 1b7:219 1b8:1 1bc:1 1c4:2 1c5:1 1c7:2 1c8:1 1ca:2 1cb-1db:2:1",
  "1de-1ee:2:1 1f1:2 1f2-1f4:2:1 1f6:-97 1f7:-56 1f8-21e:2:1 220:-130 222-232:2:1 23a:10795 23b:1",
  "23d:-163 23e:10792 241:1 243:-195 244:69 245:71 246-24e:2:1 370-372:2:1 376:1 37f:116 386:38",
  "388-38a:37 38c:64 38e-38f:63 391-3a1:32 3a3-3ab:32 3cf:8 3d8-3ee:2:1 3f4:-60 3f7:1 3f9:-7 3fa:1",
  "3fd-3ff:-130 400-40f:80 410-42f:32 460-480:2:1 48a-4be:2:1 4c0:15 4c1-4cd:2:1 4d0-52e:2:1",
  "531-556:48 10a0-10c5:7264 10c7:7264 10cd:7264 13a0-13ef:38864 13f0-13f5:8 1c90-1cba:-3008",
  "1cbd-1cbf:-3008 1e00-1e94:2:1 1e9e:-7615 1ea0-1efe:2:1 1f08-1f0f:-8 1f18-1f1d:-8 1f28-1f2f:-8",
  "1f38-1f3f:-8 1f48-1f4d:-8 1f59-1f5f:2:-8 1f68-1f6f:-8 1f88-1f8f:-8 1f98-1f9f:-8 1fa8-1faf:-8",
  "1fb8-1fb9:-8 1fba-1fbb:-74 1fbc:-9 1fc8-1fcb:-86 1fcc:-9 1fd8-1fd9:-8 1fda-1fdb:-100",
  "1fe8-1fe9:-8 1fea-1feb:-112 1fec:-7 1ff8-1ff9:-128 1ffa-1ffb:-126 1ffc:-9 2126:-7517 212a:-8383",
  "212b:-8262 2132:28 2160-216f:16 2183:1 24b6-24cf:26 2c00-2c2f:48 2c60:1 2c62:-10743 2c63:-3814",
  "2c64:-10727 2c67-2c6b:2:1 2c6d:-10780 2c6e:-10749 2c6f:-10783 2c70:-10782 2c72:1 2c75:1",
  "2c7e-2c7f:-10815 2c80-2ce2:2:1 2ceb-2ced:2:1 2cf2:1 a640-a66c:2:1 a680-a69a:2:1 a722-a72e:2:1",
  "a732-a76e:2:1 a779-a77b:2:1 a77d:-35332 a77e-a786:2:1 a78b:1 a78d:-42280 a790-a792:2:1",
  "a796-a7a8:2:1 a7aa:-42308 a7ab:-42319 a7ac:-42315 a7ad:-42305 a7ae:-42308 a7b0:-42258",
  "a7b1:-42282 a7b2:-42261 a7b3:928 a7b4-a7c2:2:1 a7c4:-48 a7c5:-42307 a7c6:-35384 a7c7-a7c9:2:1",
  "a7d0:1 a7d6-a7d8:2:1 a7f5:1 ff21-ff3a:32 10400-10427:40 104b0-104d3:40 10570-1057a:39",
  "1057c-1058a:39 1058c-10592:39 10594-10595:39 10c80-10cb2:64 118a0-118bf:32 16e40-16e5f:32",
  "1e900-1e921:34"]

/-- Runs beyond ASCII of letters with a capital form of one letter: those that are no small form of their
capital, and the small forms. -/
def upperRuns : List CaseRun := CaseRun.table [
  "b5:743 131:-232 17f:-300 1c5-1cb:3:-1 1f2:-1 345:84 3c2:-31 3d0:-62 3d1:-57 3d5:-47 3d6:-54 3f0:-86",
  "3f1:-80 3f5:-96 1c80:-6254 1c81:-6253 1c82:-6244 1c83-1c84:-6242 1c85:-6243 1c86:-6236 1c87:-6181",
  "1c88:35266 1e9b:-59 1fbe:-7205"] ++
  lowerRuns.map fun (first, last, stride, distance) =>
    ((first + distance).toNat, (last + distance).toNat, stride, -distance)

def upperSpecial : List FormEntry := FormEntry.table [
  "df=53.53 149=2bc.4e 1f0=4a.30c 390=399.308.301 3b0=3a5.308.301 587=535.552",
  "1e96=48.331,54.308,57;59.30a,41.2be 1f50=3a5.313 1f52=3a5.313.300 1f54=3a5.313.301 1f56=3a5.313.342",
  "1f80=1f08;1f09;1f0a;1f0b;1f0c;1f0d;1f0e;1f0f.399;399 1f90=1f28;1f29;1f2a;1f2b;1f2c;1f2d;1f2e;1f2f.399;399",
  "1fa0=1f68;1f69;1f6a;1f6b;1f6c;1f6d;1f6e;1f6f.399;399 1fb2=1fba;391;386.399 1fb6=391.342,391.342.399",
  "1fbc=391.399 1fc2=1fca;397;389.399 1fc6=397.342,397.342.399 1fcc=397.399 1fd2=399.308.300;301",
  "1fd6=399.342,399.308.342 1fe2=3a5.308.300;301,3a1.313 1fe6=3a5.342,3a5.308.342 1ff2=1ffa;3a9;38f.399",
  "1ff6=3a9.342,3a9.342.399 1ffc=3a9.399 fb00=46.46;49;4c,46.46.49;4c,53.54*2",
  "fb13=544.546;535;53b,54e.546,544.53d"]

/-- Characters passed over when a word is searched for its neighbours. -/
def caseIgnorableRanges : List (Nat × Nat) := rangeTable 0 (lengthsOf [
  " 39 161b1z111 71 141114122 503  192 42419211 251 7 207 151 49  45 11121211 44 1b6ab11z1alg1",
  "101 81a14x111ur 91 b 58 b4121oo 43 3 44 17268 41  58  55 111484137a2d1f1 58 14481k2q122 57 142422331u231b2",
  "57 1451241k2m611 58 121148172b2u1 61 1c1 50 131 55 113531472b2t1 58 1216152k2s2 57 24481k2t1 72 17311",
  "90 127b9 98 1299116 74 2r11111 55 e15125b1 36 91 102 4161222p243g4d12261f1 94 1 608 3 946 3t2u2u2",
  "64 217812b3151 45 5 51 1 65 2y1 118 3429163 219 221 58 1171111286a21 39 18v 49 4 48 1151151 40 9c2w42213",
  "56 1123113 58 822 64 6 82 31d17416132 50  63 d1y 101  445 113b3d3d3d2c582a12125 49 51a11d1gd 51 x 2955 2",
  "113 3 125 1f1 96 w 47 1 469 1 36 43551 93 6 93 3 28438 1 1250 6 270 1 98 41a11s4 80 2ey 78 1n3",
  "103 332813141p251 151 2qid1 38 8pb 46 3 48 12422h1l2 66 62222c181z1b1 51 113225211r1e25211 100 593",
  "121 12141 20272 1 147 h 573 g31cgy121 169 17161b1z111 47 1 45 2 67 1l3 513 1 226 1 149 5 1029 61 42 19",
  "582 31254 40 341 165 2 573 4 387 2 153 b 49 4 123 1 54 f 41 122a3 49 4222141a1 50 3 36 518 62 1c2 52 9a421",
  "95 3211261 160 138l2 57 231 37 735 195 82311n1 84 6114212 238 46212r2 85 82112 106 1112611 101 32415",
  "259 912 256 21141 144 42241wa 40 624819623 46 d12 406 71611 82 m271212 122 631121711 72 23111 347 2 5435 9",
  "14007 5 59 794 1035 1 63 h 64 212 16395 41712 3230 214 4700  46 2n 544 39g27u4 148 3 1979  55 4",
  "50 81e1m51f 1360 71h271215 261 e 368 1 61 4 1504 7 109 8 2735 5 789505 1u 96  128  240 "])

def casedRanges : List (Nat × Nat) := rangeTable 0 (lengthsOf [
  " 65 q6q 47 1a1415n1v1 195 144 208 1r 192 42233116113111k1 83 1 139 8 166 1 38 9 41  2839  38 11512 43 23",
  "672  86 26 2178 97 43 23 64  44  63 d1y 101  278 262 38 26281111111v2 53 1711331734264d5317",
  "261 1412a1135611111141641245541hw32 817  52  1814  124 2 103 6432c 38 1151 30994  46 is 134  78 1n341",
  "59 521115r231 821  43 597 80  20288 7c5 1033 q6q 1189  80  96  36 4 36  116 b1f17121b1f1712 1731  51 d 51 ",
  "2989  64  21856  64  25984  85 1 71 122122241c11171 65 1428171s141511371 340 2p1p1v1p1v1p1v1p1v1p18",
  "1844 a1k 2529  68  2028 q6q6q"])

/-- The form of a code point under a table of runs; itself where no run holds it. -/
def mapRuns (runs : List CaseRun) (n : Nat) : Nat :=
  match runs.find? fun (first, last, stride, _) =>
      first ≤ n && n ≤ last && (n - first) % stride == 0 with
  | some (_, _, _, distance) => (n + distance).toNat
  | none => n

/-- The small form of one character; the dotted capital i keeps its dot as a mark. -/
def lowerChar (c : Char) : List Char :=
  if c.toNat < 128 then [c.toLower]
  else if c.toNat = 0x130 then ['i', Char.ofNat 0x307]
  else [Char.ofNat (mapRuns lowerRuns c.toNat)]

def upperChar (c : Char) : List Char :=
  if c.toNat < 128 then [c.toUpper]
  else match formIn? upperSpecial c.toNat with
    | some forms => forms.map Char.ofNat
    | none => [Char.ofNat (mapRuns upperRuns c.toNat)]

def nearestCased (cs : List Char) : Bool :=
  match cs.dropWhile (inRanges caseIgnorableRanges) with
  | [] => false
  | c :: _ => inRanges casedRanges c

/-- The small form of text whose characters so far, last first, are `before`. -/
def lowerFrom (before : List Char) : List Char → List Char
  | [] => []
  | c :: cs =>
    let small :=
      if c.toNat = 0x3a3 then
        if nearestCased before && !nearestCased cs then [Char.ofNat 0x3c2] else [Char.ofNat 0x3c3]
      else lowerChar c
    small ++ lowerFrom (c :: before) cs

def lower (s : String) : String :=
  String.ofList (lowerFrom [] s.toList)

def upper (s : String) : String :=
  String.ofList (s.toList.flatMap upperChar)

end TypedLua.Text
