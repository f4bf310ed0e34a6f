import TypedLua.Text.Form

/-!
# Composite characters

A composite character is a letter with marks that can also be written as the letter followed by the
marks.
-/

namespace TypedLua.Text

def composites : List FormEntry := FormEntry.table [
  "c0=41.300;301;302;303;308;30a c7=43.327,45.300;301;302;308,49.300;301;302;308",
  "d1=4e.303,4f.300;301;302;303;308 d9=55.300;301;302;308,59.301 e0=61.300;301;302;303;308;30a",
  "e7=63.327,65.300;301;302;308,69.300;301;302;308 f1=6e.303,6f.300;301;302;303;308",
  "f9=75.300;301;302;308,79.301 ff=79.308,41;61.304;306;328,43;63.301;302;307;30c,44;64.30c",
  "112=45;65.304;306;307;328;30c,47;67.302;306;307;327,48;68.302 128=49;69.303;304;306;328,49.307",
  "134=4a;6a.302,4b;6b.327 139=4c;6c.301;327;30c 143=4e;6e.301;327;30c 14c=4f;6f.304;306;30b",
  "154=52;72.301;327;30c,53;73.301;302;327;30c,54;74.327;30c",
  "168=55;75.303;304;306;30a;30b;328,57;77;59;79.302,59.308,5a;7a.301;307;30c 1a0=4f;6f.31b 1af=55;75.31b",
  "1cd=41;61;49;69;4f;6f;55;75.30c,55;75.308.304;301;30c;300 1de=41;61.308;307.304,c6;e6.304",
  "1e6=47;67;4b;6b.30c,4f;6f.328,4f;6f.328.304,1b7;292;6a.30c 1f4=47;67.301",
  "1f8=4e;6e.300,41;61.30a.301,c6;e6;d8;f8.301,41;61.30f;311,45;65.30f;311,49;69.30f;311",
  "20c=4f;6f.30f;311,52;72.30f;311,55;75.30f;311,53;73;54;74.326 21e=48;68.30c",
  "226=41;61.307,45;65.327,4f;6f.308;303.304,4f;6f.307,4f;6f.307.304,59;79.304 386=391.301 388=395;397;399.301",
  "38c=39f.301 38e=3a5;3a9.301,3b9.308.301 3aa=399;3a5.308,3b1;3b5;3b7;3b9.301,3c5.308.301",
  "3ca=3b9;3c5.308,3bf;3c5;3c9.301 400=415.300;308 403=413.301 407=406.308 40c=41a.301,418.300,423.306",
  "419=418.306 439=438.306 450=435.300;308 453=433.301 457=456.308 45c=43a.301,438.300,443.306 476=474;475.30f",
  "4c1=416;436.306 4d0=410;430.306;308 4d6=415;435.306 4da=4d8;4d9;416;436;417;437.308",
  "4e2=418;438.304;308,41e;43e.308 4ea=4e8;4e9;42d;44d.308,423;443.304;308;30b,427;447.308 4f8=42b;44b.308",
  "622=627.653;654,648.654,627.655,64a.654 6c0=6d5.654 6c2=6c1.654 6d3=6d2.654 929=928.93c 931=930.93c",
  "934=933.93c 9cb=9c7.9be;9d7 b48=b47.b56 b4b=b47.b3e;b57 b94=b92.bd7 bca=bc6;bc7.bbe,bc6.bd7 c48=c46.c56",
  "cc0=cbf.cd5 cc7=cc6.cd5;cd6 cca=cc6.cc2,cc6.cc2.cd5 d4a=d46;d47.d3e,d46.d57 dda=dd9.dca",
  "ddc=dd9.dcf,dd9.dcf.dca,dd9.ddf 1026=1025.102e 1b06=1b05.1b35 1b08=1b07.1b35 1b0a=1b09.1b35 1b0c=1b0b.1b35",
  "1b0e=1b0d.1b35 1b12=1b11.1b35 1b3b=1b3a.1b35 1b3d=1b3c.1b35 1b40=1b3e;1b3f.1b35 1b43=1b42.1b35",
  "1e00=41;61.325,42;62.307;323;331,43;63.327.301,44;64.307;323;331;327;32d,45;65.304.300;301",
  "1e18=45;65.32d;330,45;65.327.306,46;66.307,47;67.304,48;68.307;323;308;327;32e,49;69.330",
  "1e2e=49;69.308.301,4b;6b.301;323;331,4c;6c.323,4c;6c.323.304,4c;6c.331;32d,4d;6d.301;307;323",
  "1e44=4e;6e.307;323;331;32d,4f;6f.303.301;308,4f;6f.304.300;301,50;70.301;307,52;72.307;323",
  "1e5c=52;72.323.304,52;72.331,53;73.307;323,53;73.301;30c;323.307,54;74.307;323;331;32d",
  "1e72=55;75.324;330;32d,55;75.303.301,55;75.304.308,56;76.303;323,57;77.300;301;308;307;323",
  "1e8a=58;78.307;308,59;79.307,5a;7a.302;323;331,68.331,74.308,77;79.30a",
  "1ea0=41;61.323;309,41;61.302.301;300;309;303,41;61.323.302,41;61.306.301;300;309;303",
  "1eb6=41;61.323.306,45;65.323;309;303,45;65.302.301;300;309;303,45;65.323.302,49;69.309;323",
  "1ecc=4f;6f.323;309,4f;6f.302.301;300;309;303,4f;6f.323.302,4f;6f.31b.301;300;309;303;323",
  "1ee4=55;75.323;309,55;75.31b.301;300;309;303;323,59;79.300;323;309;303",
  "1f00=3b1.313;314,3b1.313;314.300;301;342,391.313;314,391.313;314.300;301;342,3b5.313;314",
  "1f12=3b5.313;314.300;301 1f18=395.313;314,395.313;314.300;301",
  "1f20=3b7.313;314,3b7.313;314.300;301;342,397.313;314,397.313;314.300;301;342,3b9.313;314",
  "1f32=3b9.313;314.300;301;342,399.313;314,399.313;314.300;301;342,3bf.313;314,3bf.313;314.300;301",
  "1f48=39f.313;314,39f.313;314.300;301 1f50=3c5.313;314,3c5.313;314.300;301;342 1f59=3a5.314 1f5b=3a5.314.300",
  "1f5d=3a5.314.301",
  "1f5f=3a5.314.342,3c9.313;314,3c9.313;314.300;301;342,3a9.313;314,3a9.313;314.300;301;342,3b1.300",
  "1f72=3b5.300 1f74=3b7.300 1f76=3b9.300 1f78=3bf.300 1f7a=3c5.300 1f7c=3c9.300",
  "1f80=3b1.313;314.345,3b1.313;314.300;301;342.345,391.313;314.345,391.313;314.300;301;342.345",
  "1f90=3b7.313;314.345,3b7.313;314.300;301;342.345,397.313;314.345,397.313;314.300;301;342.345",
  "1fa0=3c9.313;314.345,3c9.313;314.300;301;342.345,3a9.313;314.345,3a9.313;314.300;301;342.345",
  "1fb0=3b1.306;304,3b1.300.345,3b1.345,3b1.301.345 1fb6=3b1.342,3b1.342.345,391.306;304;300 1fbc=391.345",
  "1fc2=3b7.300.345,3b7.345,3b7.301.345 1fc6=3b7.342,3b7.342.345,395.300 1fca=397.300 1fcc=397.345",
  "1fd0=3b9.306;304,3b9.308.300 1fd6=3b9.342,3b9.308.342,399.306;304;300 1fe0=3c5.306;304,3c5.308.300",
  "1fe4=3c1.313;314,3c5.342,3c5.308.342,3a5.306;304;300 1fec=3a1.314 1ff2=3c9.300.345,3c9.345,3c9.301.345",
  "1ff6=3c9.342,3c9.342.345,39f.300 1ffa=3a9.300 1ffc=3a9.345 304c=304b.3099 304e=304d.3099 3050=304f.3099",
  "3052=3051.3099 3054=3053.3099 3056=3055.3099 3058=3057.3099 305a=3059.3099 305c=305b.3099 305e=305d.3099",
  "3060=305f.3099 3062=3061.3099 3065=3064.3099 3067=3066.3099 3069=3068.3099 3070=306f.3099;309a",
  "3073=3072.3099;309a 3076=3075.3099;309a 3079=3078.3099;309a 307c=307b.3099;309a 3094=3046.3099",
  "309e=309d.3099 30ac=30ab.3099 30ae=30ad.3099 30b0=30af.3099 30b2=30b1.3099 30b4=30b3.3099 30b6=30b5.3099",
  "30b8=30b7.3099 30ba=30b9.3099 30bc=30bb.3099 30be=30bd.3099 30c0=30bf.3099 30c2=30c1.3099 30c5=30c4.3099",
  "30c7=30c6.3099 30c9=30c8.3099 30d0=30cf.3099;309a 30d3=30d2.3099;309a 30d6=30d5.3099;309a",
  "30d9=30d8.3099;309a 30dc=30db.3099;309a 30f4=30a6.3099 30f7=30ef;30f0;30f1;30f2.3099 30fe=30fd.3099",
  "1109a=11099.110ba 1109c=1109b.110ba 110ab=110a5.110ba 1112e=11131;11132.11127 1134b=11347.1133e;11357",
  "114bb=114b9.114ba;114b0 114be=114b9.114bd 115ba=115b8;115b9.115af 11938=11935.11930"]

end TypedLua.Text
