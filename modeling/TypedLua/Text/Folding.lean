import TypedLua.Text.Form

/-!
# Characters that stand for others

Ligatures, letters of a special width or style, presentation forms and doubly encoded characters
stand for plain characters.
-/

namespace TypedLua.Text

def foldings : List FormEntry := FormEntry.table [
  "aa=61 b5=3bc ba=6f 132=49.4a,69.6a 13f=4c;6c.b7 149=2bc.6e 17f=73",
  "1c4=44.5a;7a.30c,64.7a.30c,4c.4a;6a,6c.6a,4e.4a;6a,6e.6a 1f1=44.5a;7a,64.7a",
  "2b0=68,266,6a,72,279,27b,281,77,79 2e0=263,6c,73,78,295 340=300,301 343=313,308.301 374=2b9 387=b7",
  "3d0=3b2,3b8,3a5,3a5.301;308,3c6,3c0 3f0=3ba,3c1,3c2 3f4=398,3b5 3f9=3a3 587=565.582 675=627;648;6c7;64a.674",
  "958=915;916;917;91c;921;922;92b;92f.93c 9dc=9a1;9a2.9bc 9df=9af.9bc a33=a32.a3c a36=a38.a3c",
  "a59=a16;a17;a1c.a3c a5e=a2b.a3c b5c=b21;b22.b3c e33=e4d.e32 eb3=ecd.eb2 edc=eab.e99;ea1 f43=f42.fb7",
  "f4d=f4c.fb7 f52=f51.fb7 f57=f56.fb7 f5c=f5b.fb7 f69=f40.fb5 f73=f71.f72",
  "f75=f71.f74,fb2.f80,fb2.f71.f80,fb3.f80,fb3.f71.f80 f81=f71.f80 f93=f92.fb7 f9d=f9c.fb7 fa2=fa1.fb7",
  "fa7=fa6.fb7 fac=fab.fb7 fb9=f90.fb5 10fc=10dc 1d2c=41,c6,42 1d30=44,45,18e 1d33-1d3a+47",
  "1d3c=4f,222,50,52,54,55,57,61,250,251,1d02,62,64,65,259,25b,25c,67",
  "1d4f=6b,6d,14b,6f,254,1d16,1d17,70,74,75,1d1d,26f,76,1d25,3b2,3b3,3b4,3c6,3c7,69,72,75,76,3b2,3b3",
  "1d68=3c1,3c6,3c7 1d78=43d 1d9b=252,63,255,f0,25c,66,25f,261,265,268,269,26a,1d7b,29d,26d,1d85,29f,271,270",
  "1dae-1db1+272 1db2=278,282,283,1ab,289,28a,1d1c,28b,28c,7a,290,291,292,3b8 1e9a=61.2be,73.307 1f71=3b1.301",
  "1f73=3b5.301 1f75=3b7.301 1f77=3b9.301 1f79=3bf.301 1f7b=3c5.301 1f7d=3c9.301 1fbb=391.301 1fbe=3b9",
  "1fc9=395.301 1fcb=397.301 1fd3=3b9.308.301 1fdb=399.301 1fe3=3c5.308.301 1feb=3a5.301 1ff9=39f.301",
  "1ffb=3a9.301 2071=69 207f=6e 2090=61,65,6f,78,259,68 2096-2099+6b 209a=70,73,74 2102=43 2107=190",
  "210a=67,48*3,68,127,49*2,4c,6c 2115=4e 2119=50,51,52*3 2124=5a 2126=3a9 2128=5a 212a=4b,41.30a,42,43",
  "212f=65,45,46 2133=4d,6f 2135-2138+5d0 2139=69 213c=3c0,3b3,393,3a0 2145=44,64,65,69,6a",
  "2160=49,49.49,49.49.49,49.56,56,56.49,56.49.49,56.49.49.49,49.58,58,58.49,58.49.49,4c,43,44,4d,69",
  "2171=69.69,69.69.69,69.76,76,76.69,76.69.69,76.69.69.69,69.78,78,78.69,78.69.69,6c,63,64,6d 2c7c=6a,56",
  "2d6f=2d61 3038:十卄卅 309f=3088.308a 30ff=30b3.30c8 3131=1100,1101,11aa,1102,11ac,11ad,1103,1104,1105",
  "313a-313f+11b0 3140=111a,1106,1107,1108,1121 3145-314e+1109 314f-3163+1161",
  "3164=1160,1114,1115,11c7,11c8,11cc,11ce,11d3,11d7,11d9,111c,11dd,11df,111d,111e,1120,1122,1123",
  "3176=1127,1129 3178-317c+112b",
  "317d=1132,1136,1140,1147,114c,11f1,11f2,1157,1158,1159,1184,1185,1188,1191,1192,1194,119e,11a1 a69c=44a,44c",
  "a770=a76f a7f2=43,46,51 a7f8=126,153 ab5c=a727,ab37,26b,ab52 ab69=28d",
  "f900:豈更車賈滑串句龜龜契金喇奈懶癩羅蘿螺裸邏樂洛烙珞落酪駱亂卵欄爛蘭鸞嵐濫藍襤拉臘蠟廊朗浪狼郎來冷勞 f930:擄櫓爐盧老蘆虜路露魯鷺碌祿綠菉錄鹿論壟弄籠聾牢磊賂雷壘屢樓淚漏累縷陋勒肋凜凌稜綾菱陵讀拏樂諾丹寧",
  "f960:怒率異北磻便復不泌數索參塞省葉說殺辰沈拾若掠略亮兩凉梁糧良諒量勵呂女廬旅濾礪閭驪麗黎力曆歷轢年憐 f990:戀撚漣煉璉秊練聯輦蓮連鍊列劣咽烈裂說廉念捻殮簾獵令囹寧嶺怜玲瑩羚聆鈴零靈領例禮醴隸惡了僚寮尿料樂",
  "f9c0:燎療蓼遼龍暈阮劉杻柳流溜琉留硫紐類六戮陸倫崙淪輪律慄栗率隆利吏履易李梨泥理痢罹裏裡里離匿溺吝燐璘 f9f0:藺隣鱗麟林淋臨立笠粒狀炙識什茶刺切度拓糖宅洞暴輻行降見廓兀嗀 fa10=585a",
  "fa12=6674 fa15:凞猪益礼神祥福靖精羽 fa20=8612 fa22=8af8 fa25:逸都 fa2a:飯飼館鶴郞隷侮僧免勉勤卑喝嘆器塀墨層屮悔慨憎懲敏既暑梅海渚漢煮爫琢碑社祉祈祐祖祝禍禎穀突節練縉繁",
  "fa5a:署者臭艹艹著褐視謁謹賓贈辶逸難響頻恵𤋮舘 fa70:並况全侀充冀勇勺喝啕喙嗢塚墳奄奔婢嬨廒廙彩徭惘慎愈憎慠懲戴揄搜摒敖晴朗望杖歹殺流滛滋漢瀞煮瞧爵犯",
  "faa0:猪瑱甆画瘝瘟益盛直睊着磌窱節类絛練缾者荒華蝹襁覆視調諸請謁諾諭謹變贈輸遲醙鉶陼難靖韛響頋頻鬒龜𢡊 fad0:𢡄𣏕㮝䀘䀹𥉉𥳐𧻓齃龎 fb00=66.66;69;6c,66.66.69;6c,73.74*2",
  "fb13=574.576;565;56b,57e.576,574.56d fb1d=5d9.5b4 fb1f=5f2.5b7,5e2,5d0,5d3,5d4,5db,5dc,5dd,5e8,5ea",
  "fb2a=5e9.5c1;5c2,5e9.5bc.5c1;5c2,5d0.5b7;5b8;5bc,5d1;5d2;5d3;5d4;5d5;5d6.5bc fb38=5d8;5d9;5da;5db;5dc.5bc",
  "fb3e=5de.5bc fb40=5e0;5e1.5bc fb43=5e3;5e4.5bc",
  "fb46=5e6;5e7;5e8;5e9;5ea.5bc,5d5.5b9,5d1;5db;5e4.5bf,5d0.5dc,671*2,67b*4,67e*4,680*4,67a*4,67f*4",
  "fb66=679*4,6a4*4,6a6*4,684*4,683*4,686*4,687*4,68d*2,68c*2,68e*2,688*2,698*2,691*2,6a9*4,6af*4",
  "fb96=6b3*4,6b1*4,6ba*2,6bb*4,6d5.654*2,6c1*4,6be*4,6d2*2,6d2.654*2",
  "fbd3=6ad*4,6c7*2,6c6*2,6c8*2,6c7.674,6cb*2,6c5*2,6c9*2,6d0*4,649*2,64a.654.627*2,64a.654.6d5*2",
  "fbee=64a.654.648*2,64a.654.6c7*2,64a.654.6c6*2,64a.654.6c8*2,64a.654.6d0*3,64a.654.649*3,6cc*4",
  "fc00=64a.654.62c;62d;645;649;64a,628.62c;62d;62e;645;649;64a,62a.62c;62d;62e;645;649;64a",
  "fc11=62b.62c;645;649;64a,62c.62d;645,62d.62c;645,62e.62c;62d;645,633.62c;62d;62e;645,635.62d;645",
  "fc22=636.62c;62d;62e;645,637.62d;645,638.645,639.62c;645,63a.62c;645,641.62c;62d;62e;645;649;64a",
  "fc33=642.62d;645;649;64a,643.627;62c;62d;62e;644;645;649;64a,644.62c;62d;62e;645;649;64a",
  "fc45=645.62c;62d;62e;645;649;64a,646.62c;62d;62e;645;649;64a,647.62c;645;649;64a",
  "fc55=64a.62c;62d;62e;645;649;64a,630;631;649.670",
  "fc64=64a.654.631;632;645;646;649;64a,628.631;632;645;646;649;64a,62a.631;632;645;646;649;64a",
  "fc76=62b.631;632;645;646;649;64a,641.649;64a,642.649;64a,643.627;644;645;649;64a,644.645;649;64a",
  "fc88=645.627;645,646.631;632;645;646;649;64a,649.670,64a.631;632;645;646;649;64a",
  "fc97=64a.654.62c;62d;62e;645;647,628.62c;62d;62e;645;647,62a.62c;62d;62e;645;647,62b.645",
  "fca7=62c.62d;645,62d.62c;645,62e.62c;645,633.62c;62d;62e;645,635.62d;62e;645,636.62c;62d;62e;645",
  "fcb8=637.62d,638.645,639.62c;645,63a.62c;645,641.62c;62d;62e;645,642.62d;645",
  "fcc4=643.62c;62d;62e;644;645,644.62c;62d;62e;645;647,645.62c;62d;62e;645,646.62c;62d;62e;645;647",
  "fcd7=647.62c;645;670,64a.62c;62d;62e;645;647,64a.654.645;647,628.645;647,62a.645;647,62b.645;647",
  "fce7=633.645;647,634.645;647,643.644;645,644;646.645,646.647,64a.645;647,640.64e;64f;650.651",
  "fcf5=637.649;64a,639.649;64a,63a.649;64a,633.649;64a,634.649;64a,62d.649;64a,62c.649;64a",
  "fd03=62e.649;64a,635.649;64a,636.649;64a,634.62c;62d;62e;645;631,633;635;636.631,637.649;64a",
  "fd13=639.649;64a,63a.649;64a,633.649;64a,634.649;64a,62d.649;64a,62c.649;64a,62e.649;64a",
  "fd21=635.649;64a,636.649;64a,634.62c;62d;62e;645;631,633;635;636.631,634.62c;62d;62e;645",
  "fd31=633;634.647,637.645,633.62c;62d;62e,634.62c;62d;62e,637;638.645,627.64b*2",
  "fd50=62a.62c.645,62a.62d.62c*2,62a.62d;62e.645,62a.645.62c;62d;62e,62c.645.62d*2,62d.645.64a;649",
  "fd5c=633.62d.62c,633.62c.62d;649,633.645.62d*2,633.645.62c;645;645,635.62d.62d*2,635.645.645",
  "fd67=634.62d.645*2,634.62c.64a,634.645.62e*2,634.645.645*2,636.62d.649,636.62e.645*2",
  "fd71=637.645.62d*2,637.645.645;64a,639.62c;645;645.645,639.645.649,63a.645.645;64a;649",
  "fd7c=641.62e.645*2,642.645.62d;645,644.62d.645;64a;649,644.62c.62c*2,644.62e.645*2,644.645.62d*2",
  "fd89=645.62d.62c;645;64a,645.62c.62d;645,645.62e.62c;645",
  "fd92=645.62c.62e,647.645.62c;645,646.62d.645;649,646.62c.645*2,646.62c.649,646.645.64a;649",
  "fd9c=64a.645.645*2,628.62e.64a,62a.62c.64a;649,62a.62e.64a;649,62a.645.64a;649,62c.645.64a",
  "fda6=62c.62d;645.649,633.62e.649,635;634;636.62d.64a,644.62c;645.64a,64a.62d;62c;645.64a",
  "fdb1=645;642.645.64a,646.62d.64a,642.645.62d,644.62d.645,639;643.645.64a,646.62c.62d,645.62e.64a",
  "fdba=644.62c.645,643.645.645,644.62c.645,646.62c.62d,62c.62d.64a,62d;645.62c.64a,641.645.64a",
  "fdc2=628.62d.64a,643.645.645,639.62c.645,635.645.645,633.62e.64a,646.62c.64a",
  "fdf0=635;642.644.6d2,627.644.644.647,627.643.628.631,645.62d.645.62f,635.644.639.645",
  "fdf6=631.633.648.644,639.644.64a.647,648.633.644.645,635.644.649 fe33=5f*2 fe4d=5f*3 fe71=640.64b",
  "fe77=640.64e fe79=640.64f fe7b=640.650 fe7d=640.651",
  "fe7f=640.652,621,627.653*2,627.654*2,648.654*2,627.655*2,64a.654*4,627*2,628*4,629*2,62a*4,62b*4",
  "fe9d=62c*4,62d*4,62e*4,62f*2,630*2,631*2,632*2,633*4,634*4,635*4,636*4,637*4,638*4,639*4,63a*4",
  "fed1=641*4,642*4,643*4,644*4,645*4,646*4,647*4,648*2,649*2,64a*4,644.627.653*2,644.627.654*2",
  "fef9=644.627.655*2,644.627*2 ff10-ff19+30 ff21-ff3a+41 ff3f=5f ff41-ff5a+61",
  "ff66=30f2,30a1,30a3,30a5,30a7,30a9,30e3,30e5,30e7,30c3,30fc,30a2,30a4,30a6,30a8,30aa,30ab,30ad",
  "ff78=30af,30b1,30b3,30b5,30b7,30b9,30bb,30bd,30bf,30c1,30c4,30c6,30c8 ff85-ff8a+30ca",
  "ff8b=30d2,30d5,30d8,30db ff8f-ff93+30de ff94=30e4,30e6 ff96-ff9b+30e8",
  "ff9c=30ef,30f3,3099,309a,1160,1100,1101,11aa,1102,11ac,11ad,1103,1104,1105 ffaa-ffaf+11b0",
  "ffb0=111a,1106,1107,1108,1121 ffb5-ffbe+1109 ffc2-ffc7+1161 ffca-ffcf+1167 ffd2-ffd7+116d",
  "ffda=1173,1174,1175 10781=2d0,2d1,e6,299,253",
  "10787=2a3,ab66,2a5,2a4,256,257,1d91,258,25e,2a9,264,262,260,29b,127,29c,267,284,2aa,2ab,26c,1df04",
  "1079d=a78e,26e,1df05,28e,1df06,f8,276,277,71,27a,1df08,27d,27e,280,2a8,2a6,ab67,2a7,288,2c71",
  "107b2=28f,2a1,2a2,298,1c0,1c1,1c2,1df0a,1df1e 1d400-1d419+41 1d41a-1d433+61 1d434-1d44d+41 1d44e-1d454+61",
  "1d456-1d467+69 1d468-1d481+41 1d482-1d49b+61 1d49c=41 1d49e=43,44 1d4a2=47 1d4a5=4a,4b 1d4a9-1d4ac+4e",
  "1d4ae-1d4b5+53 1d4b6-1d4b9+61 1d4bb=66 1d4bd-1d4c3+68 1d4c5-1d4cf+70 1d4d0-1d4e9+41 1d4ea-1d503+61",
  "1d504=41,42 1d507-1d50a+44 1d50d-1d514+4a 1d516-1d51c+53 1d51e-1d537+61 1d538=41,42 1d53b-1d53e+44",
  "1d540-1d544+49 1d546=4f 1d54a-1d550+53 1d552-1d56b+61 1d56c-1d585+41 1d586-1d59f+61 1d5a0-1d5b9+41",
  "1d5ba-1d5d3+61 1d5d4-1d5ed+41 1d5ee-1d607+61 1d608-1d621+41 1d622-1d63b+61 1d63c-1d655+41 1d656-1d66f+61",
  "1d670-1d689+41 1d68a-1d6a3+61 1d6a4=131,237 1d6a8-1d6b8+391 1d6b9=398 1d6ba-1d6c0+3a3 1d6c2-1d6da+3b1",
  "1d6dc=3b5,3b8,3ba,3c6,3c1,3c0 1d6e2-1d6f2+391 1d6f3=398 1d6f4-1d6fa+3a3 1d6fc-1d714+3b1",
  "1d716=3b5,3b8,3ba,3c6,3c1,3c0 1d71c-1d72c+391 1d72d=398 1d72e-1d734+3a3 1d736-1d74e+3b1",
  "1d750=3b5,3b8,3ba,3c6,3c1,3c0 1d756-1d766+391 1d767=398 1d768-1d76e+3a3 1d770-1d788+3b1",
  "1d78a=3b5,3b8,3ba,3c6,3c1,3c0 1d790-1d7a0+391 1d7a1=398 1d7a2-1d7a8+3a3 1d7aa-1d7c2+3b1",
  "1d7c4=3b5,3b8,3ba,3c6,3c1,3c0,3dc,3dd 1d7ce-1d7d7+30 1d7d8-1d7e1+30 1d7e2-1d7eb+30 1d7ec-1d7f5+30",
  "1d7f6-1d7ff+30 1ee00=627,628,62c,62f 1ee05=648,632,62d,637,64a 1ee0a-1ee0d+643",
  "1ee0e=633,639,641,635,642,631,634,62a,62b,62e,630,636,638,63a,66e,6ba,6a1,66f 1ee21=628,62c 1ee24=647",
  "1ee27=62d 1ee29=64a 1ee2a-1ee2d+643 1ee2e=633,639,641,635,642 1ee34=634,62a,62b,62e 1ee39=636 1ee3b=63a",
  "1ee42=62c 1ee47=62d 1ee49=64a 1ee4b=644 1ee4d=646,633,639 1ee51=635,642 1ee54=634 1ee57=62e 1ee59=636",
  "1ee5b=63a 1ee5d=6ba 1ee5f=66f 1ee61=628,62c 1ee64=647 1ee67=62d,637,64a,643",
  "1ee6c=645,646,633,639,641,635,642 1ee74=634,62a,62b,62e 1ee79=636,638,63a,66e 1ee7e=6a1",
  "1ee80=627,628,62c,62f,647,648,632,62d,637,64a",
  "1ee8b=644,645,646,633,639,641,635,642,631,634,62a,62b,62e,630,636,638,63a 1eea1=628,62c,62f",
  "1eea5=648,632,62d,637,64a 1eeab=644,645,646,633,639,641,635,642,631,634,62a,62b,62e,630,636,638,63a",
  "1fbf0-1fbf9+30 2f800:丽丸乁𠄢你侮侻倂偺備僧像㒞𠘺免兔兤具𠔜㒹內再𠕋冗冤仌冬况𩇟凵刃㓟刻剆割剷㔕勇勉勤勺包匆北卉卑博即",
  "2f830:卽卿卿卿𠨬灰及叟𠭣叫叱吆咞吸呈周咢哶唐啓啣善善喙喫喳嗂圖嘆圗噑噴切壮城埴堍型堲報墬𡓤売壷夆多夢奢",
  "2f860:𡚨𡛪姬娛娧姘婦㛮㛼嬈嬾嬾𡧈寃寘寧寳𡬘寿将当尢㞁屠屮峀岍𡷤嵃𡷦嵮嵫嵼巡巢㠯巽帨帽幩㡢𢆃㡼庰庳庶廊𪎒",
  "2f890:廾𢌱𢌱舁弢弢㣇𣊸𦇚形彫㣣徚忍志忹悁㤺㤜悔𢛔惇慈慌慎慌慺憎憲憤憯懞懲懶成戛扝抱拔捐𢬌挽拼捨掃揤𢯱搢",
  "2f8c0:揅掩㨮摩摾撝摷㩬敏敬𣀊旣書晉㬙暑㬈㫤冒冕最暜肭䏙朗望朡杞杓𣏃㭉柺枅桒梅𣑭梎栟椔㮝楂榣槪檨𣚣櫛㰘次",
  "2f8f0:𣢧歔㱎歲殟殺殻𣪍𡴋𣫺汎𣲼沿泍汧洖派海流浩浸涅𣴞洴港湮㴳滋滇𣻑淹潮𣽞𣾎濆瀹瀞瀛㶖灊災灷炭𠔥煅𤉣熜𤎫",
  "2f920:爨爵牐𤘈犀犕𤜵𤠔獺王㺬玥㺸㺸瑇瑜瑱璅瓊㼛甤𤰶甾𤲒異𢆟瘐𤾡𤾸𥁄㿼䀈直𥃳𥃲𥄙𥄳眞真真睊䀹瞋䁆䂖𥐝硎碌",
  "2f950:磌䃣𥘦祖𥚚𥛅福秫䄯穀穊穏𥥼𥪧𥪧竮䈂𥮫篆築䈧𥲀糒䊠糨糣紀𥾆絣䌁緇縂繅䌴𦈨𦉇䍙𦋙罺𦌾羕翺者𦓚𦔣聠𦖨聰",
  "2f980:𣍟䏕育脃䐋脾媵𦞧𦞵𣎓𣎜舁舄辞䑫芑芋芝劳花芳芽苦𦬼若茝荣莭茣莽菧著荓菊菌菜𦰶𦵫𦳕䔫蓱蓳蔖𧏊蕤𦼬䕝䕡",
  "2f9b0:𦾱𧃒䕫虐虜虧虩蚩蚈蜎蛢蝹蜨蝫螆䗗蟡蠁䗹衠衣𧙧裗裞䘵裺㒻𧢮𧥦䚾䛇誠諭變豕𧲨貫賁贛起𧼯𠠄跋趼跰𠣞軔輸",
  "2f9e0:𨗒𨗭邔郱鄑𨜮鄛鈸鋗鋘鉼鏹鐕𨯺開䦕閷𨵷䧦雃嶲霣𩅅𩈚䩮䩶韠𩐊䪲𩒖頋頋頩𩖶飢䬳餩馧駂駾䯎𩬰鬒鱀鳽䳎䳭鵧 2fa10:𪃎䳸𪄅𪈎𪊑麻䵖黹黾鼅鼏鼖鼻𪘀"]

end TypedLua.Text
