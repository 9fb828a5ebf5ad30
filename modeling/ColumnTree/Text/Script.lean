/-
# Scripts

The script of a character, from the property Script of Unicode, each script with its names.
-/
import ColumnTree.Text.Runs

namespace ColumnTree.Text

/-- The scripts: names in small letters without separators, and the characters. -/
def scripts : List (List String × Runs) :=
  [ (["adlm", "adlam"], .decode "
2olc 23 4 9 4 1"),
    (["aghb", "caucasianalbanian"], .decode "
1flc 1f b 0"),
    (["ahom"], .decode "
1j40 q 2 e 4 m"),
    (["arab", "arabic"], .decode "
16o 4 1 5 1 d 1 2 1 v 1 9 b p 1 2z 1 x 28 1b 6o u 1 1 6 21 1 s 1bv4 36 g a2 2 27 2 1h 7 0 w f
34 4 1 3q 31f u 3i 2 181s 3 1 q 1 1 1 0 2 0 1 9 1 3 1 0 1 0 6 0 4 0 1 0 1 0 1 2 1 1 1 0 2 0 1
0 1 0 1 0 1 0 1 1 1 0 2 3 1 6 1 3 1 3 1 0 1 9 1 g 5 2 1 4 1 g 1g 1"),
    (["armi", "imperialaramaic"], .decode "
1g74 l 1 8"),
    (["armn", "armenian"], .decode "
10x 11 2 1d 2 2 1chv 4"),
    (["avst", "avestan"], .decode "
1gqo 1h 3 6"),
    (["bali", "balinese"], .decode "
5c0 24 3 1a"),
    (["bamu", "bamum"], .decode "
www 2f 124o fs"),
    (["bass", "bassavah"], .decode "
1zo0 t 2 5"),
    (["batk", "batak"], .decode "
5hc 1f 8 3"),
    (["beng", "bengali"], .decode "
1vk 3 1 7 2 1 2 l 1 6 1 0 3 3 2 8 2 1 2 3 8 0 4 1 1 4 2 o"),
    (["bhks", "bhaiksuki"], .decode "
1k3k 8 1 18 1 d a s"),
    (["bopo", "bopomofo"], .decode "
kq 1 93t 16 34 v"),
    (["brah", "brahmi"], .decode "
1hq8 25 4 z 9 0"),
    (["brai", "braille"], .decode "
7wg 73"),
    (["bugi", "buginese"], .decode "
54w r 2 1"),
    (["buhd", "buhid"], .decode "
4lc j"),
    (["cakm", "chakma"], .decode "
1hxc 1g 1 h"),
    (["cans", "canadianaboriginal"], .decode "
3y8 hr fk 1x 1ewq f"),
    (["cari", "carian"], .decode "
1f34 1c"),
    (["cham"], .decode "
xkw 1i 9 d 2 9 2 3"),
    (["cher", "cherokee"], .decode "
3vk 2d 2 5 twy 27"),
    (["chrs", "chorasmian"], .decode "
1ho0 r"),
    (["copt", "coptic", "qaac"], .decode "
rm d 80g 37 5 6"),
    (["cpmn", "cyprominoan"], .decode "
1nyo 2q"),
    (["cprt", "cypriot"], .decode "
1g5c 5 2 0 1 17 1 1 3 0 2 0"),
    (["cyrl", "cyrillic"], .decode "
sg 3o 2 4o 4ls 8 4i 0 24 0 38n v nr4 2n ham 1 18n4 1p x 0"),
    (["deva", "devanagari"], .decode "
1s0 28 4 e 2 p vhc v mio 9"),
    (["diak", "divesakuru"], .decode "
1ji8 6 2 0 2 7 1 1 1 t 1 1 2 b 9 9"),
    (["dogr", "dogra"], .decode "
1jb4 1n"),
    (["dsrt", "deseret"], .decode "
1fcw 27"),
    (["dupl", "duployan"], .decode "
2fpc 2y 5 c 3 8 7 9 2 3"),
    (["egyp", "egyptianhieroglyphs"], .decode "
1o1s ut"),
    (["elba", "elbasan"], .decode "
1fk0 13"),
    (["elym", "elymaic"], .decode "
1hpc m"),
    (["ethi", "ethiopic"], .decode "
3k0 20 1 3 2 6 1 0 1 3 2 14 1 3 2 w 1 3 2 6 1 0 1 3 2 e 1 1k 1 3 2 1u 2 v 3 p 546 m 9 6 1 6 1
6 1 6 1 6 1 6 1 6 1 6 opu 5 2 5 2 5 9 6 1 6 1qk1 6 1 3 1 1 1 e"),
    (["geor", "georgian"], .decode "
3a8 11 1 0 5 0 2 16 1 3 2a8 16 2 2 37k 11 1 0 5 0"),
    (["glag", "glagolitic"], .decode "
8ow 2n 2e1s 6 1 g 2 6 1 1 1 4"),
    (["gong", "gunjalagondi"], .decode "
1kdc 5 1 1 1 10 1 1 1 5 7 9"),
    (["gonm", "masaramgondi"], .decode "
1kao 6 1 1 1 17 3 0 1 1 1 8 8 9"),
    (["goth", "gothic"], .decode "
1f74 q"),
    (["gran", "grantha"], .decode "
1ibk 3 1 7 2 1 2 l 1 6 1 1 1 4 2 8 2 1 2 2 2 0 6 0 5 6 2 6 3 4"),
    (["grek", "greek"], .decode "
og 3 1 2 2 3 1 0 4 0 1 0 1 2 1 0 1 j 1 1q e f 4yu 4 1e 4 4 4 2c 0 8w l 2 5 2 11 2 5 2 7 1 0 1
0 1 0 1 u 2 1g 1 e 1 d 2 5 1 i 2 2 1 8 87 0 rb2 0 gyi 26 h 0 155r 1x"),
    (["gujr", "gujarati"], .decode "
22p 2 1 8 1 2 1 l 1 6 1 1 1 4 2 9 1 2 1 2 2 0 f 3 2 b 7 6"),
    (["guru", "gurmukhi"], .decode "
1z5 2 1 5 4 1 2 l 1 6 1 1 1 1 1 1 2 0 1 4 4 1 2 2 3 0 7 3 1 0 7 g"),
    (["hang", "hangul"], .decode "
3cw 73 5ym 1 75 2l 35 u 1t u nhd s hv 8mb c m 4 1c 7tw u 3 5 2 5 2 5 2 2"),
    (["hani", "han"], .decode "
96o p 1 2g c 5x 1b 0 1 0 p 8 e 3 qs 533 1s g73 hkw a5 2 2x n48 1 c 1 sge wyn w 37d 6 65 2 4g1
e 5rk 2e7 f1 15u 3t6 5 38f"),
    (["hano", "hanunoo"], .decode "
4kg k"),
    (["hatr", "hatran"], .decode "
1gbk i 1 1 5 4"),
    (["hebr", "hebrew"], .decode "
13l 1i 8 q 4 5 1cfc p 1 4 1 0 1 1 1 1 1 9"),
    (["hira", "hiragana"], .decode "
9j5 2d 6 2 23q9 7y i 0 t 2 crx 0"),
    (["hluw", "anatolianhieroglyphs"], .decode "
1s00 g6"),
    (["hmng", "pahawhhmong"], .decode "
1zpc 1x a 9 1 6 1 k 5 i"),
    (["hmnp", "nyiakengpuachuehmong"], .decode "
2n0g 18 3 d 2 9 4 1"),
    (["hung", "oldhungarian"], .decode "
1h1c 1e d 1e 7 5"),
    (["ital", "olditalic"], .decode "
1f5s z 9 2"),
    (["java", "javanese"], .decode "
xhc 25 2 9 4 1"),
    (["kali", "kayahli"], .decode "
xds 19 1 0"),
    (["kana", "katakana"], .decode "
9lt 2h 2 2 6o f 5s 1a 1 2f 14b2 9 1 18 ytu 3 1 6 1 1 1 0 7z 2 1e 0 e 3"),
    (["kawi"], .decode "
1kow g 1 14 3 r"),
    (["khar", "kharoshthi"], .decode "
1gjk 3 1 1 5 7 1 2 1 s 2 2 4 9 7 8"),
    (["khmr", "khmer"], .decode "
4n4 2l 2 9 6 9 di v"),
    (["khoj", "khojki"], .decode "
1i4g h 1 1a"),
    (["kits", "khitansmallscript"], .decode "
20o4 0 5cr d1"),
    (["knda", "kannada"], .decode "
2gw c 1 2 1 m 1 9 1 4 2 8 1 2 1 3 7 1 6 1 1 3 2 9 1 2"),
    (["kthi", "kaithi"], .decode "
1hts 1u a 0"),
    (["lana", "taitham"], .decode "
55s 1q 1 s 2 a 6 9 6 d"),
    (["laoo", "lao"], .decode "
2v5 1 1 0 1 4 1 n 1 0 1 m 2 4 1 0 1 6 1 9 2 3"),
    (["latn", "latin"], .decode "
1t p 6 p 1b 0 f 0 5 m 1 u 1 cg 13 4 55n 11 6 1c 5 3 5 c 1 1x 1t 73 a9 0 d 0 g c 3x 1 6 0 r 0 h
14 253 v o82 2t 3 1r 5 1 1 0 1 4 o d mo 16 1 8 1 3 fpy 6 t6 p 6 p 1lx 5 1 15 1 8 16it u 6 5"),
    (["lepc", "lepcha"], .decode "
5j4 1j 3 e 3 2"),
    (["limb", "limbu"], .decode "
4xs u 1 b 4 b 4 0 3 b"),
    (["lina", "lineara"], .decode "
1fr4 8m 9 l a 7"),
    (["linb", "linearb"], .decode "
1ekg b 1 p 1 i 1 1 1 e 2 d y 3e"),
    (["lisu"], .decode "
wk0 1b o8g 0"),
    (["lyci", "lycian"], .decode "
1f28 s"),
    (["lydi", "lydian"], .decode "
1gdc p 5 0"),
    (["mahj", "mahajani"], .decode "
1hzk 12"),
    (["maka", "makasar"], .decode "
1ko0 o"),
    (["mand", "mandaic"], .decode "
1mo r 2 0"),
    (["mani", "manichaean"], .decode "
1gow 12 4 b"),
    (["marc", "marchen"], .decode "
1k6o v 2 l 1 d"),
    (["medf", "medefaidrin"], .decode "
20cg 2i"),
    (["mend", "mendekikakui"], .decode "
2oe8 5g 2 f"),
    (["merc", "meroiticcursive"], .decode "
1ggw n 4 j 2 19"),
    (["mero", "meroitichieroglyphs"], .decode "
1gg0 v"),
    (["mlym", "malayalam"], .decode "
2kg c 1 2 1 1e 1 2 1 5 4 f 2 p"),
    (["modi"], .decode "
1iww 1w b 9"),
    (["mong", "mongolian"], .decode "
4qo 1 2 0 1 j 6 2g 7 16 1e45 c"),
    (["mroo", "mro"], .decode "
1zk0 u 1 9 4 1"),
    (["mtei", "meeteimayek"], .decode "
xr4 m 5l 19 2 9"),
    (["mult", "multani"], .decode "
1i80 6 1 0 1 3 1 e 1 a"),
    (["mymr", "myanmar"], .decode "
35s 4f u9s u 2p v"),
    (["nagm", "nagmundari"], .decode "
2nrk 15"),
    (["nand", "nandinagari"], .decode "
1jmo 7 2 19 2 a"),
    (["narb", "oldnortharabian"], .decode "
1gn4 v"),
    (["nbat", "nabataean"], .decode "
1g8w u 8 8"),
    (["newa"], .decode "
1iio 2j 1 4"),
    (["nkoo", "nko"], .decode "
1j4 1m 2 2"),
    (["nshu", "nushu"], .decode "
20o1 0 cy6 az"),
    (["ogam", "ogham"], .decode "
4g0 s"),
    (["olck", "olchiki"], .decode "
5lc 1b"),
    (["orkh", "oldturkic"], .decode "
1gxs 20"),
    (["orya", "oriya"], .decode "
269 2 1 7 2 1 2 l 1 6 1 1 1 4 2 8 2 1 2 2 7 2 4 1 1 4 2 h"),
    (["osge", "osage"], .decode "
1fhs z 4 z"),
    (["osma", "osmanya"], .decode "
1fgg t 2 9"),
    (["ougr", "olduyghur"], .decode "
1hm8 p"),
    (["palm", "palmyrene"], .decode "
1g80 v"),
    (["pauc", "paucinhau"], .decode "
1juo 1k"),
    (["perm", "oldpermic"], .decode "
1f80 16"),
    (["phag", "phagspa"], .decode "
x8g 1j"),
    (["phli", "inscriptionalpahlavi"], .decode "
1gtc i 5 7"),
    (["phlp", "psalterpahlavi"], .decode "
1gu8 h 7 3 c 6"),
    (["phnx", "phoenician"], .decode "
1gcg r 3 0"),
    (["plrd", "miao"], .decode "
20hs 22 4 1k 7 g"),
    (["prti", "inscriptionalparthian"], .decode "
1gsg l 2 7"),
    (["rjng", "rejang"], .decode "
xf4 z b 0"),
    (["rohg", "hanifirohingya"], .decode "
1h4w 13 8 9"),
    (["runr", "runic"], .decode "
4gw 22 3 a"),
    (["samr", "samaritan"], .decode "
1kw 19 2 e"),
    (["sarb", "oldsoutharabian"], .decode "
1gm8 v"),
    (["saur", "saurashtra"], .decode "
xa8 1x 8 b"),
    (["sgnw", "signwriting"], .decode "
2l8g i3 f 4 1 e"),
    (["shaw", "shavian"], .decode "
1ff4 1b"),
    (["shrd", "sharada"], .decode "
1i0w 2n"),
    (["sidd", "siddham"], .decode "
1itc 1h 2 11"),
    (["sind", "khudawadi"], .decode "
1i9c 1m 5 9"),
    (["sinh", "sinhala"], .decode "
2o1 2 1 h 3 n 1 8 1 0 2 6 3 0 4 5 1 0 1 7 6 9 2 2 1fcc j"),
    (["sogd", "sogdian"], .decode "
1hkg 15"),
    (["sogo", "oldsogdian"], .decode "
1hj4 13"),
    (["sora", "sorasompeng"], .decode "
1hw0 o 7 9"),
    (["soyo", "soyombo"], .decode "
1jrk 2a"),
    (["sund", "sundanese"], .decode "
5fk 1r 74 7"),
    (["sylo", "sylotinagri"], .decode "
x6o 18"),
    (["syrc", "syriac"], .decode "
1ds d 1 1n 2 2 7k a"),
    (["tagb", "tagbanwa"], .decode "
4m8 c 1 2 1 1"),
    (["takr", "takri"], .decode "
1j0g 1l 6 9"),
    (["tale", "taile"], .decode "
500 t 2 4"),
    (["talu", "newtailue"], .decode "
51c 17 4 p 6 a 3 1"),
    (["taml", "tamil"], .decode "
29u 1 1 5 3 2 1 3 3 1 1 0 1 1 3 1 3 2 3 b 4 4 3 2 1 3 2 0 6 0 e k 1ih1 1d d 0"),
    (["tang", "tangut"], .decode "
20o0 0 v 4qf 8 lb e8 8"),
    (["tavt", "taiviet"], .decode "
xog 1u o 4"),
    (["telu", "telugu"], .decode "
2dc c 1 2 1 m 1 f 2 8 1 2 1 3 7 1 1 2 2 0 2 3 2 9 7 8"),
    (["tfng", "tifinagh"], .decode "
8xc 1j 7 1 e 0"),
    (["tglg", "tagalog"], .decode "
4jk l 9 0"),
    (["thaa", "thaana"], .decode "
1hc 1d"),
    (["thai"], .decode "
2rl 1l 5 r"),
    (["tibt", "tibetan"], .decode "
2yo 1z 1 z 4 12 1 z 1 e 1 6 4 1"),
    (["tirh", "tirhuta"], .decode "
1im8 1z 8 9"),
    (["tnsa", "tangsa"], .decode "
1zlc 26 1 9"),
    (["toto"], .decode "
2nbk u"),
    (["ugar", "ugaritic"], .decode "
1f9c t 1 0"),
    (["vaii", "vai"], .decode "
wlc 8b"),
    (["vith", "vithkuqi"], .decode "
1fn4 a 1 e 1 6 1 1 1 a 1 e 1 6 1 1"),
    (["wara", "warangciti"], .decode "
1jfk 2a c 0"),
    (["wcho", "wancho"], .decode "
2ncw 1l 5 0"),
    (["xpeo", "oldpersian"], .decode "
1fa8 z 4 d"),
    (["xsux", "cuneiform"], .decode "
1kw0 pl 2u 32 1 4 b 5f"),
    (["yezi", "yezidi"], .decode "
1hfk 15 1 2 2 1"),
    (["yiii", "yi"], .decode "
vls wc 3 1i"),
    (["zanb", "zanabazarsquare"], .decode "
1jpc 1z"),
    (["zinh", "inherited", "qaai"], .decode "
lc 33 7p 1 ck a q 0 kg 3 3ff u e9 2 1 c 1 6 4 0 6 0 3 1 5i 1r ek 1 5e w 309 3 2z 1 14kl f g d
r3 0 6a 0 38a 0 1138 19 2 m f4 2 h 7 2 6 u 3 h45u 6n"),
    (["zyyy", "common"], .decode "
0 1s q 5 q 1a 1 e 1 4 n 0 v 0 ch 12 5 4 2 j 38 0 9 0 6 0 1 0 hp 0 6 0 e 0 3 0 w 0 4c 0 ec 0 3l
1 yh 0 b9 3 82 0 167 2 1z 1 5n 1 1 0 y5 0 d 0 7 3 1 5 1 2 2 0 lh b 2 2e 1 a 3 a 1 e h w 1r 11
1 2 2 5 1 q 1 g 15 2 4 ie p a l pr 74 hf 2 v 1 2w e8 2l b6 b 4 4 1 0 1 o f 7 4 3 2j 1 3 0 2i 1
43 f w z 1o 1r v 28 1b 0 2g 4n 534 1r hkw x 2u 2 4l 9 6s 0 4g 0 az 0 e 1 g5u 1 5s 9 m y 1 i 1
3 43 0 1 v q 5 q a a 0 19 1 1s 6 1 6 a 4 76 2 4 18 3 8 28 c 1f 18 6c q 10o4 3 3os 37 1o 6t a
12 2 1p 3 g 8 1 7 t 4 1o 5x j c j c 2e 9 o 3r 2c 1 1y 1 1 2 0 2 1 2 3 1 b 1 0 1 6 1 1s 1 3 2 7
1 6 1 r 1 3 1 4 1 0 3 6 1 9f 2 83 2 1d 41d 1v 24 1o jm 17 4 2r c e 2 e 1 e 1 10 a 4t 1k p 1 1
d 17 4 8 7 1 e 5 4a rb 4 g 3 c 3 3a 4 2m 6 b 4 0 f b 4 1j 8 9 6 13 8 t 2 1 26 9f c d 2 c 3 8 7
19 1 6 8 d 4 8 7 8 7 42 1 1i 11 9 gvlz 0 u 2n") ]

/-- The characters of the script that a name stands for. -/
def scriptNamed? (name : String) : Option Runs :=
  (scripts.find? fun s => s.1.contains name).map (·.2)

end ColumnTree.Text
