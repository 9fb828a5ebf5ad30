/-
# Scripts in use

The scripts that a character is used in, from the property Script_Extensions of Unicode.  A mark or
a sign that several scripts share stands with each of them.
-/
import ColumnTree.Text.Runs

namespace ColumnTree.Text

/-- The scripts: names in small letters without separators, and the characters used in them. -/
def scriptUses : List (List String × Runs) :=
  [ (["adlm", "adlam"], .decode "
17j 0 w 0 2ncv 23 4 9 4 1"),
    (["aghb", "caucasianalbanian"], .decode "
1flc 1f b 0"),
    (["ahom"], .decode "
1j40 q 2 e 4 m"),
    (["arab", "arabic"], .decode "
16o 4 1 5y 1 x 28 1b 6o u 1 1 6 21 1 s 1bv4 36 g cc 2 1h 7 0 w f 34 4 1 3q rn r 290 u 3i 2 181s
3 1 q 1 1 1 0 2 0 1 9 1 3 1 0 1 0 6 0 4 0 1 0 1 0 1 2 1 1 1 0 2 0 1 0 1 0 1 0 1 0 1 1 1 0 2 3 1
6 1 3 1 3 1 0 1 9 1 g 5 2 1 4 1 g 1g 1"),
    (["armi", "imperialaramaic"], .decode "
1g74 l 1 8"),
    (["armn", "armenian"], .decode "
10x 11 2 1d 2 2 1chv 4"),
    (["avst", "avestan"], .decode "
1gqo 1h 3 6"),
    (["bali", "balinese"], .decode "
5c0 24 3 1a"),
    (["bamu", "bamum"], .decode "
www 2f 124o fs"),
    (["bass", "bassavah"], .decode "
1zo0 t 2 5"),
    (["batk", "batak"], .decode "
5hc 1f 8 3"),
    (["beng", "bengali"], .decode "
1u9 1 h 1 q 3 1 7 2 1 2 l 1 6 1 0 3 3 2 8 2 1 2 3 8 0 4 1 1 4 2 o 3pt 0 1 0 2 1 1 0 8 0 8 0 2 0
4 0 2 2 rnd 0"),
    (["bhks", "bhaiksuki"], .decode "
1k3k 8 1 18 1 d a s"),
    (["bopo", "bopomofo"], .decode "
kq 1 8wl 2 4 9 1 c a 3 2 0 6 0 5f 0 9 16 34 v 14ed 1 7u 4"),
    (["brah", "brahmi"], .decode "
1hq8 25 4 z 9 0"),
    (["brai", "braille"], .decode "
7wg 73"),
    (["bugi", "buginese"], .decode "
54w r 2 1 sdr 0"),
    (["buhd", "buhid"], .decode "
4l1 1 9 j"),
    (["cakm", "chakma"], .decode "
1ye 9 18w 9 1epi 1g 1 h"),
    (["cans", "canadianaboriginal"], .decode "
3y8 hr fk 1x 1ewq f"),
    (["cari", "carian"], .decode "
1f34 1c"),
    (["cham"], .decode "
xkw 1i 9 d 2 9 2 3"),
    (["cher", "cherokee"], .decode "
3vk 2d 2 5 twy 27"),
    (["chrs", "chorasmian"], .decode "
1ho0 r"),
    (["copt", "coptic", "qaac"], .decode "
rm d 80g 37 5 6 168w r"),
    (["cpmn", "cyprominoan"], .decode "
1erk 1 972 2q"),
    (["cprt", "cypriot"], .decode "
1erk 2 4 18 3 8 1c0 5 2 0 1 17 1 1 3 0 2 0"),
    (["cyrl", "cyrillic"], .decode "
sg 8f 4ls 8 4i 0 24 0 3j 0 353 v 1v 0 np8 2n ham 1 18n4 1p x 0"),
    (["deva", "devanagari"], .decode "
1s0 2a 2 16 3tc 12 1 1 s6 0 qpr 9 4m v mio 9"),
    (["diak", "divesakuru"], .decode "
1ji8 6 2 0 2 7 1 1 1 t 1 1 2 b 9 9"),
    (["dogr", "dogra"], .decode "
1us b vcw 9 m2u 1n"),
    (["dsrt", "deseret"], .decode "
1fcw 27"),
    (["dupl", "duployan"], .decode "
2fpc 2y 5 c 3 8 7 9 2 7"),
    (["egyp", "egyptianhieroglyphs"], .decode "
1o1s ut"),
    (["elba", "elbasan"], .decode "
1fk0 13"),
    (["elym", "elymaic"], .decode "
1hpc m"),
    (["ethi", "ethiopic"], .decode "
3k0 20 1 3 2 6 1 0 1 3 2 14 1 3 2 w 1 3 2 6 1 0 1 3 2 e 1 1k 1 3 2 1u 2 v 3 p 546 m 9 6 1 6 1 6
1 6 1 6 1 6 1 6 1 6 opu 5 2 5 2 5 9 6 1 6 1qk1 6 1 3 1 1 1 e"),
    (["geor", "georgian"], .decode "
3a8 11 1 0 5 0 2 1b 2a8 16 2 2 37k 11 1 0 5 0"),
    (["glag", "glagolitic"], .decode "
w4 0 2 0 7so 2n df 0 nqj 0 1pxs 6 1 g 2 6 1 1 1 4"),
    (["gong", "gunjalagondi"], .decode "
1us 1 1iii 5 1 1 1 10 1 1 1 5 7 9"),
    (["gonm", "masaramgondi"], .decode "
1us 1 1ifu 6 1 1 1 17 3 0 1 1 1 8 8 9"),
    (["goth", "gothic"], .decode "
1f74 q"),
    (["gran", "grantha"], .decode "
1u9 1 h 1 hs d 3bw 0 1 1 u 2 3 1 s6 0 1btb 3 1 7 2 1 2 l 1 6 1 1 1 4 1 9 2 1 2 2 2 0 6 0 5 6 2
6 3 4 2fv 1 1 0"),
    (["grek", "greek"], .decode "
n6 0 2 0 16 3 1 2 2 3 1 0 4 0 1 0 1 2 1 0 1 j 1 1q e f 4yu 4 1e 4 4 4 2c 2 8u l 2 5 2 11 2 5 2
7 1 0 1 0 1 0 1 u 2 1g 1 e 1 d 2 5 1 i 2 2 1 8 87 0 rb2 0 gyi 26 h 0 155r 1x"),
    (["gujr", "gujarati"], .decode "
1u9 1 h 1 7v 2 1 8 1 2 1 l 1 6 1 1 1 4 2 9 1 2 1 2 2 0 f 3 2 b 7 6 v1s 9"),
    (["guru", "gurmukhi"], .decode "
1u9 1 h 1 4b 2 1 5 4 1 2 l 1 6 1 1 1 1 1 1 2 0 1 4 4 1 2 2 3 0 7 3 1 0 7 g v5l 9"),
    (["hang", "hangul"], .decode "
3cw 73 5xd 2 4 9 1 c e 2 6 0 5f 0 1h 2l 35 u 1t u nhd s hv 8mb c m 4 1c 7k9 1 7u 4 1m u 3 5 2 5
2 5 2 2"),
    (["hani", "han"], .decode "
96o p 1 2g c 5x 17 2 1 c 1 c 1 c 2 0 6 8 57 0 44 f w z 1o 13 1k 1c f b 1f 0 2g o a 4 2o u 1 533
1s g73 1ds 7 g6w a5 2 2x ob 1 7u 4 m7w 1 c 1 jn2 h 63i 1 2pa wyn w 37d 6 65 2 4g1 e 5rk 2e7 f1
15u 3t6 5 38f"),
    (["hano", "hanunoo"], .decode "
4kg m"),
    (["hatr", "hatran"], .decode "
1gbk i 1 1 5 4"),
    (["hebr", "hebrew"], .decode "
13l 1i 8 q 4 5 1cfc p 1 4 1 0 1 1 1 1 1 9"),
    (["hira", "hiragana"], .decode "
9hd 2 4 9 1 c g 5 1 0 4 1 3 2d 2 7 2i 1 14js 1 7u 4 a 0 19 1 yu9 7y i 0 t 2 crx 0"),
    (["hluw", "anatolianhieroglyphs"], .decode "
1s00 g6"),
    (["hmng", "pahawhhmong"], .decode "
1zpc 1x a 9 1 6 1 k 5 i"),
    (["hmnp", "nyiakengpuachuehmong"], .decode "
2n0g 18 3 d 2 9 4 1"),
    (["hung", "oldhungarian"], .decode "
1h1c 1e d 1e 7 5"),
    (["ital", "olditalic"], .decode "
1f5s z 9 2"),
    (["java", "javanese"], .decode "
xhc 25 1 a 4 1"),
    (["kali", "kayahli"], .decode "
xds 1b"),
    (["kana", "katakana"], .decode "
9hd 2 4 9 1 c g 5 1 0 4 1 2j 3 3 2n 6o f 5s 1a 1 2f 1431 1 7u 1q yts 3 1 6 1 1 1 0 7z 2 1e 0 e
3"),
    (["kawi"], .decode "
1kow g 1 14 3 r"),
    (["khar", "kharoshthi"], .decode "
1gjk 3 1 1 5 7 1 2 1 s 2 2 4 9 7 8"),
    (["khmr", "khmer"], .decode "
4n4 2l 2 9 6 9 di v"),
    (["khoj", "khojki"], .decode "
25i 9 v28 9 kw6 h 1 1a"),
    (["kits", "khitansmallscript"], .decode "
20o4 0 5cr d1"),
    (["knda", "kannada"], .decode "
1u9 1 h 1 m2 c 1 2 1 m 1 9 1 4 2 8 1 2 1 3 7 1 6 1 1 3 2 9 1 2 34s 0 1 0 7 0 n 0 1 0 ri3 5"),
    (["kthi", "kaithi"], .decode "
1uu 9 vcw 9 kli 1u a 0"),
    (["lana", "taitham"], .decode "
55s 1q 1 s 2 a 6 9 6 d"),
    (["laoo", "lao"], .decode "
2v5 1 1 0 1 4 1 n 1 0 1 m 2 4 1 0 1 6 1 9 2 3"),
    (["latn", "latin"], .decode "
1t p 6 p 1b 0 f 0 5 m 1 u 1 cg 13 4 3i c 7p 1 y2 1 1ig 0 2dg 11 6 1c 5 3 5 c 1 1x 1t 73 8f 0 1t
0 d 0 g c 2b 0 1l 1 6 0 r 0 h 14 253 v o74 7 q 2t 3 1r 5 1 1 0 1 4 o d 8e 0 e9 16 1 8 1 3 fpy 6
t6 p 6 p 1lx 5 1 15 1 8 16it u 6 5"),
    (["lepc", "lepcha"], .decode "
5j4 1j 3 e 3 2"),
    (["limb", "limbu"], .decode "
1ut 0 32y u 1 b 4 b 4 0 3 b"),
    (["lina", "lineara"], .decode "
1err 18 y4 8m 9 l a 7"),
    (["linb", "linearb"], .decode "
1ekg b 1 p 1 i 1 1 1 e 2 d y 3e 5 2 4 18 3 8"),
    (["lisu"], .decode "
wk0 1b o8g 0"),
    (["lyci", "lycian"], .decode "
1f28 s"),
    (["lydi", "lydian"], .decode "
1gdc p 5 0"),
    (["mahj", "mahajani"], .decode "
1us b vcw 9 kra 12"),
    (["maka", "makasar"], .decode "
1ko0 o"),
    (["mand", "mandaic"], .decode "
18g 0 e7 r 2 0"),
    (["mani", "manichaean"], .decode "
18g 0 1fgf 12 4 b"),
    (["marc", "marchen"], .decode "
1k6o v 2 l 1 d"),
    (["medf", "medefaidrin"], .decode "
20cg 2i"),
    (["mend", "mendekikakui"], .decode "
2oe8 5g 2 f"),
    (["merc", "meroiticcursive"], .decode "
1ggw n 4 j 2 19"),
    (["mero", "meroitichieroglyphs"], .decode "
1gg0 v"),
    (["mlym", "malayalam"], .decode "
1u9 1 h 1 pm c 1 2 1 1e 1 2 1 5 4 f 2 p 316 0 rit 2"),
    (["modi"], .decode "
x80 9 lom 1w b 9"),
    (["mong", "mongolian"], .decode "
4qo p 6 2g 7 16 1hg 0 1cmo c"),
    (["mroo", "mro"], .decode "
1zk0 u 1 9 4 1"),
    (["mtei", "meeteimayek"], .decode "
xr4 m 5l 19 2 9"),
    (["mult", "multani"], .decode "
21y 9 1g5s 6 1 0 1 3 1 e 1 a"),
    (["mymr", "myanmar"], .decode "
35s 4f u4u 0 4x u 2p v"),
    (["nagm", "nagmundari"], .decode "
2nrk 15"),
    (["nand", "nandinagari"], .decode "
1us 1 ow 9 35l 0 8 0 7 0 rhx 5 mei 7 2 19 2 a"),
    (["narb", "oldnortharabian"], .decode "
1gn4 v"),
    (["nbat", "nabataean"], .decode "
1g8w u 8 8"),
    (["newa"], .decode "
1iio 2j 1 4"),
    (["nkoo", "nko"], .decode "
170 0 e 0 3 0 bk 1m 2 2 1cfy 1"),
    (["nshu", "nushu"], .decode "
20o1 0 cy6 az"),
    (["ogam", "ogham"], .decode "
4g0 s"),
    (["olck", "olchiki"], .decode "
5lc 1b"),
    (["orkh", "oldturkic"], .decode "
1gxs 20"),
    (["orya", "oriya"], .decode "
1u9 1 h 1 bf 2 1 7 2 1 2 l 1 6 1 1 1 4 2 8 2 1 2 2 7 2 4 1 1 4 2 h 3fm 0 n 0"),
    (["osge", "osage"], .decode "
1fhs z 4 z"),
    (["osma", "osmanya"], .decode "
1fgg t 2 9"),
    (["ougr", "olduyghur"], .decode "
18g 0 1fht 0 vx p"),
    (["palm", "palmyrene"], .decode "
1g80 v"),
    (["pauc", "paucinhau"], .decode "
1juo 1k"),
    (["perm", "oldpermic"], .decode "
w3 0 1ebw 16"),
    (["phag", "phagspa"], .decode "
4qq 1 1 0 shm 1j"),
    (["phli", "inscriptionalpahlavi"], .decode "
1gtc i 5 7"),
    (["phlp", "psalterpahlavi"], .decode "
18g 0 1flr h 7 3 c 6"),
    (["phnx", "phoenician"], .decode "
1gcg r 3 0"),
    (["plrd", "miao"], .decode "
20hs 22 4 1k 7 g"),
    (["prti", "inscriptionalparthian"], .decode "
1gsg l 2 7"),
    (["rjng", "rejang"], .decode "
xf4 z b 0"),
    (["rohg", "hanifirohingya"], .decode "
170 0 e 0 3 0 w 0 43 0 1fsb 13 8 9"),
    (["runr", "runic"], .decode "
4gw 22 3 a"),
    (["samr", "samaritan"], .decode "
1kw 19 2 e"),
    (["sarb", "oldsoutharabian"], .decode "
1gm8 v"),
    (["saur", "saurashtra"], .decode "
xa8 1x 8 b"),
    (["sgnw", "signwriting"], .decode "
2l8g i3 f 4 1 e"),
    (["shaw", "shavian"], .decode "
1ff4 1b"),
    (["shrd", "sharada"], .decode "
1u9 0 3ut 0 1 0 2 1 2 0 1cbj 2n"),
    (["sidd", "siddham"], .decode "
1itc 1h 2 11"),
    (["sind", "khudawadi"], .decode "
1us 1 vd6 9 l12 1m 5 9"),
    (["sinh", "sinhala"], .decode "
1us 1 t7 2 1 h 3 n 1 8 1 0 2 6 3 0 4 5 1 0 1 7 6 9 2 2 1fcc j"),
    (["sogd", "sogdian"], .decode "
18g 0 1gbz 15"),
    (["sogo", "oldsogdian"], .decode "
1hj4 13"),
    (["sora", "sorasompeng"], .decode "
1hw0 o 7 9"),
    (["soyo", "soyombo"], .decode "
1jrk 2a"),
    (["sund", "sundanese"], .decode "
5fk 1r 74 7"),
    (["sylo", "sylotinagri"], .decode "
1us 1 3k 9 v80 18"),
    (["syrc", "syriac"], .decode "
170 0 e 1 2 0 w 0 a a q 0 3z d 1 1n 2 2 7k a 499 0 1 0"),
    (["tagb", "tagbanwa"], .decode "
4l1 1 15 c 1 2 1 1"),
    (["takr", "takri"], .decode "
1us 1 vd6 9 ls6 1l 6 9"),
    (["tale", "taile"], .decode "
37k 9 1s6 t 2 4"),
    (["talu", "newtailue"], .decode "
51c 17 4 p 6 a 3 1"),
    (["taml", "tamil"], .decode "
1u9 1 h 1 f0 1 1 5 3 2 1 3 3 1 1 0 1 1 3 1 3 2 3 b 4 4 3 2 1 3 2 0 6 0 e k 3bz 0 ro8 0 ky5 0 1
0 1j 1 2gz 1d d 0"),
    (["tang", "tangut"], .decode "
20o0 0 v 4qf 8 lb e8 8"),
    (["tavt", "taiviet"], .decode "
xog 1u o 4"),
    (["telu", "telugu"], .decode "
1u9 1 h 1 ii c 1 2 1 m 1 f 2 8 1 2 1 3 7 1 1 2 2 0 2 3 2 9 7 8 38a 0 n 0"),
    (["tfng", "tifinagh"], .decode "
8xc 1j 7 1 e 0"),
    (["tglg", "tagalog"], .decode "
4jk l 9 0 l 1"),
    (["thaa", "thaana"], .decode "
170 0 e 1 2 0 1s 9 7q 1d 1cn4 0 a 0"),
    (["thai"], .decode "
2rl 1l 5 r"),
    (["tibt", "tibetan"], .decode "
2yo 1z 1 z 4 12 1 z 1 e 1 6 4 1"),
    (["tirh", "tirhuta"], .decode "
1u9 1 h 1 3v0 0 ri5 9 ldy 1z 8 9"),
    (["tnsa", "tangsa"], .decode "
1zlc 26 1 9"),
    (["toto"], .decode "
2nbk u"),
    (["ugar", "ugaritic"], .decode "
1f9c t 1 0"),
    (["vaii", "vai"], .decode "
wlc 8b"),
    (["vith", "vithkuqi"], .decode "
1fn4 a 1 e 1 6 1 1 1 a 1 e 1 6 1 1"),
    (["wara", "warangciti"], .decode "
1jfk 2a c 0"),
    (["wcho", "wancho"], .decode "
2ncw 1l 5 0"),
    (["xpeo", "oldpersian"], .decode "
1fa8 z 4 d"),
    (["xsux", "cuneiform"], .decode "
1kw0 pl 2u 32 1 4 b 5f"),
    (["yezi", "yezidi"], .decode "
170 0 e 0 3 0 1s 9 1g5y 15 1 2 2 1"),
    (["yiii", "yi"], .decode "
9hd 1 5 9 2 7 67 0 lxg wc 3 1i hwa 4"),
    (["zanb", "zanabazarsquare"], .decode "
1jpc 1z"),
    (["zinh", "inherited", "qaai"], .decode "
lc 1t 1 1 1 s 168 1 3ff u kz 1h 1 0 1 4 ek 1 5e v 17o0 f g d r3 0 14hu 19 2 m f4 2 h 7 2 6 u 3
h45u 6n"),
    (["zyyy", "common"], .decode "
0 1s q 5 q 1a 1 e 1 4 n 0 v 0 ch 12 5 4 2 j 38 0 9 0 6 0 1 0 hp 0 5z 0 ec 0 124 0 b9 3 1ea 2
1si b 2 w 1 1g 1 a 3 a 1 e h w 1r 11 1 2 2 5 1 q 1 g 15 2 4 ie p a l pr 74 hf 2 v 1 2w e8 1u 1
p b6 b 4 0 3 0 d 0 d 0 l 0 ep n v 0 1d e c 3 4h 9 5 2n v 0 534 1r hl4 p 2u 2 r4 0 e 1 gbo 9 m k
2 b 1 i 1 3 43 0 1 v q 5 q 5 3j 6 1 6 a 4 b6 c 1f 18 14k3 37 1o 6t a 12 2 1p 3 g 8 1 7 t 4 1o
5x j c j c 2e r 6 3r 2c 1 1y 1 1 2 0 2 1 2 3 1 b 1 0 1 6 1 1s 1 3 2 7 1 6 1 r 1 3 1 4 1 0 3 6 1
9f 2 83 2 1d 41d 1v 24 1o jm 17 4 2r c e 2 e 1 e 1 10 a 4t 1k p 1 1 d 17 4 8 n 5 4a rb 4 g 3 c
3 3a 4 2m 6 b 4 0 f b 4 1j 8 9 6 13 8 t 2 1 26 9f c d 2 c 3 8 7 19 1 6 8 d 4 8 7 8 7 42 1 1i 11
9 gvlz 0 u 2n") ]

/-- The characters used in the script that a name stands for. -/
def usedInScript? (name : String) : Option Runs :=
  (scriptUses.find? fun s => s.1.contains name).map (·.2)

end ColumnTree.Text
