/-
# Letter case

Upper and lower case are the full mappings of Unicode, under which one character may become up to
three.  They look at one character at a time, with one exception: a capital sigma at the end of a
word becomes the final small sigma.  The end of a word is told by the properties Cased and
Case_Ignorable, as the standard defines the context Final_Sigma.

`folds` is the simple case folding, one character to one; characters that fold together differ in
case only.

A mapping table lists stretches of characters, evenly spaced, that move by one distance.  It is
written as four numbers a stretch: the gap since the stretch before, the count less one, the
spacing, and the distance, doubled and with odd numbers for backward moves.
-/
import ColumnTree.Text.Runs

namespace ColumnTree.Text

/-- Characters `first, first + step, …` (`more` of them after the first) that all move by
`distance`. -/
structure Stretch where
  /-- The first character. -/
  first : Nat
  /-- How many follow it. -/
  more : Nat
  /-- The spacing. -/
  step : Nat
  /-- How far each moves. -/
  distance : Int

/-- The stretches that a table's numbers describe, the next code point being `next`. -/
def Stretch.ofSteps (next : Nat) : List Nat → List Stretch
  | gap :: more :: step :: code :: rest =>
    let first := next + gap
    let distance : Int := if code % 2 = 0 then (code / 2 : Nat) else -((code / 2 : Nat) + 1)
    ⟨first, more, step, distance⟩ :: Stretch.ofSteps (first + more * step + 1) rest
  | _ => []

/-- The stretches of a table text. -/
def Stretch.decode (text : String) : Array Stretch :=
  (Stretch.ofSteps 0 (numerals text.toList none)).toArray

/-- Bisection for the stretch among `lo ..< hi` that holds `n`; the place that `n` moves to. -/
def moveBy (table : Array Stretch) (n lo hi : Nat) : Option Nat :=
  if _ : lo < hi then
    let mid := (lo + hi) / 2
    let s := table.getD mid ⟨0, 0, 1, 0⟩
    if n < s.first then moveBy table n lo mid
    else if s.first + s.more * s.step < n then moveBy table n (mid + 1) hi
    else if (n - s.first) % s.step = 0 then some (n + s.distance).toNat
    else none
  else none
termination_by hi - lo

/-- Expansions, as a code point and the one to three code points that replace it. -/
def expansions : List Nat → List (Nat × List Char)
  | n :: a :: b :: c :: rest =>
    (n, ([a, b, c].filter (· != 0)).map Char.ofNat) :: expansions rest
  | _ => []

/-- Upper case, one to one, from U+0080 on. -/
def upperStretches : Array Stretch := Stretch.decode "
51 0 1 15a 16 m 1 1r 1 6 1 1r 0 0 1 6q 1 n 2 1 1 0 1 cv 1 2 2 1 2 7 2 1 2 m 2 1 2 2 2 1 0 0 1 gn
0 0 1 au 2 1 2 1 2 0 1 1 3 0 1 1 5 0 1 1 2 0 1 5e 3 0 1 1 0 0 1 92 3 0 1 78 2 2 2 1 2 0 1 1 4 0
1 1 2 0 1 1 3 1 2 1 2 0 1 1 3 0 1 1 1 0 1 34 5 0 1 1 0 0 1 3 1 0 1 1 0 0 1 3 1 0 1 1 0 0 1 3 1 7
2 1 0 0 1 4d 1 8 2 1 2 0 1 1 0 0 1 3 1 0 1 1 3 j 2 1 3 8 2 1 8 0 1 1 2 1 1 gou 1 0 1 1 4 4 2 1 0
0 1 gn2 0 0 1 gmw 0 0 1 gn0 0 0 1 bn 0 0 1 bf 1 1 1 bd 1 0 1 b7 1 0 1 b9 0 0 1 1tb2 3 0 1 bd 0 0
1 1tau 1 0 1 bh 1 0 1 1t8w 0 0 1 1tag 1 0 1 bl 0 0 1 bp 0 0 1 1tag 0 0 1 gku 0 0 1 1taa 2 0 1 bp
1 0 1 gl6 0 0 1 bt 2 0 1 bv 7 0 1 gjy 2 0 1 c3 1 0 1 1tae 0 0 1 c3 3 0 1 1t90 0 0 1 c3 0 0 1 3t
0 1 1 c1 0 0 1 3x 5 0 1 c5 a 0 1 1t7u 0 0 1 1t7o 4m 0 1 4o 17 1 2 1 3 0 1 1 3 2 1 78 1a 0 1 23 0
2 1 21 1 g 1 1r 0 0 1 1p 0 8 1 1r 0 0 1 3j 0 1 1 3h 1 0 1 3f 0 0 1 35 3 0 1 2l 0 0 1 2z 0 0 1 f
1 b 2 1 0 0 1 4r 0 0 1 4f 0 0 1 e 0 0 1 6f 1 0 1 5b 2 0 1 1 2 0 1 1 1g v 1 1r 0 f 1 4f 1 g 2 1 9
q 2 1 2 6 2 1 0 0 1 t 1 1b 2 1 1d 11 1 2n 289 16 1 4n4 2 2 1 4n4 l4 5 1 f 1oi 0 1 9nf 0 0 1 9nd
0 0 1 9mv 0 1 1 9mr 0 0 1 9mt 0 0 1 9mf 0 0 1 9jd 0 0 1 1if8 6o 0 1 1iiw 3 0 1 5vw g 0 1 1ils 36
22 2 1 5 0 1 39 5 1b 2 1 0 7 1 g 8 5 1 g a 7 1 g 8 7 1 g 8 5 1 g b 3 2 g 8 7 1 g 8 1 1 44 0 3 1
4s 0 1 1 5k 0 1 1 74 0 1 1 68 0 1 1 70 1e 1 1 g c 0 1 b49 h 1 1 g e 1 1 g 3 0 1 e a0 0 1 1j x f
1 v 4 0 1 1 nf p 1 1f 1fq 1b 1 2n 1 0 1 1 3 0 1 gnp 0 0 1 gnj 1 2 2 1 6 0 1 1 2 0 1 1 a 1d 2 1 8
1 2 1 4 0 1 1 c 11 1 b7j 1 0 1 b7j 5 0 1 b7j nwz m 2 1 j d 2 1 3r 6 2 1 3 u 2 1 a 1 2 1 2 4 2 1
4 0 1 1 4 1 2 1 0 0 1 2o 2 9 2 1 b 7 2 1 4 1 2 1 6 0 1 1 5 1 2 1 s 0 1 1 nw 0 1 1fj s 27 1 1nz3
ght p 1 1r y5 13 1 27 3s z 1 27 4b a 1 25 1 e 1 25 1 6 1 25 1 1 1 25 1dv 1e 1 3j 2bx v 1 1r gw0
v 1 1r o82 x 1 1v"

/-- Upper case, one to many. -/
def upperExpansions : List (Nat × List Char) := expansions (numerals "
67 2b 2b 0 95 jg 26 0 ds 22 lo 0 pc pl lk ld q8 px lk ld 13b 111 11u 0 61i 20 mp 0 61j 2c lk 0
61k 2f lm 0 61l 2h lm 0 61m 1t ji 0 66o px lv 0 66q px lv lc 66s px lv ld 66u px lv n6 680 64o
pl 0 681 64p pl 0 682 64q pl 0 683 64r pl 0 684 64s pl 0 685 64t pl 0 686 64u pl 0 687 64v pl 0
688 64o pl 0 689 64p pl 0 68a 64q pl 0 68b 64r pl 0 68c 64s pl 0 68d 64t pl 0 68e 64u pl 0 68f
64v pl 0 68g 65k pl 0 68h 65l pl 0 68i 65m pl 0 68j 65n pl 0 68k 65o pl 0 68l 65p pl 0 68m 65q
pl 0 68n 65r pl 0 68o 65k pl 0 68p 65l pl 0 68q 65m pl 0 68r 65n pl 0 68s 65o pl 0 68t 65p pl 0
68u 65q pl 0 68v 65r pl 0 68w 67c pl 0 68x 67d pl 0 68y 67e pl 0 68z 67f pl 0 690 67g pl 0 691
67h pl 0 692 67i pl 0 693 67j pl 0 694 67c pl 0 695 67d pl 0 696 67e pl 0 697 67f pl 0 698 67g
pl 0 699 67h pl 0 69a 67i pl 0 69b 67j pl 0 69e 69m pl 0 69f pd pl 0 69g p2 pl 0 69i pd n6 0 69j
pd n6 pl 69o pd pl 0 69u 6a2 pl 0 69v pj pl 0 69w p5 pl 0 69y pj n6 0 69z pj n6 pl 6a4 pj pl 0
6aa pl lk lc 6ab pl lk ld 6ae pl n6 0 6af pl lk n6 6aq px lk lc 6ar px lk ld 6as pt lv 0 6au px
n6 0 6av px lk n6 6b6 6be pl 0 6b7 q1 pl 0 6b8 pb pl 0 6ba q1 n6 0 6bb q1 n6 pl 6bg q1 pl 0 1dkw
1y 1y 0 1dkx 1y 21 0 1dky 1y 24 0 1dkz 1y 1y 21 1dl0 1y 1y 24 1dl1 2b 2c 0 1dl2 2b 2c 0 1dlf 11g
11i 0 1dlg 11g 111 0 1dlh 11g 117 0 1dli 11q 11i 0 1dlj 11g 119 0".toList none)

/-- Lower case, one to one, from U+0080 on. -/
def lowerStretches : Array Stretch := Stretch.decode "
5c m 1 1s 1 6 1 1s x n 2 2 3 2 2 2 2 7 2 2 2 m 2 2 1 0 1 6p 0 2 2 2 3 0 1 bo 0 1 2 2 1 0 1 bg 0
0 1 2 1 1 1 be 0 0 1 2 2 0 1 4e 0 0 1 b8 0 0 1 ba 0 0 1 2 1 0 1 be 0 0 1 bi 1 0 1 bq 0 0 1 bm 0
0 1 2 3 0 1 bq 0 0 1 bu 1 0 1 bw 0 2 2 2 1 0 1 c4 0 0 1 2 1 0 1 c4 2 0 1 2 1 0 1 c4 0 0 1 2 1 1
1 c2 0 1 2 2 1 0 1 c6 0 0 1 2 3 0 1 2 7 0 1 4 0 0 1 2 1 0 1 4 0 0 1 2 1 0 1 4 0 8 2 2 2 8 2 2 2
0 1 4 0 1 2 2 1 0 1 5d 0 0 1 33 0 j 2 2 1 0 1 77 1 8 2 2 7 0 1 gnq 0 0 1 2 1 0 1 91 0 0 1 gnk 2
0 1 2 1 0 1 at 0 0 1 3u 0 0 1 3y 0 4 2 2 81 1 2 2 3 0 1 2 8 0 1 6g 6 0 1 24 1 2 1 22 1 0 1 3k 1
1 1 3i 1 g 1 1s 1 8 1 1s z 0 1 g 8 b 2 2 5 0 1 3b 2 0 1 2 1 0 1 d 0 0 1 2 2 2 1 77 0 f 1 4g 0 v
1 1s 1c g 2 2 9 q 2 2 1 0 1 u 0 6 2 2 2 1b 2 2 2 11 1 2o 289 11 1 b7k 1 0 1 b7k 5 0 1 b7k k2 27
1 1nz4 0 5 1 g 1p6 16 1 4n3 2 2 1 4n3 8w 22 2 2 9 0 1 br1 1 1b 2 2 9 7 1 f 8 5 1 f a 7 1 f 8 7 1
f 8 5 1 f b 3 2 f 8 7 1 f o 7 1 f 8 7 1 f 8 7 1 f 8 1 1 f 0 1 1 43 0 0 1 h b 3 1 4r 0 0 1 h b 1
1 f 0 1 1 5j c 1 1 f 0 1 1 67 0 0 1 d b 1 1 73 0 1 1 6z 0 0 1 h 89 0 1 bll 3 0 1 cxp 0 0 1 cqz 6
0 1 1k 19 f 1 w j 0 1 2 mq p 1 1g 1f4 1b 1 2o 1c 0 1 2 1 0 1 gkt 0 0 1 5vv 0 0 1 gjx 2 2 2 2 1 0
1 gmv 0 0 1 gl5 0 0 1 gn1 0 0 1 gmz 1 0 1 2 2 0 1 2 8 1 1 got 0 1d 2 2 8 1 2 2 4 0 1 2 nyl m 2 2
j d 2 2 3r 6 2 2 3 u 2 2 a 1 2 2 1 0 1 1iiv 0 4 2 2 4 0 1 2 1 0 1 1t8v 2 1 2 2 3 9 2 2 1 0 1
1taf 0 0 1 1tb1 0 0 1 1tat 0 0 1 1ta9 0 0 1 1taf 1 0 1 1t7n 0 0 1 1t8z 0 0 1 1t7t 0 0 1 1fk 0 7
2 2 1 0 1 2n 0 0 1 1tad 0 0 1 1ilr 0 1 2 2 6 0 1 2 5 1 2 2 s 0 1 2 h7v p 1 1s xx 13 1 28 3s z 1
28 4c a 1 26 1 e 1 26 1 6 1 26 1 1 1 26 1d6 1e 1 3k 2ct v 1 1s gw0 v 1 1s o80 x 1 1w"

/-- Lower case, one to many. -/
def lowerExpansions : List (Nat × List Char) := expansions (numerals "
8g 2x lj 0".toList none)

/-- Simple case folding from U+0080 on. -/
def foldStretches : Array Stretch := Stretch.decode "
51 0 1 172 a m 1 1s 1 6 1 1s x n 2 2 3 2 2 2 2 7 2 2 2 m 2 2 1 0 1 6p 0 2 2 2 1 0 1 ev 1 0 1 bo
0 1 2 2 1 0 1 bg 0 0 1 2 1 1 1 be 0 0 1 2 2 0 1 4e 0 0 1 b8 0 0 1 ba 0 0 1 2 1 0 1 be 0 0 1 bi 1
0 1 bq 0 0 1 bm 0 0 1 2 3 0 1 bq 0 0 1 bu 1 0 1 bw 0 2 2 2 1 0 1 c4 0 0 1 2 1 0 1 c4 2 0 1 2 1 0
1 c4 0 0 1 2 1 1 1 c2 0 1 2 2 1 0 1 c6 0 0 1 2 3 0 1 2 7 0 1 4 0 0 1 2 1 0 1 4 0 0 1 2 1 0 1 4 0
8 2 2 2 8 2 2 2 0 1 4 0 1 2 2 1 0 1 5d 0 0 1 33 0 j 2 2 1 0 1 77 1 8 2 2 7 0 1 gnq 0 0 1 2 1 0 1
91 0 0 1 gnk 2 0 1 2 1 0 1 at 0 0 1 3u 0 0 1 3y 0 4 2 2 6u 0 1 6g 16 1 2 2 3 0 1 2 8 0 1 6g 6 0
1 24 1 2 1 22 1 0 1 3k 1 1 1 3i 1 g 1 1s 1 8 1 1s m 0 1 2 c 0 1 g 0 0 1 1n 0 0 1 1d 3 0 1 t 0 0
1 17 1 b 2 2 1 0 1 2z 0 0 1 2n 2 0 1 3b 0 0 1 3j 1 0 1 2 1 0 1 d 0 0 1 2 2 2 1 77 0 f 1 4g 0 v 1
1s 1c g 2 2 9 q 2 2 1 0 1 u 0 6 2 2 2 1b 2 2 2 11 1 2o 289 11 1 b7k 1 0 1 b7k 5 0 1 b7k mi 5 1 f
1oi 0 1 9ln 0 0 1 9ll 0 0 1 9l3 0 1 1 9kz 0 0 1 9l1 0 0 1 9kn 0 0 1 9jb 0 0 1 1ifa 7 16 1 4n3 2
2 1 4n3 8w 22 2 2 6 0 1 37 2 0 1 br1 1 1b 2 2 9 7 1 f 8 5 1 f a 7 1 f 8 7 1 f 8 5 1 f b 3 2 f 8
7 1 f o 7 1 f 8 7 1 f 8 7 1 f 8 1 1 f 0 1 1 43 0 0 1 h 1 0 1 b2h 9 3 1 4r 0 0 1 h b 1 1 f 0 1 1
5j c 1 1 f 0 1 1 67 0 0 1 d b 1 1 73 0 1 1 6z 0 0 1 h 89 0 1 bll 3 0 1 cxp 0 0 1 cqz 6 0 1 1k 19
f 1 w j 0 1 2 mq p 1 1g 1f4 1b 1 2o 1c 0 1 2 1 0 1 gkt 0 0 1 5vv 0 0 1 gjx 2 2 2 2 1 0 1 gmv 0 0
1 gl5 0 0 1 gn1 0 0 1 gmz 1 0 1 2 2 0 1 2 8 1 1 got 0 1d 2 2 8 1 2 2 4 0 1 2 nyl m 2 2 j d 2 2
3r 6 2 2 3 u 2 2 a 1 2 2 1 0 1 1iiv 0 4 2 2 4 0 1 2 1 0 1 1t8v 2 1 2 2 3 9 2 2 1 0 1 1taf 0 0 1
1tb1 0 0 1 1tat 0 0 1 1ta9 0 0 1 1taf 1 0 1 1t7n 0 0 1 1t8z 0 0 1 1t7t 0 0 1 1fk 0 7 2 2 1 0 1
2n 0 0 1 1tad 0 0 1 1ilr 0 1 2 2 6 0 1 2 5 1 2 2 s 0 1 2 oq 27 1 1nz3 ggx p 1 1s xx 13 1 28 3s z
1 28 4c a 1 26 1 e 1 26 1 6 1 26 1 1 1 26 1d6 1e 1 3k 2ct v 1 1s gw0 v 1 1s o80 x 1 1w"

/-- The characters with the property Cased. -/
def casedRuns : Runs := .decode "
1t p 6 p 1b 0 a 0 4 0 5 m 1 u 1 5e 1 3 4 5r 1 z 7 1 u 4 2o 0 16 3 2 1 2 3 1 0 6 0 1 2 1 0 1 j 1
2a 1 3u 8 4l 1 11 9 14 26v 11 1 0 5 0 2 16 1 3 io 2d 2 5 1oi 8 7 16 2 2 1s 5b 1s 7p 2 5 2 11 2 5
2 7 1 0 1 0 1 0 1 u 2 1g 1 6 1 0 3 2 1 6 3 3 2 5 4 c 5 2 1 6 38 0 d 0 g c 2t 0 4 0 2 9 1 0 3 4 6
0 1 0 1 0 1 3 1 5 4 0 2 3 5 4 4 0 h v 3 1 mp 1f 1ee 6c 6 3 3 1 c 11 1 0 5 0 nwy 19 i t 3o 2t 3 3
1 1m 5 1 1 0 1 4 o 4 1 2 mt 16 1 d 6 27 fnk 6 c 4 sp p 6 p x1 27 2o z 4 z 38 a 1 e 1 6 1 1 1 a 1
e 1 6 1 1 cj 0 2 2 1 15 1 8 xx 1e d 1e 2b1 1r gv4 1r k1s 2c 1 1y 1 1 2 0 2 1 2 3 1 b 1 0 1 6 1
1s 1 3 2 7 1 6 1 r 1 3 1 4 1 0 3 6 1 9f 2 o 1 o 1 u 1 o 1 u 1 o 1 u 1 o 1 u 1 o 1 7 1f8 9 1 j 6
5 79 1p 1oy 1v 1kc p 6 p 6 p"

/-- The characters with the property Case_Ignorable. -/
def caseIgnorableRuns : Runs := .decode "
13 0 6 0 b 0 z 0 1 0 1z 0 4 0 1 0 4 0 2 1 dz 5b 4 1 4 0 9 1 1 0 6z 6 5r 0 5 0 1d 18 1 0 1 1 1 1
1 0 18 0 b 5 a a 1 0 z 0 a k g 0 2t 7 1 9 1 3 x 0 1 0 u q 2j a 1m a 4 0 2 0 o n 17 2 18 0 7 1 6
7 15 1l 1j 0 1 0 4 7 4 0 3 6 a 1 d 0 f 0 1m 0 4 3 8 0 k 1 q 0 2 1 1l 0 4 1 4 1 2 2 3 0 u 1 3 0 b
1 1l 0 4 4 1 1 4 0 k 1 m 5 1 0 1m 0 2 0 1 3 8 0 7 1 b 1 u 0 1p 0 c 0 1e 0 3 0 1j 0 1 2 5 2 1 3 7
1 b 1 t 0 1m 0 2 0 6 0 5 1 k 1 s 1 1l 1 4 3 8 0 k 1 t 0 20 0 7 2 1 0 2i 0 2 6 b 8 2q 0 2 8 9 0 1
6 21 1 r 0 1 0 1 0 1j d 1 4 1 1 5 a 1 z 9 0 2u 3 1 5 1 1 2 1 p 1 4 2 g 3 d 0 2 1 6 0 f 0 2m 0 gw
2 qa 2 t 1 u 1 u 1 1s 1 1 6 8 0 2 a 3 0 5 0 19 4 1f 0 1t 1 y 0 3a 2 4 1 9 0 6 2 63 1 2 0 1m 0 1
6 1 0 1 0 2 7 6 9 2 0 13 0 8 u 1d 3 1c 0 1 4 1 0 5 0 14 8 c 1 w 3 2 1 1 2 1k 0 1 1 3 0 1 2 1m 7
2 1 1s 5 2a 2 1 c 1 6 4 0 6 0 3 1 1e 1q d 0 y 2s cd 0 1 2 b 2 d 2 d 2 d 1 c 4 8 1 a 0 2 0 2 4 1d
4 1 9 1 0 d 0 g c 1f w 2a3 1 35 2 3h 0 f 0 2o v 1b 0 d1 0 10 3 3 4 5 0 2l 5 2l 2 lxy 0 yq 5 7i 0
2q 3 1 9 1 0 s 3 28 1 e x 26 0 n 2 2v 2 3 1 8 0 3 0 4 0 p 1 5 0 47 1 q h d 0 12 7 p a 1a 2 1c 0
2 3 2 1 h 0 l 1 1u 5 2 1 2 1 c 0 8 0 z 0 b 0 1f 0 1 2 2 1 5 1 1 0 r 0 e 1 5 1 1 0 2s 4 9 2 3d 0
2 0 4 0 fn4 0 43 g fx f 3 0 c f y 0 2 0 4p 0 7 0 6 0 b 0 z 0 1 0 1b 0 19 1 1v 0 l 2 e9 0 6a 0 45
4 sl 5 1 15 1 8 g6 2 1 1 5 3 14 2 4 0 4l 1 fx 3 ar 1 28 2 1y a 1d 3 3f 0 1i e 15 0 2 1 a 2 1d 3
2 1 2 0 4 0 a 0 1e 2 10 4 1 7 1q 0 c 1 1g 8 a 3 2 0 2n 2 2 0 1 1 6 0 2 0 4d 0 3 7 l 1 1l 1 3 0
11 6 3 4 5f 7 2 2 1 0 n 0 2c 5 1 0 4 1 1 1 6m 3 6 1 1 1 r 1 2d 7 2 0 1 1 2y 0 1 0 2 5 1 0 2t 2 2
3 1 4 77 8 1 1 74 1 1 0 4 0 40 3 2 1 4 0 w 9 14 5 2 3 8 0 9 5 2 2 1a c 1 1 ba 6 1 5 1 0 2a l 2 6
1 1 1 1 3e 5 3 0 1 1 1 6 1 0 20 1 3 0 1 0 9n 1 b 1 1g 4 5 0 1 0 44t g 6 e asa 4 1n 6 9 3 sr 0 1r
g 1s 1 1 1 cnf 3 1 6 1 1 2hq 1 1 3 3mk 19 2 m f4 2 9 f 2 6 u 3 44 2 1iz 1i 4 1d 8 0 e 0 m 4 1 e
11s 6 1 g 2 6 1 1 1 4 5 1p x 0 4g d a8 0 1p 3 e3 4 rk 6 31 7 23z 4 gx6p 0 u 2n 3k 6n"

/-- A mapping of one character: ASCII by rule, then the expansions, then the stretches. -/
def mapChar (ascii : Char → Char) (many : List (Nat × List Char)) (one : Array Stretch)
    (c : Char) : List Char :=
  if c.toNat < 0x80 then [ascii c]
  else match many.lookup c.toNat with
    | some cs => cs
    | none => match moveBy one c.toNat 0 one.size with
      | some n => [Char.ofNat n]
      | none => [c]

/-- Upper case of one character. -/
def upperChar (c : Char) : List Char :=
  mapChar Char.toUpper upperExpansions upperStretches c

/-- Lower case of one character, whatever stands around it. -/
def lowerChar (c : Char) : List Char :=
  mapChar Char.toLower lowerExpansions lowerStretches c

/-- Upper case of a text. -/
def upper (s : List Char) : List Char :=
  s.flatMap upperChar

/-- Past the case-ignorable characters, does a cased one come first? -/
def casedNext (s : List Char) : Bool :=
  match s.dropWhile caseIgnorableRuns.contains with
  | c :: _ => casedRuns.contains c
  | [] => false

/-- Lower case of a text whose characters before it, nearest first, are `before`. -/
def lowerAfter (before : List Char) : List Char → List Char
  | [] => []
  | c :: rest =>
    let mapped :=
      if c = 'Σ' then
        if casedNext before && !casedNext rest then ['ς'] else ['σ']
      else lowerChar c
    mapped ++ lowerAfter (c :: before) rest

/-- Lower case of a text. -/
def lower (s : List Char) : List Char :=
  lowerAfter [] s

/-- Where a stretch moves its characters, and the characters. -/
def Stretch.moves (s : Stretch) : List (Nat × Nat) :=
  (List.range (s.more + 1)).map fun i =>
    let n := s.first + i * s.step
    ((n + s.distance).toNat, n)

/-- The folding of ASCII: small letters, each with its capital one. -/
def asciiFolds : List (Nat × Nat) :=
  (List.range 26).map fun i => ('a'.toNat + i, 'A'.toNat + i)

/-- Simple case folding: what a character folds to, and the character.  Those that fold to
themselves are left out. -/
def folds : List (Nat × Nat) :=
  asciiFolds ++ foldStretches.toList.flatMap Stretch.moves

end ColumnTree.Text
