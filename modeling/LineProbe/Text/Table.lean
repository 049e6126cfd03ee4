/-!
# Tables of characters

The classes of characters outside ASCII that no rule gives.
-/

namespace LineProbe.Text

def rangesOfRuns (start : Nat) : List Nat → List (Nat × Nat)
  | outside :: inside :: runs =>
    (start + outside, start + outside + inside - 1) :: rangesOfRuns (start + outside + inside) runs
  | _ => []

/-! ## Digits, letters and numbers -/

def digitZeros : List Nat :=
  [0x30,0x660,0x6f0,0x7c0,0x966,0x9e6,0xa66,0xae6,0xb66,0xbe6,0xc66,0xce6,0xd66,0xde6,0xe50,0xed0,0xf20,0x1040,0x1090,
   0x17e0,0x1810,0x1946,0x19d0,0x1a80,0x1a90,0x1b50,0x1bb0,0x1c40,0x1c50,0xa620,0xa8d0,0xa900,0xa9d0,0xa9f0,0xaa50,
   0xabf0,0xff10,0x104a0,0x10d30,0x11066,0x110f0,0x11136,0x111d0,0x112f0,0x11450,0x114d0,0x11650,0x116c0,0x11730,
   0x118e0,0x11950,0x11c50,0x11d50,0x11da0,0x16a60,0x16ac0,0x16b50,0x1d7ce,0x1d7d8,0x1d7e2,0x1d7ec,0x1d7f6,0x1e140,
   0x1e2f0,0x1e950,0x1fbf0]

def wordRanges : List (Nat × Nat) :=
  rangesOfRuns 0x80
    [42,1,7,2,1,1,3,2,1,3,1,23,1,31,1,458,4,12,14,5,7,1,1,1,129,5,1,2,2,4,1,1,6,1,1,3,1,1,1,20,1,83,1,139,8,166,1,38,
     2,1,6,41,71,27,4,4,45,43,21,10,4,2,1,99,1,1,15,2,7,15,2,1,16,1,1,30,29,89,11,1,14,43,9,2,4,1,5,22,4,1,9,1,3,1,23,
     25,7,11,5,24,1,6,17,42,58,54,3,1,18,1,7,10,4,10,1,16,4,8,2,2,2,22,1,7,1,1,3,4,3,1,16,1,13,2,1,3,4,12,2,6,2,1,8,6,
     4,2,2,22,1,7,1,2,1,2,1,2,31,4,1,1,7,10,2,3,16,9,1,3,1,22,1,7,1,2,1,5,3,1,18,1,15,2,4,10,9,1,11,8,2,2,2,22,1,7,1,
     2,1,5,3,1,30,2,1,3,4,10,1,7,11,1,1,6,3,3,1,4,3,2,1,1,1,2,3,2,3,3,3,12,22,1,21,13,18,8,1,3,1,23,1,16,3,1,26,3,2,1,
     2,2,4,10,8,7,1,1,4,8,1,3,1,23,1,10,1,5,3,1,31,2,1,2,4,10,1,2,17,9,1,3,1,41,2,1,16,1,5,3,1,10,4,19,1,6,5,18,3,24,
     1,9,1,1,2,7,31,10,17,48,1,2,12,7,9,10,39,2,1,1,1,5,1,24,1,1,1,10,1,2,9,1,2,5,1,1,9,10,2,4,32,1,31,20,12,8,1,36,
     27,5,115,43,20,11,6,6,4,4,3,1,3,2,7,3,4,13,12,1,1,10,6,38,1,1,5,1,2,43,1,333,1,4,2,7,1,1,1,4,2,41,1,4,2,33,1,4,2,
     7,1,1,1,4,2,15,1,57,1,4,2,67,14,20,3,16,16,86,2,6,3,620,2,17,1,26,5,75,3,11,7,18,13,19,14,18,14,13,1,3,15,52,35,
     1,4,1,3,10,6,10,22,10,6,89,7,5,2,34,1,1,5,70,10,31,39,40,2,5,11,44,4,26,6,11,37,23,9,53,43,10,6,10,13,1,93,47,17,
     8,3,10,41,30,13,56,26,36,28,10,3,49,2,9,7,43,2,3,41,4,1,6,1,2,3,1,5,192,64,278,2,6,2,38,2,6,2,8,1,1,1,1,1,1,1,31,
     2,53,1,7,1,1,3,3,1,7,3,4,2,6,4,13,5,3,1,7,115,2,2,6,5,11,6,13,101,1,4,1,2,10,1,1,3,5,6,1,1,1,1,1,1,4,1,11,2,4,5,
     5,4,1,1,58,726,60,78,22,630,30,1132,229,6,4,3,2,9,1,2,38,1,1,5,1,2,56,7,1,16,23,9,7,1,7,1,7,1,7,1,7,1,7,1,7,1,7,
     80,1,469,3,25,9,7,5,2,5,4,86,6,3,1,90,1,4,5,43,1,94,3,4,10,32,48,16,32,10,30,8,1,15,32,10,39,15,320,6592,64,
     22157,67,46,2,269,3,28,20,47,16,31,2,80,39,9,2,103,2,64,5,2,1,1,1,5,24,16,1,3,1,4,1,23,13,6,10,52,14,50,28,10,24,
     6,3,1,1,2,1,38,10,23,25,29,7,47,28,11,6,5,1,25,1,41,23,3,1,8,4,10,6,23,3,1,3,50,1,1,3,2,2,5,2,1,1,1,24,3,2,11,7,
     3,12,6,2,6,2,6,9,7,1,7,1,43,1,14,6,115,13,10,6,11172,12,23,4,49,8452,366,2,106,38,7,12,5,5,1,1,10,1,13,1,5,1,1,1,
     2,1,2,1,108,33,363,18,64,2,54,40,12,116,5,1,135,19,10,7,26,6,26,11,89,3,6,2,6,2,6,2,3,35,12,1,26,1,19,1,2,1,15,2,
     14,34,123,12,45,12,57,17,2,244,29,3,49,16,27,4,36,9,30,5,38,10,30,2,36,4,8,1,5,42,158,2,10,6,36,4,36,4,40,8,52,
     12,11,1,15,1,7,1,2,1,11,1,15,1,7,1,2,67,311,9,22,10,8,24,6,1,42,1,9,69,6,2,1,1,44,1,2,3,1,2,23,2,31,2,38,8,9,48,
     19,1,2,5,33,4,26,70,56,4,20,2,47,15,4,1,3,1,29,10,9,23,31,1,32,32,8,1,28,6,5,16,54,10,22,2,27,5,26,23,7,80,73,55,
     51,13,51,7,42,12,10,294,31,1,42,6,2,78,40,8,22,11,4,27,18,46,28,20,23,12,53,26,30,1,2,2,1,13,45,32,25,7,10,9,36,
     15,10,4,1,2,1,8,35,3,1,12,48,14,4,11,11,1,1,4,20,11,18,1,25,84,7,1,1,1,4,1,15,1,10,7,47,17,10,11,8,2,2,2,22,1,7,
     1,2,1,5,3,1,18,1,12,5,158,53,18,4,5,10,5,3,30,48,20,2,1,1,8,10,166,47,41,4,36,48,20,1,11,10,38,43,13,1,7,10,54,
     27,21,12,4,7,185,44,116,83,12,8,2,1,2,8,1,2,1,24,15,1,1,1,14,10,70,8,2,39,16,1,1,1,28,1,10,40,7,1,21,1,11,46,19,
     1,18,73,263,9,1,37,17,1,15,29,5,30,112,7,1,2,1,38,21,1,9,10,6,6,1,2,1,32,14,1,7,10,310,19,189,1,15,21,43,922,102,
     111,17,196,2636,97,15,1071,4049,583,8633,569,7,31,1,10,6,79,1,10,6,30,18,48,16,4,12,10,1,7,1,21,5,19,688,87,105,
     75,5,1,66,13,64,2,1,1,28,6136,8,1238,42,9,8935,4,1,7,1,2,1,291,45,3,17,4,8,396,2308,107,5,13,3,9,7,10,5702,20,
     108,25,135,85,1,71,1,2,2,1,2,2,2,4,1,12,1,1,1,7,1,65,1,4,2,8,1,7,1,28,1,4,1,5,1,1,3,7,1,340,2,25,1,25,1,31,1,25,
     1,31,1,25,1,31,1,25,1,31,1,25,1,8,2,50,1792,31,481,45,10,7,2,10,4,1,321,30,18,44,4,10,1254,7,1,4,1,2,1,15,1,197,
     2,9,48,68,7,1,4,10,791,59,1,3,1,4,76,45,1,15,194,4,1,27,1,2,1,1,2,1,1,10,1,4,1,1,1,1,6,1,4,1,1,1,1,1,1,3,1,2,1,1,
     2,1,1,1,1,1,1,1,1,1,1,2,1,1,2,4,1,7,1,4,1,4,1,1,1,10,1,17,5,3,1,5,1,17,580,13,2787,10,1030,42720,32,4153,7,222,2,
     5762,14,7473,3103,542,1506,4939]

/-! ## Characters of identifiers

The properties XID_Start and XID_Continue: first those of Unicode 14, then what Unicode 15 to 16 added.
-/

def identifierStartChanges : List (Nat × Nat) :=
  rangesOfRuns 0x80
    [50,2,5,1,2,3,699,1,741,10,134,10,198,10,412,10,118,10,4,6,108,10,118,10,118,10,2,6,110,13,115,10,8,7,103,10,104,
     7,7,19,109,10,67,1,28,10,89,1,28,10,70,20,268,10,70,10,719,20,1123,10,6,10,22,10,107,2,191,10,128,11,165,10,6,10,
     182,10,86,10,134,10,6,10,1046,1,3,6,6,10,142,1,21,1,33,16,41,1,726,60,78,22,630,30,1385,1,305,1,866,4,138,10,30,
     8,1,15,32,10,39,15,29536,10,518,6,154,10,38,10,198,10,22,10,86,10,406,10,20580,6,406,2,116,1,1,1,1,1,1,1,1,1,1,1,
     1,1,1,1,145,10,132,2,359,45,65,4,17,2,341,27,36,4,380,10,942,8,25,7,39,9,75,5,22,6,160,2,2,16,2,46,64,9,52,2,30,
     3,75,5,104,8,24,8,41,7,330,6,48,10,294,31,158,10,42,4,112,7,134,30,128,10,60,10,144,10,7,20,251,10,342,10,118,10,
     374,10,102,10,102,12,420,19,93,10,758,29,227,10,70,10,534,21,19083,10,86,10,134,10,1,7,798,23,25673,20,108,25,
     1109,50,2368,10,422,10,1485,9,128,10,791,59,1,3,1,4,76,45,1,15,962,13,2787,10]

def identifierRestChanges : List (Nat × Nat) :=
  rangesOfRuns 0x80
    [55,1,584,112,23,1,251,5,265,45,1,1,1,2,1,2,1,1,72,11,48,31,6,1,101,7,2,6,2,2,1,4,2,10,23,1,30,27,91,11,15,10,33,
     9,9,1,24,4,1,9,1,3,1,5,43,3,60,8,42,24,1,33,54,3,1,18,1,7,10,2,2,10,17,3,56,1,1,7,2,2,2,3,9,1,10,2,2,10,14,1,2,3,
     56,1,1,5,4,2,2,3,3,1,20,12,3,1,11,3,56,1,1,8,1,3,1,3,20,2,2,10,10,6,1,3,56,1,1,7,2,2,2,3,7,3,10,2,2,10,18,1,59,5,
     3,3,1,4,9,1,14,10,16,5,55,1,1,7,1,3,1,4,7,2,11,2,2,10,17,3,56,1,1,7,1,3,1,4,7,2,11,2,2,10,16,4,55,2,1,7,1,3,1,4,
     9,1,10,2,2,10,17,3,70,1,4,6,1,1,1,8,6,10,2,2,61,1,1,8,12,8,1,10,87,1,1,10,11,6,2,10,62,2,6,10,11,1,1,1,1,1,4,2,
     49,20,1,2,5,11,1,36,9,1,100,20,1,10,12,4,4,3,1,3,2,7,3,4,13,12,1,15,703,3,9,9,928,4,28,3,29,2,30,2,64,32,9,1,2,
     10,33,3,1,11,143,1,118,12,4,12,10,10,128,11,60,5,57,10,1,29,2,11,6,10,22,14,1,16,49,5,47,17,11,10,17,9,12,3,30,
     13,2,10,44,14,48,20,8,10,6,10,118,3,1,21,4,1,6,1,2,3,198,64,575,2,19,1,123,13,4,1,3,12,3070,3,141,1,96,32,554,6,
     105,2,30085,10,69,1,4,10,32,2,80,2,272,1,3,1,4,1,23,5,4,1,83,2,50,18,10,10,6,18,13,11,28,8,25,13,44,4,47,14,15,
     10,11,1,10,10,47,14,12,1,8,2,2,10,33,3,50,1,1,3,2,2,5,2,1,1,41,5,5,2,236,8,1,2,2,10,20260,1,737,16,16,16,3,2,24,
     3,192,10,37,1,94,2,605,1,226,1,149,5,293,10,1367,3,1,2,5,4,40,3,4,1,165,2,573,4,8,10,369,2,153,11,49,4,122,3,53,
     15,31,11,2,2,10,4,45,11,7,1,45,10,6,3,36,14,1,10,5,2,44,1,12,3,48,14,8,4,1,12,82,12,6,1,160,12,5,10,6,4,55,2,1,7,
     2,2,2,3,9,1,10,2,2,7,3,5,192,18,9,10,4,1,81,20,12,10,213,7,2,9,27,2,82,17,15,10,81,13,8,10,83,15,4,10,242,15,165,
     10,70,6,1,2,2,4,1,1,1,2,12,10,119,7,2,7,3,1,28,10,40,7,1,4,8,1,9,11,46,16,405,8,1,8,16,10,56,22,1,14,122,6,3,1,1,
     2,1,7,1,1,8,10,48,5,1,2,1,5,8,10,329,4,19305,10,86,10,38,5,59,7,25,10,1013,1,1,55,7,4,81,1,11,2,19627,2,4705,46,
     2,23,542,5,3,6,8,8,2,7,30,4,148,3,1417,50,512,55,4,50,8,1,14,1,22,5,1,15,1360,7,1,17,2,7,1,2,1,5,261,7,9,10,356,
     1,61,14,1494,7,109,7,5,10,4758,10,787718,240]

def laterIdentifierStartRanges : List (Nat × Nat) :=
  rangesOfRuns 0x80
    [7177,2,35648,3,12,3,24035,52,1878,28,9,23,316,3,890,2,319,10,1,1,2,1,1,38,1,1,25,1,1,1,2028,33,801,1,1,13,1,34,
     5371,1,17,6,25,3995,7429,30,3106,45,8082,1,9266,1,34,1,11727,6,261,62,1122,28,228,30,2,1,53576,1,13494,622,9458,
     4192]

def laterIdentifierRestRanges : List (Nat × Nat) :=
  rangesOfRuns 0x80
    [2071,1,1115,1,474,1,3514,2,897,2,4333,1,30415,3,12,3,22408,1,1626,52,1868,38,3,5,1,23,316,3,55,4,831,3,318,10,1,
     1,2,1,1,38,1,10,1,1,2,1,1,4,1,8,13,2,749,20,1244,33,15,10,774,17,1,41,3,5,13,11,5332,1,16,22,10,3995,7429,58,
     3078,45,3,10,8069,1,9266,1,34,1,7066,10,4651,6,261,62,33,1,1088,42,214,43,53566,1,13494,622,9458,4192]

/-! ## Characters without a printed form -/

def identifierOrHiddenRanges : List (Nat × Nat) :=
  rangesOfRuns 0x80
    [0,33,9,1,2,1,7,1,1,1,2,1,5,23,1,31,1,458,4,12,14,5,7,1,1,1,17,117,1,4,1,3,1,5,2,112,1,139,1,5,2,208,6,41,2,2,3,
     46,1,1,1,2,1,2,1,44,2,17,10,11,1,1,3,74,4,102,1,9,1,10,1,19,2,1,14,232,4,4,2,48,15,31,1,41,1,219,2,10,1,129,10,1,
     1,120,1,121,2,126,1,1,6,120,11,124,9,4,1,202,1,8,7,17,10,122,1,74,1,15,1,10,2,165,23,2,6,10,11,1,1,1,1,1,4,71,1,
     56,8,1,6,1,13,111,6,78,2,91,1,612,9,9,11,19,10,102,1,620,2,44,2,78,3,71,2,157,3,1,4,20,10,6,11,309,1,3,2,152,34,
     30,2,128,7,1,6,16,1,155,17,9,11,125,4,59,5,62,2,64,8,11,1,745,1,1,3,11,3,13,3,13,3,13,2,17,24,8,15,2,19,1,10,17,
     1,3,11,1,15,17,33,28,4,1,3,27,2,1,4,1,2,10,1,1,2,6,6,1,1,1,1,1,1,16,2,4,5,5,4,1,17,41,3,4,663,25,11,21,1812,2,32,
     1,105,229,6,14,7,112,1,143,94,34,26,1,89,12,214,26,12,5,4,3,25,15,1,5,2,5,3,91,2,3,1,90,1,148,16,32,36,28,31,1,
     480,6592,64,22160,55,55,2,269,3,96,4,10,1,115,6,8,23,9,2,103,2,157,4,4,10,58,4,86,2,40,3,1,1,49,2,47,1,97,13,16,
     2,124,4,23,3,100,2,16,2,105,1,14,2,127,1,11284,2048,6953,1,136,17,155,6,218,18,127,1,42,6,16,10,22,3,2,24,3,3,1,
     19,1,4,4,1,1,1,1,1,1,1,1,1,1,1,1,1,1,1,130,15,10,7,26,4,1,1,26,11,122,7,1,7,13,2,258,3,4,45,3,9,53,26,1,13,3,1,
     47,45,228,27,36,4,123,1,48,1,414,1,743,9,23,9,39,9,75,5,22,6,3,1,31,1,124,2,2,16,2,46,64,9,7,9,36,3,29,3,40,1,34,
     12,66,7,24,8,24,8,25,4,12,7,330,6,352,31,46,1,111,10,42,9,44,4,59,7,123,7,4,20,85,2,1,4,126,4,48,2,79,4,4,1,13,1,
     1,3,1,20,67,6,107,1,417,5,10,2,1,1,104,1,250,23,105,3,28,13,76,1,128,6,251,1,174,9,81,3,155,1,92,8,83,3,1,5,414,
     5,20,19,3,2,645,2,199,50,13,1,1136,5,2940,2,14971,2,133,1,65,9,4,2,21,7,798,27,327,1,19641,1,2,1,4784,116,60,246,
     10,39,2,60,5,3,22,2,7,30,4,61,21,66,3,1,154,20,12,87,9,25,840,1,25,1,31,1,25,1,31,1,25,1,31,1,25,1,31,1,25,1,60,
     512,55,4,50,8,1,14,1,7,1731,1,431,1,1479,9,142,2,785,68,76,61,434,2,270,44,4,100,12,15,2,15,1,15,1,37,10,174,56,
     29,13,44,4,9,7,2,14,6,154,984,5,16,3,13,3,116,12,89,7,12,4,1,15,12,4,56,8,10,6,40,8,30,2,2,78,340,12,14,2,5,3,5,
     3,7,9,29,3,11,5,6,10,10,6,8,8,7,9,147,1,55,984117]

end LineProbe.Text
