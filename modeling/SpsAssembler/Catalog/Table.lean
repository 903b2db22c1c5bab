import SpsAssembler.Catalog.Basic

/-!
# The catalog

Every mnemonic of the language with its description, one list for each family. The numeric
operation codes are mnemonics of their own.

* `controls`, `declaratives`, `instructions`, `numericCodes`, `catalog`;
* `Descriptor.find?`: the description of a mnemonic.
-/

namespace SpsAssembler

open Descriptor

/-- The control operations. -/
def controls : List Descriptor :=
  [control "DEND" .dend 1 .address,
   control "DORG" .dorg 1 .address,
   control "HEAD" .head 1 .control,
   control "SEND" .send 0 .control,
   control "TCD" .tcd 1 .address,
   control "TRA" .tra 0 .control]

/-- The declarative operations. -/
def declaratives : List Descriptor :=
  [declare "DAC" .dac 3 .data,
   declare "DAS" .das 2 .reserve1,
   declare "DC" .dc 3 .data,
   declare "DDA" .dda 5 .data,
   declare "DGM" .dgm 1 .data,
   declare "DNB" .dnb 2 .data,
   (declare "DOT" .dot 2 .data).onModel2,
   declare "DS" .ds 2 .reserve1,
   declare "DSA" .dsa 10 .data,
   declare "DSAC" .dsac 3 .data,
   declare "DSB" .dsb 3 .reserve2,
   declare "DSC" .dsc 3 .data,
   declare "DSS" .dss 2 .reserve1,
   declare "DVLC" .dvlc 41 .data]

/-- The instructions by name. -/
def instructions : List Descriptor :=
  [instr "A" 21 .reference .reference,
   instr "AM" 11 .reference .immediate,
   (instr "ANDF" 93 .reference .reference).onModel2,
   instr "B" 49 .referenceEven .value,
   (instr "B7" 49 .referenceEven .none).withShape .short7,
   instrQ "BA" 46 .referenceEven 1900,
   (instrQ "BANS" 47 .referenceEven 3100).onModel2,
   instr "BB" 42 .value .value,
   (instr "BB2" 42 .none .none).withShape .short2,
   (instrQ "BBAS" 46 .referenceEven 3100).onModel2,
   (instrQ "BBBS" 46 .referenceEven 3200).onModel2,
   (instrQ "BBNS" 47 .referenceEven 3200).onModel2,
   ((instr "BBT" 90 .referenceEven .referenceBit).withOperands 4).onModel2,
   instrQ "BC1" 46 .referenceEven 100,
   instrQ "BC2" 46 .referenceEven 200,
   instrQ "BC3" 46 .referenceEven 300,
   instrQ "BC4" 46 .referenceEven 400,
   instrQ "BCH9" 46 .referenceEven 3300,
   instrQ "BCOV" 46 .referenceEven 3400,
   (instr "BCX" 63 .referenceEven .reference).onModel2,
   (instr "BCXM" 64 .referenceEven .immediateIndex).onModel2,
   instr "BD" 43 .referenceEven .reference,
   instrQ "BE" 46 .referenceEven 1200,
   (instrQ "BEBS" 47 .referenceEven 3000).onModel2,
   instrQ "BH" 46 .referenceEven 1100,
   instr "BI" 46 .referenceEven .value,
   (instrQ "BKTY" 34 .value 103).onModel2,
   instrQ "BL" 47 .referenceEven 1300,
   instrQ "BLC" 46 .referenceEven 900,
   (instr "BLX" 65 .referenceEven .reference).onModel2,
   (instr "BLXM" 66 .referenceEven .immediateIndex).onModel2,
   ((instr "BMK" 91 .referenceEven .referenceBit).withOperands 4).onModel2,
   instrQ "BN" 47 .referenceEven 1300,
   instrQ "BNA" 47 .referenceEven 1900,
   (instrQ "BNBS" 46 .referenceEven 3000).onModel2,
   instrQ "BNC1" 47 .referenceEven 100,
   instrQ "BNC2" 47 .referenceEven 200,
   instrQ "BNC3" 47 .referenceEven 300,
   instrQ "BNC4" 47 .referenceEven 400,
   instrQ "BNE" 47 .referenceEven 1200,
   instr "BNF" 44 .referenceEven .reference,
   instr "BNG" 55 .referenceEven .reference,
   instrQ "BNH" 47 .referenceEven 1100,
   instr "BNI" 47 .referenceEven .value,
   instrQ "BNL" 46 .referenceEven 1300,
   instrQ "BNLC" 47 .referenceEven 900,
   instrQ "BNN" 46 .referenceEven 1300,
   instrQ "BNP" 47 .referenceEven 1100,
   instr "BNR" 45 .referenceEven .reference,
   instrQ "BNV" 47 .referenceEven 1400,
   instrQ "BNXV" 47 .referenceEven 1500,
   instrQ "BNZ" 47 .referenceEven 1200,
   instrQ "BP" 46 .referenceEven 1100,
   (instr "BS" 60 .reference .value).onModel2,
   (instrQ "BSBA" 60 .reference 1).onModel2,
   (instrQ "BSBB" 60 .reference 2).onModel2,
   (instrQ "BSIA" 60 .reference 9).onModel2,
   (instrQ "BSNI" 60 .reference 8).onModel2,
   (instr "BSNX" 60 .reference .value).onModel2,
   (instr "BSX" 67 .referenceEven .reference).onModel2,
   instr "BT" 27 .referenceEven .reference,
   (instr "BTA" 20 .referenceEven .reference).onModel2,
   (instr "BTAM" 10 .referenceEven .immediate).onModel2,
   instr "BTFL" 7 .referenceEven .reference,
   instr "BTM" 17 .referenceEven .immediate,
   instrQ "BV" 46 .referenceEven 1400,
   (instr "BX" 61 .referenceEven .reference).onModel2,
   (instr "BXM" 62 .referenceEven .immediateIndex).onModel2,
   instrQ "BXV" 46 .referenceEven 1500,
   instrQ "BZ" 46 .referenceEven 1200,
   instr "C" 24 .reference .reference,
   instrQ "CDGN" 36 .referenceEven 701,
   instrQ "CDN" 36 .referenceEven 703,
   instr "CF" 33 .reference .value,
   instr "CM" 14 .reference .immediate,
   (instr "CPLF" 94 .reference .reference).onModel2,
   instrQ "CTGN" 36 .referenceEven 705,
   instrQ "CTN" 36 .referenceEven 707,
   instr "D" 29 .reference .reference,
   instr "DM" 19 .reference .immediate,
   instr "DN" 35 .reference .value,
   instrQ "DNCD" 35 .reference 400,
   instrQ "DNPT" 35 .reference 200,
   instrQ "DNTY" 35 .reference 100,
   (instr "DTO" 97 .reference .reference).onModel2,
   (instr "EORF" 95 .reference .reference).onModel2,
   instr "FADD" 1 .reference .reference,
   instr "FDIV" 9 .reference .reference,
   instr "FMUL" 3 .reference .reference,
   instr "FSL" 5 .reference .reference,
   instr "FSR" 8 .reference .reference,
   instr "FSUB" 2 .reference .reference,
   instr "H" 48 .value .value,
   (instrQ "IXTY" 34 .value 104).onModel2,
   instr "K" 34 .value .value,
   instr "LD" 28 .reference .reference,
   instr "LDM" 18 .reference .immediate,
   instr "M" 23 .reference .reference,
   (instr "MA" 70 .reference .reference).onModel2,
   instr "MF" 71 .reference .reference,
   instr "MM" 13 .reference .immediate,
   instr "NOP" 41 .value .value,
   (instr "ORF" 92 .reference .reference).onModel2,
   (instr "OTD" 96 .reference .reference).onModel2,
   instrQ "PRA" 39 .referenceOdd 900,
   instrQ "PRAS" 39 .referenceOdd 901,
   instrQ "PRD" 35 .reference 900,
   instrQ "PRDS" 35 .reference 901,
   instrQ "PRN" 38 .reference 900,
   instrQ "PRNS" 38 .reference 901,
   instr "RA" 37 .referenceOdd .value,
   instrQ "RACD" 37 .referenceOdd 500,
   instrQ "RAPT" 37 .referenceOdd 300,
   instrQ "RATY" 37 .referenceOdd 100,
   (instrQ "RBPT" 37 .referenceOdd 3300).onModel2,
   instrQ "RCTY" 34 .value 102,
   instrQ "RDGN" 36 .referenceEven 700,
   instrQ "RDN" 36 .referenceEven 702,
   instr "RN" 36 .reference .value,
   instrQ "RNCD" 36 .reference 500,
   instrQ "RNPT" 36 .reference 300,
   instrQ "RNTY" 36 .reference 100,
   instrQ "RTGN" 36 .referenceEven 704,
   instrQ "RTN" 36 .referenceEven 706,
   instr "S" 22 .reference .reference,
   instr "SF" 32 .reference .reference,
   instrQ "SK" 34 .value 701,
   instr "SKIP" 34 .value .skip,
   instr "SKAP" 34 .value .skipAfter,
   instr "SM" 12 .reference .immediate,
   instr "SPAP" 34 .value .spaceAfter,
   instr "SPIM" 34 .value .space,
   instrQ "SPTY" 34 .value 101,
   instrQ "TBTY" 34 .value 108,
   instr "TD" 25 .reference .reference,
   instr "TDM" 15 .reference .value,
   instr "TF" 26 .reference .reference,
   instr "TFL" 6 .reference .reference,
   instr "TFM" 16 .reference .immediate,
   instr "TNF" 73 .referenceOdd .reference,
   instr "TNS" 72 .referenceOdd .reference,
   instr "TR" 31 .reference .reference,
   (instr "TRNM" 30 .reference .reference).onModel2,
   instr "WA" 39 .referenceOdd .value,
   instrQ "WACD" 39 .referenceOdd 400,
   instrQ "WAPT" 39 .referenceOdd 200,
   instrQ "WATY" 39 .referenceOdd 100,
   (instrQ "WBPT" 39 .referenceOdd 3200).onModel2,
   instrQ "WDGN" 38 .referenceEven 700,
   instrQ "WDN" 38 .referenceEven 702,
   instr "WN" 38 .reference .value,
   instrQ "WNCD" 38 .reference 400,
   instrQ "WNPT" 38 .reference 200,
   instrQ "WNTY" 38 .reference 100,
   instrQ "WTGN" 38 .referenceEven 704,
   instrQ "WTN" 38 .referenceEven 706]

/-- The instructions by their two digit operation codes. -/
def numericCodes : List Descriptor :=
  [instr "01" 1 .reference .reference,
   instr "02" 2 .reference .reference,
   instr "03" 3 .reference .reference,
   instr "05" 5 .reference .reference,
   instr "06" 6 .reference .reference,
   instr "07" 7 .referenceEven .reference,
   instr "08" 8 .reference .reference,
   instr "09" 9 .reference .reference,
   instr "10" 10 .referenceEven .immediate,
   instr "11" 11 .reference .immediate,
   instr "12" 12 .reference .immediate,
   instr "13" 13 .reference .immediate,
   instr "14" 14 .reference .immediate,
   instr "15" 15 .reference .value,
   instr "16" 16 .reference .immediate,
   instr "17" 17 .referenceEven .immediate,
   instr "18" 18 .reference .immediate,
   instr "19" 19 .reference .immediate,
   instr "20" 20 .referenceEven .reference,
   instr "21" 21 .reference .reference,
   instr "22" 22 .reference .reference,
   instr "23" 23 .reference .reference,
   instr "24" 24 .reference .reference,
   instr "25" 25 .reference .reference,
   instr "26" 26 .reference .reference,
   instr "27" 27 .referenceEven .reference,
   instr "28" 28 .reference .reference,
   instr "29" 29 .reference .reference,
   (instr "30" 30 .reference .reference).onModel2,
   instr "31" 31 .reference .reference,
   instr "32" 32 .reference .reference,
   instr "33" 33 .reference .value,
   instr "34" 34 .value .value,
   instr "35" 35 .reference .value,
   instr "36" 36 .reference .value,
   instr "37" 37 .referenceOdd .value,
   instr "38" 38 .reference .value,
   instr "39" 39 .referenceOdd .value,
   instr "41" 41 .value .value,
   instr "42" 42 .value .value,
   instr "43" 43 .referenceEven .reference,
   instr "44" 44 .referenceEven .reference,
   instr "45" 45 .referenceEven .reference,
   instr "46" 46 .referenceEven .value,
   instr "47" 47 .referenceEven .value,
   instr "48" 48 .value .value,
   instr "49" 49 .referenceEven .value,
   instr "55" 55 .referenceEven .reference,
   (instr "60" 60 .reference .value).onModel2,
   (instr "61" 61 .referenceEven .reference).onModel2,
   (instr "62" 62 .referenceEven .immediateIndex).onModel2,
   (instr "63" 63 .referenceEven .reference).onModel2,
   (instr "64" 64 .referenceEven .immediateIndex).onModel2,
   (instr "65" 65 .referenceEven .reference).onModel2,
   (instr "66" 66 .referenceEven .immediateIndex).onModel2,
   (instr "67" 67 .referenceEven .reference).onModel2,
   (instr "70" 70 .reference .reference).onModel2,
   instr "71" 71 .reference .reference,
   instr "72" 72 .referenceOdd .reference,
   instr "73" 73 .referenceOdd .reference,
   ((instr "90" 90 .referenceEven .referenceBit).withOperands 4).onModel2,
   ((instr "91" 91 .referenceEven .referenceBit).withOperands 4).onModel2,
   (instr "92" 92 .reference .reference).onModel2,
   (instr "93" 93 .reference .reference).onModel2,
   (instr "94" 94 .reference .reference).onModel2,
   (instr "95" 95 .reference .reference).onModel2,
   (instr "96" 96 .reference .reference).onModel2,
   (instrQ "97" 97 .reference 100).onModel2]

/-- All mnemonics. -/
def catalog : List Descriptor := controls ++ declaratives ++ instructions ++ numericCodes

/-- The description of a mnemonic. -/
def Descriptor.find? (mnemonic : Text) : Option Descriptor :=
  catalog.find? fun d => d.mnemonic == mnemonic

end SpsAssembler
