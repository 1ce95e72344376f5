import Hati.Text.Runs

namespace Hati

/-!
# The general category of a character

Unicode gives every code point one of thirty categories.  The table lists the
runs of equal category, each with a letter for the category.
-/

inductive Category where
  | uppercaseLetter | lowercaseLetter | titlecaseLetter
  | modifierLetter | otherLetter | nonspacingMark
  | spacingMark | enclosingMark | decimalNumber
  | letterNumber | otherNumber | connectorPunctuation
  | dashPunctuation | openPunctuation | closePunctuation
  | initialPunctuation | finalPunctuation | otherPunctuation
  | mathSymbol | currencySymbol | modifierSymbol
  | otherSymbol | spaceSeparator | lineSeparator
  | paragraphSeparator | control | format
  | surrogate | privateUse | unassigned
deriving DecidableEq, Repr

namespace Category

/-- The letter that stands for a category in the table. -/
def ofLetter : Char → Category
  | 'U' => uppercaseLetter
  | 'L' => lowercaseLetter
  | 'T' => titlecaseLetter
  | 'M' => modifierLetter
  | 'O' => otherLetter
  | 'n' => nonspacingMark
  | 'c' => spacingMark
  | 'e' => enclosingMark
  | 'd' => decimalNumber
  | 'l' => letterNumber
  | 'o' => otherNumber
  | '_' => connectorPunctuation
  | '-' => dashPunctuation
  | '(' => openPunctuation
  | ')' => closePunctuation
  | '<' => initialPunctuation
  | '>' => finalPunctuation
  | '!' => otherPunctuation
  | '+' => mathSymbol
  | '$' => currencySymbol
  | '^' => modifierSymbol
  | '*' => otherSymbol
  | 'Z' => spaceSeparator
  | '/' => lineSeparator
  | '|' => paragraphSeparator
  | 'C' => control
  | 'F' => format
  | 'S' => surrogate
  | 'P' => privateUse
  | _ => unassigned

/-- The runs of equal category, in order of code points. -/
def runText : List String := [
  "C32Z!3$!3()!+!-!2d10!2+3!2U26(!)^_^L26(+)+C33Z!$4*!^*O<+F*^*+o2^L!2^oO>o3!U23+U7L24+L8ULULUL",
  "ULULULULULULULULULULULULULULULULULULULULULULULULUL2ULULULULULULULUL2ULULULULULULULULULULULUL",
  "ULULULULULULULULULULULU2LULUL3U2LULU2LU3L2U4LU2LU3L3U2LU2LULULU2LUL2ULU2LU3LULU2L2OUL3O4UTLU",
  "TLUTLULULULULULULULUL2ULULULULULULULULUL2UTLULU3LULULULULULULULULULULULULULULULULULULULULULU",
  "LULULULULULULUL7U2LU2L2ULU4LULULULUL69O2L26M18^4M12^14M5^7M^M^17n112ULULM^UL?2ML3!U?4^2U!U3?",
  "U?U2LU17?U9L35UL2U3L3ULULULULULULULULULULULUL5UL+ULU2L2U51L48ULULULULULULULULULULULULULULULU",
  "LUL*n5e2ULULULULULULULULULULULULULULULULULULULULULULULULULULULU2LULULULULULUL2ULULULULULULUL",
  "ULULULULULULULULULULULULULULULULULULULULULULULULULULULULULULULULULULULULULULULULUL?U38?2M!6",
  "L41!-?2*2$?n45-n!n2!n2!n?8O27?4O4!2?11F6+3!2$!2*2n11!F!3O32MO10n21d10!4O2nO99!On7F*n6M2n2*n4",
  "O2d10O3*2O!14?FOnO30n27?2O89n11O?14d10O33n9M2*!3M?2n$2O22n4Mn9Mn3Mn5?2!15?O25n3?2!?O11?5O24^",
  "O7F2?5n9O41Mn24Fn32cO54ncnOc3n8c4nc2On7O10n2!2d10!MO15nc2?O8?2O2?2O22?O7?O?3O4?2nOc3n4?2c2?2",
  "c2nO?8c?4O2?O3n2?2d10O2$2o6*$O!n?2n2c?O6?4O2?2O22?O7?O2?O2?O2?2n?c3n2?4n2?2n3?3n?7O4?O?7d10",
  "n2O3n!?10n2c?O9?O3?O22?O7?O2?O5?2nOc3n5?n2c?c2n?2O?15O2n2?2d10!$?7On6?nc2?O8?2O2?2O22?O7?O2?",
  "O5?2nOcncn4?2c2?2c2n?7n2c?4O2?O3n2?2d10*Oo6?10nO?O6?3O3?O4?3O2?O?O2?3O2?3O3?3O12?4c2nc2?3c3?",
  "c3n?2O?6c?14d10o3*6$*?5nc3nO8?O3?O23?O16?2nOn3c4?n3?n4?7n2?O3?O2?2O2n2?2d10?7!o7*Onc2!O8?O3?",
  "O23?O10?O5?2nOcnc5?nc2?c2n2?7c2?5O3?O2n2?2d10?O2c?12n2c2O9?O3?O41n2Oc3n4?c3?c3nO*?4O3co7O3n2",
  "?2d10o9*O6?nc2?O18?3O24?O9?O?2O7?3n?4c3n3?n?c8?6d10?2c2!?12O48nO2n7?4$O6Mn8!d10!2?37O2?O?O5?",
  "O24?O?O10nO2n9O?2O5?M?n7?d10?2O4?32O*3!15*!*3n2*6d10o10*n*n*n()()c2O8?O36?4n14cn5!n2O5n11?",
  "n36?*8n*6?*2!5*4!2?37O43c2n4cn6cn2c2n2Od10!6O6c2n2O4n3Oc3O2c7O3n4O13nc2n2c6nOcd10c3n*2U38?U",
  "?5U?2L43!ML3O329?O4?2O7?O?O4?2O41?O4?2O33?O4?2O7?O?O4?2O15?O57?O4?2O67?2n3!9o20?3O16*10?6U86",
  "?2L6?2-O620*!O17ZO26()?3O75!3l3O8?7O18n3c?9O19n2c!2?9O18n2?12O13?O3?n2?12O52n2cn7c8nc2n11!3M",
  "!3$On?2d10?6o10?6!6-!4n3Fnd10?6O35MO53?7O5n2O34nO?5O70?10O31?n3c4n2c3?4c2nc6n3?4*?3!2d10O30",
  "?2O5?11O44?4O26?6d10o?3*34O23n2c2n?2!2O53cncn7?ncnc2n8c6n10?2nd10?6d10?6!7M!6?2n14en31?2n12",
  "?20n4cO47ncn5cnc5nc2O8?!2d10!7*10n9*9!3n2cO30cn4c2n2cn3O2d10O44ncn2c3ncn3c2?8!4O36c8n8c2n2?3",
  "!5d10?3O3d10O30M6!2L9UL?5U43?2U3!8?8n3!n13cn7O4nO6nO2cn2O?5L44M63L13ML34M37n64ULULULULULULUL",
  "ULULULULULULULULULULULULULULULULULULULULULULULULULULULULULULULULULULULULULULULULULULULULULUL",
  "ULULULULULULULULULULULULULULULULULULULULULUL9ULULULULULULULULULULULULULULULULULULULULULULULU",
  "LULULULULULULULULULULULULULULULULULULULULULULULULUL9U8L6?2U6?2L8U8L8U8L6?2U6?2L8?U?U?U?UL8U8",
  "L14?2L8T8L8T8L8T8L5?L2U4T^L^3L3?L2U4T^3L4?2L2U4?^3L8U5^3?2L3?L2U4T^2?Z11F5-6!2<>(<2>(<!8/|F5",
  "Z!9<>!4_2!3+()!11+!_!10ZF5?F10oM?2o6+3()Mo10+3()?M13?3$34?14n13e4ne3n12?15*2U*4U*2LU3L2U3L*U",
  "*2+U5*6U*U*U*U4*LU4LO4L*2L2U2+5UL4*+*2L*o16l35ULl4o*2?4+5*5+2*4+*2+*2+*7+*31+2*2+*+*31+268*8",
  "()()*20+2*7()*81+*30+25*40+6*72?22*11?21o60*78o22*183+*9+*54+8*111+*248()()()()()()()o30*44",
  "+5()+31()()()()()+16*256+131()()()()()()()()()()()+63()()+32()+258*48+21*2+6*39?2*138U48L48U",
  "LU3L2ULULULU4LUL2UL6M2U3LULULULULULULULULULULULULULULULULULULULULULULULULULULULULULULULULULU",
  "LULULULULULULULULULULULULULULUL2*6ULULn3UL?5!4o!2L38?L?5L?2O56?7M!?14nO23?9O7?O7?O7?O7?O7?O7",
  "?O7?O7?n32!2<><>!3<>!<>!9-!2-!<>!2<>()()()()!5M!10-2!4-!(!13*2!3()()()()-?34*26?*89?12*214",
  "?26*16Z!3*MOl()()()()()*2()()()()-()2*l9n4c2-M5*2l3MO!*2?O86?2n2^2M2O-O90!M3O?5O43?O94?*2o4",
  "*10O32*38?9*O16*31?o10*30o8*o15*32o10*39o15*320O6592*64O21013MO1143?3*55?9O40M6!2O268M!3O16",
  "d10O2?20ULULULULULULULULULULULULULULULULULULULULULULULOne3!n10!MULULULULULULULULULULULULULUL",
  "M2n2O70l10n2!6?8^23M9^2ULULULULULULUL3ULULULULULULULULULULULULULULULULULULULULULULULULULULUL",
  "ULULULULML8ULULU2LULULULULM^2ULULOULUL3ULULULULULULULULULULU5LU5LULULULULULULULU4LULU2LULULU",
  "LULULULULU?20M4ULOM2LO7nO3nO4nO23c2n2c*4n?3o6*2$*?6O52!4?8c2O50c16n2?8!2d10?6n18O6!3O!O2nd10",
  "O28n8!2O23n11c2?11!O29?3n3cO47nc2n4c2n2c3!13?Md10?4!2O5nMO9d10O5?O41n6c2n2c2n2?9O3nO8nc?2d10",
  "?2!4O16MO6*3OcncO50nOn3O2n2O5n2OnO?24O2M!2O11cn2c2!2OM2cn?10O6?2O6?2O6?9O7?O7?L43^M4L9M^2?4",
  "L80O35c2nc2nc2!cn?2d10?6O11172?12O23?4O49?4S2048P6400O366?2O106?38L7?12L5?5OnO10+O13?O5?O?O2",
  "?O2?O108^17*16O363)(*16O64*2O54*8?32O12$*3n16!7()!?6n16!-2_2()()()()()()()()!2()!4_3!3?!4-()",
  "()()!3+-+3?!$!2?4O5?O135?2F?!3$!3()!+!-!2d10!2+3!2U26(!)^_^L26(+)+()!()!2O10MO45M2O31?3O6?2",
  "O6?2O6?2O3?3$2+^*$2?*+4*2?10F3*2?2O12?O26?O19?O2?O15?2O14?34O123?5!3?4o45?3*9l53o4*17o2*3?",
  "*13?3*?47*45n?130O29?3O49?15no27?4O32o4?9O20lO8l?5O38n5?5O30?!O36?4O8!l5?42U40L40O78?2d10?6",
  "U36?4L36?4O40?8O52?11!U11?U15?U7?U2?L11?L15?L7?L2?3O52?12O311?9O22?10O8?24M6?M42?M9?69O6?2O?",
  "O44?O2?3O?2O23?!o8O23*2o7O31?8o9?48O19?O2?5o5O22o6?3!O26?5!O26?38O56?4o2O2o16?2o46On3?n2?5n4",
  "O4?O3?O29?2n3?4no9?7!9?7O29o2!O29o3?32O8*O28n2?4o5!7?9O54?3!7O22?2o8O19?5o8O18?7!4?12o7?80",
  "O73?55U51?13L51?7o6O36n4?8d10?6d10O4MOU22?3n5-ML22?8+2?208o31?O42?n2-?2O2?16O3MO2?8!*8?33n6",
  "O29o10O?8O22n11o4!5?22O18n4!4?38O21o7?20O23?9cncO53n15!7?4o20d10nO2n2O?9n3cO45c3n4c2n2!2F!4n",
  "?10F?2O25?7d10?6n3O36n5cn8?d10!4Oc2O?8O35n!2O?9n2cO48c3n9c2O4!4n4!cnd10O!O!3?o20?11O18?O25c3",
  "n3c2ncn2!6nO2n?62O7?O?O4?O15?O10!?6O47nc3n8?5d10?6n2c2?O8?2O2?2O22?O7?O2?O5?n2Oc2nc4?2c2?2c3",
  "?2O?6c?5O5c2?2n7?3n5?11O10?O?2O?O38?Oc3n6?c?2c?c4?c2ncnOnO!2?!2?8n2?29O53c3n8c2n3cnO4!5d10!2",
  "?!nO3?30O48c3n6cnc4n2cn2O2!O?8d10?166O47c3n4?2c4n2cn2!23O4n2?34O48c3n8c2ncn2!3O?11d10?6!13",
  "?19O43ncnc2n6cnO!?6d10?6d20?28O27?2ncnc2n4cn5?4d10o2!3*O7?185O44c3n9cn2!?100U32L32d10o9?12O8",
  "?2O?2O8?O2?O24c6?c2?2n2cnOcOcn!3?9d10?70O8?2O39c3n4?2n2c4nO!Oc?27On10O40n6cOn4!8n?8On6c2n3",
  "O46n13cn2!3O!5?13O73?7!10?86ncn3cnc?88O33!?14d10?6O9?O37cn7?n6cnO!5?10d10o19?3!2O30?2n22?cn7",
  "cn2cn2?73O7?O2?O38n6?3n?n2?n7On?8d10?6O6?O2?O32c5?n2?c2ncnO?7d10?6O41MO2?4d10?246O19n2c2!2?7",
  "n2OcO13?O34c2n5?3c2ncn!13d10n?85O?15o21*8$4*17?13!O922?102l111?!5?11O196?2636O97!2?13O1072",
  "F16nO6n15?10O3995?5O583?6841O30n12c3n3d10?1734O569?7O31?d10?4!2O79?d10?6O30?2n5!?10O48n7!5*4",
  "M4!*?10d10?o7?O21?5O19?432M3O40M2!3d10?198U32L32o23!4?5U25?2L25?44O75?4nOc55?7n4M13?64M2!Mn",
  "?11c2M2l3?9O7382?41O32?97O115?8701M4?M7?M2?O291?15O?29O3?2O?14O4?8O396?2308O107?5O13?3O9?7",
  "O10?2*n2!F4?3932*240d10*3?3*436?6*23?15*16+?15n46?2n23?9*116?60*246?10*39?2*60c2n3*3c6F8n8*2",
  "n7*30n4*61?21*66n3*?122o20?12o20?12*87?9o25?135U26L26U26L7?L18U26L26U?U2?2U?2U2?2U4?U8L4?L?",
  "L7?L11U26L26U2?U4?2U8?U7?L26U2?U4?U5?U?3U7?L26U26L26U26L26U26L26U26L26U26L26U26L28?2U25+L25+",
  "L6U25+L25+L6U25+L25+L6U25+L25+L6U25+L25+L6UL?2d50*512n55*4n50*8n*14n*2!5?15n5?n15?1104L10O",
  "L20?6L6?213n7?n17?2n7?n2?n5?5M62?33n?112O45?3n7M7?2d10?4O*?320O30n?17O44n4d10?5$?464O27Mn4",
  "d10?214O30n2Od10?4!?192O31?O3nO2nO7n2O5n?8OM?224O7?O4?O2?O15?O197?2o9n7?41U34L34n7M?4d10?4!2",
  "?785o59*o3$o4?76o45*o15?194O4?O27?O2?O?2O?O10?O4?O?O?6O?4O?O?O?O3?O2?O?2O?O?O?O?O?O2?O?2O4?",
  "O7?O4?O4?O?O10?O17?5O3?O5?O17?52+2?270*44?4*100?12*15?2*15?*15?*37?10o13*161?56*29?13*44?4*9",
  "?7*2?14*6?154*251^5*729?3*17?3*13?3*218?6*12?4*?15*12?4*56?8*10?6*40?8*30?2*12?4*2?14+9?39",
  "*344?8*14?2*13?3*11?3*57?*?4*16?2*12?4*10?7*147?*92d10*?1029O42720?32O4382?2O5774?2O7473?15",
  "O622?2466O542?1506O4939?5O8490?707463F?30F96?128n240?65040P65534?2P65534?2"]

def runs : List (Category × Nat) :=
  (Runs.read runText).map fun (letter, length) => (ofLetter letter, length)

/-- The category of the run that holds the given position. -/
def atPosition : List (Category × Nat) → Nat → Category
  | [], _ => unassigned
  | (category, length) :: rest, position =>
    if position < length then category else atPosition rest (position - length)

def ofChar (c : Char) : Category :=
  atPosition runs c.toNat

/-- The characters of the wanted categories. -/
def set (wanted : Category → Bool) : CharSet :=
  Runs.set wanted runs

def isLetter : Category → Bool
  | uppercaseLetter | lowercaseLetter | titlecaseLetter | modifierLetter | otherLetter => true
  | _ => false

def isMark : Category → Bool
  | nonspacingMark | spacingMark | enclosingMark => true
  | _ => false

def isNumber : Category → Bool
  | decimalNumber | letterNumber | otherNumber => true
  | _ => false

def isPunctuation : Category → Bool
  | connectorPunctuation | dashPunctuation | openPunctuation | closePunctuation
  | initialPunctuation | finalPunctuation | otherPunctuation => true
  | _ => false

def isSymbol : Category → Bool
  | mathSymbol | currencySymbol | modifierSymbol | otherSymbol => true
  | _ => false

def isSeparator : Category → Bool
  | spaceSeparator | lineSeparator | paragraphSeparator => true
  | _ => false

def isOther : Category → Bool
  | control | format | surrogate | privateUse | unassigned => true
  | _ => false

end Category

end Hati
