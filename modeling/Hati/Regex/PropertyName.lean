import Hati.Text.Segment

namespace Hati
namespace Regex

/-!
# Names of properties

A pattern can demand a property of a character by its name.  Categories, scripts
and traits can be named alone; other properties are given as a name and a value.
Every property comes down to a set of characters.
-/

namespace PropertyName

/-- Names are compared without regard to case, spaces, hyphens, underscores and
characters outside ASCII, and an `is` in front does not count.  The one name that
would lose its meaning with it keeps it. -/
def normalize (name : List Char) : String :=
  let (isMarked, bare) :=
    match name with
    | a :: b :: rest => if a.toLower == 'i' && b.toLower == 's' then (true, rest) else (false, name)
    | _ => (false, name)
  let kept := bare.filter fun c => c != ' ' && c != '_' && c != '-' && c.toNat < 0x80
  let normal := String.ofList (kept.map Char.toLower)
  if isMarked && normal == "c" then "isc" else normal

def trait? : String → Option CharSet
  | "asciihexdigit" | "ahex" => some Trait.asciiHexDigit
  | "alphabetic" | "alpha" => some Trait.alphabetic
  | "bidicontrol" | "bidic" => some Trait.bidiControl
  | "caseignorable" | "ci" => some Trait.caseIgnorable
  | "cased" => some Trait.cased
  | "changeswhencasefolded" | "cwcf" => some Trait.changesInFolding
  | "changeswhencasemapped" | "cwcm" => some Trait.changesInCase
  | "changeswhenlowercased" | "cwl" => some Trait.changesInLower
  | "changeswhentitlecased" | "cwt" => some Trait.changesInTitle
  | "changeswhenuppercased" | "cwu" => some Trait.changesInUpper
  | "dash" => some Trait.dash
  | "defaultignorablecodepoint" | "di" => some Trait.defaultIgnorable
  | "deprecated" | "dep" => some Trait.deprecated
  | "diacritic" | "dia" => some Trait.diacritic
  | "emoji" => some Trait.emoji
  | "emojicomponent" | "ecomp" => some Trait.emojiComponent
  | "emojimodifier" | "emod" => some Trait.emojiModifier
  | "emojimodifierbase" | "ebase" => some Trait.emojiModifierBase
  | "emojipresentation" | "epres" => some Trait.emojiPresentation
  | "extendedpictographic" | "extpict" => some Trait.extendedPictographic
  | "extender" | "ext" => some Trait.extender
  | "graphemebase" | "grbase" => some Trait.graphemeBase
  | "graphemeextend" | "grext" => some Trait.graphemeExtend
  | "graphemelink" | "grlink" => some Trait.graphemeLink
  | "hexdigit" | "hex" => some Trait.hexDigit
  | "hyphen" => some Trait.hyphen
  | "idsbinaryoperator" | "idsb" => some Trait.idsBinaryOperator
  | "idstrinaryoperator" | "idst" => some Trait.idsTrinaryOperator
  | "idsunaryoperator" | "idsu" => some Trait.idsUnaryOperator
  | "idcompatmathcontinue" => some Trait.compatMathContinue
  | "idcompatmathstart" => some Trait.compatMathStart
  | "idcontinue" | "idc" => some Trait.idContinue
  | "idstart" | "ids" => some Trait.idStart
  | "ideographic" | "ideo" => some Trait.ideographic
  | "joincontrol" | "joinc" => some Trait.joinControl
  | "logicalorderexception" | "loe" => some Trait.logicalOrderException
  | "lowercase" | "lower" => some Trait.lowercase
  | "math" => some Trait.math
  | "modifiercombiningmark" | "mcm" => some Trait.modifierCombiningMark
  | "noncharactercodepoint" | "nchar" => some Trait.noncharacter
  | "otheralphabetic" | "oalpha" => some (Trait.otherAlphabetic.difference Age.recent)
  | "otherdefaultignorablecodepoint" | "odi" => some Trait.otherDefaultIgnorable
  | "othergraphemeextend" | "ogrext" => some Trait.otherGraphemeExtend
  | "otheridcontinue" | "oidc" => some Trait.otherIdContinue
  | "otheridstart" | "oids" => some Trait.otherIdStart
  | "otherlowercase" | "olower" => some Trait.otherLowercase
  | "othermath" | "omath" => some Trait.otherMath
  | "otheruppercase" | "oupper" => some Trait.otherUppercase
  | "patternsyntax" | "patsyn" => some Trait.patternSyntax
  | "patternwhitespace" | "patws" => some Trait.patternBlank
  | "prependedconcatenationmark" | "pcm" => some Trait.prependedMark
  | "quotationmark" | "qmark" => some Trait.quotationMark
  | "radical" => some Trait.radical
  | "regionalindicator" | "ri" => some Trait.regionalIndicator
  | "sentenceterminal" | "sterm" => some Trait.sentenceTerminal
  | "softdotted" | "sd" => some Trait.softDotted
  | "terminalpunctuation" | "term" => some Trait.terminalPunctuation
  | "unifiedideograph" | "uideo" => some Trait.unifiedIdeograph
  | "uppercase" | "upper" => some Trait.uppercase
  | "variationselector" | "vs" => some Trait.variationSelector
  | "whitespace" | "wspace" | "space" => some Trait.blank
  | "xidcontinue" | "xidc" => some Trait.closedIdContinue
  | "xidstart" | "xids" => some Trait.closedIdStart
  | _ => none

/-- A category by its name or its letters. -/
def categoryOf? : String → Option Category
  | "lu" | "uppercaseletter" => some .uppercaseLetter
  | "ll" | "lowercaseletter" => some .lowercaseLetter
  | "lt" | "titlecaseletter" => some .titlecaseLetter
  | "lm" | "modifierletter" => some .modifierLetter
  | "lo" | "otherletter" => some .otherLetter
  | "mn" | "nonspacingmark" => some .nonspacingMark
  | "mc" | "spacingmark" => some .spacingMark
  | "me" | "enclosingmark" => some .enclosingMark
  | "nd" | "decimalnumber" | "digit" => some .decimalNumber
  | "nl" | "letternumber" => some .letterNumber
  | "no" | "othernumber" => some .otherNumber
  | "pc" | "connectorpunctuation" => some .connectorPunctuation
  | "pd" | "dashpunctuation" => some .dashPunctuation
  | "ps" | "openpunctuation" => some .openPunctuation
  | "pe" | "closepunctuation" => some .closePunctuation
  | "pi" | "initialpunctuation" => some .initialPunctuation
  | "pf" | "finalpunctuation" => some .finalPunctuation
  | "po" | "otherpunctuation" => some .otherPunctuation
  | "sm" | "mathsymbol" => some .mathSymbol
  | "sc" | "currencysymbol" => some .currencySymbol
  | "sk" | "modifiersymbol" => some .modifierSymbol
  | "so" | "othersymbol" => some .otherSymbol
  | "zs" | "spaceseparator" => some .spaceSeparator
  | "zl" | "lineseparator" => some .lineSeparator
  | "zp" | "paragraphseparator" => some .paragraphSeparator
  | "cc" | "control" | "cntrl" => some .control
  | "cf" | "format" => some .format
  | "co" | "privateuse" => some .privateUse
  | "cn" | "unassigned" => some .unassigned
  | _ => none

/-- A category or a group of categories. -/
def category? : String → Option CharSet
  | "any" => some .all
  | "ascii" => some (.range '\x00' '\x7f')
  | "assigned" => some (Trait.ofCategory .unassigned).complement
  | "l" | "letter" => some Trait.letter
  | "lc" | "casedletter" => some (Trait.ofCategories fun
    | .uppercaseLetter | .lowercaseLetter | .titlecaseLetter => true
    | _ => false)
  | "m" | "mark" | "combiningmark" => some Trait.mark
  | "n" | "number" => some (Trait.ofCategories Category.isNumber)
  | "p" | "punctuation" | "punct" => some (Trait.ofCategories Category.isPunctuation)
  | "s" | "symbol" => some (Trait.ofCategories Category.isSymbol)
  | "z" | "separator" => some (Trait.ofCategories Category.isSeparator)
  | "c" | "other" => some (Trait.ofCategories Category.isOther)
  | name => (categoryOf? name).map Trait.ofCategory

def script? (name : String) : Option CharSet :=
  (Script.ofName? name).map Script.set

/-- The characters of an edition, named by its version: `6.1` or `v61`. -/
def edition? (name : String) : Option CharSet :=
  let isNamed := fun (version : String) =>
    name == version || name == String.ofList ('v' :: version.toList.filter (· != '.'))
  (Age.editions.find? fun (version, _) => isNamed version).map fun (_, letter) => Age.set letter

def segment? (classes : Segment.Classes) (name : String) : Option CharSet :=
  (classes.find? fun (names, _) => names.contains name).map Prod.snd

end PropertyName

/-- The characters of a property that is named alone. -/
def property? (name : List Char) : Option CharSet :=
  let name := PropertyName.normalize name
  (PropertyName.trait? name).orElse fun _ =>
    (PropertyName.category? name).orElse fun _ => PropertyName.script? name

/-- The characters of a property that is given as a name and a value. -/
def propertyValue? (name value : List Char) : Option CharSet :=
  let value := PropertyName.normalize value
  match PropertyName.normalize name with
  | "gc" | "generalcategory" => PropertyName.category? value
  | "sc" | "script" => PropertyName.script? value
  | "scx" | "scriptextensions" => (Script.ofName? value).map Script.users
  | "age" => PropertyName.edition? value
  | "gcb" | "graphemeclusterbreak" => PropertyName.segment? Segment.graphemes value
  | "wb" | "wordbreak" => PropertyName.segment? Segment.words value
  | "sb" | "sentencebreak" => PropertyName.segment? Segment.sentences value
  | _ => none

end Regex
end Hati
