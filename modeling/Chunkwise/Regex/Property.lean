import Chunkwise.Text.Age
import Chunkwise.Text.Segment

/-! Sets of characters by the name of a property: a general category, a script, a
trait, or a property with a value. -/

namespace Chunkwise.Regex.Property

/-- Names are compared without regard to case, blanks, dashes, underscores and a
leading `is`. -/
def key (name : List Char) : String :=
  let (lead, rest) := match name with
    | i :: s :: rest => if i.toLower = 'i' && s.toLower = 's' then (true, rest) else (false, name)
    | _ => (false, name)
  let kept := rest.filter fun c => c.toNat < 128 && c != ' ' && c != '_' && c != '-'
  let key := String.ofList (kept.map Char.toLower)
  if lead && key == "c" then "isc" else key

/-- The names of the general categories and of their groups. -/
def categories : List (List String × (Text.Category → Bool)) :=
  [(["c", "other"], Text.Category.isOther),
   (["cc", "control", "cntrl"], (· == .control)),
   (["cf", "format"], (· == .format)),
   (["cn", "unassigned"], (· == .unassigned)),
   (["co", "privateuse"], (· == .privateUse)),
   (["l", "letter"], Text.Category.isLetter),
   (["lc", "casedletter"],
    fun k => k == .uppercaseLetter || k == .lowercaseLetter || k == .titlecaseLetter),
   (["ll", "lowercaseletter"], (· == .lowercaseLetter)),
   (["lm", "modifierletter"], (· == .modifierLetter)),
   (["lo", "otherletter"], (· == .otherLetter)),
   (["lt", "titlecaseletter"], (· == .titlecaseLetter)),
   (["lu", "uppercaseletter"], (· == .uppercaseLetter)),
   (["m", "mark", "combiningmark"], Text.Category.isMark),
   (["mc", "spacingmark"], (· == .spacingMark)),
   (["me", "enclosingmark"], (· == .enclosingMark)),
   (["mn", "nonspacingmark"], (· == .nonspacingMark)),
   (["n", "number"], Text.Category.isNumber),
   (["nd", "decimalnumber", "digit"], (· == .decimalNumber)),
   (["nl", "letternumber"], (· == .letterNumber)),
   (["no", "othernumber"], (· == .otherNumber)),
   (["p", "punctuation", "punct"], Text.Category.isPunctuation),
   (["pc", "connectorpunctuation"], (· == .connector)),
   (["pd", "dashpunctuation"], (· == .dash)),
   (["pe", "closepunctuation"], (· == .closingPunctuation)),
   (["pf", "finalpunctuation"], (· == .finalQuote)),
   (["pi", "initialpunctuation"], (· == .initialQuote)),
   (["po", "otherpunctuation"], (· == .otherPunctuation)),
   (["ps", "openpunctuation"], (· == .openingPunctuation)),
   (["s", "symbol"], Text.Category.isSymbol),
   (["sc", "currencysymbol"], (· == .currencySymbol)),
   (["sk", "modifiersymbol"], (· == .modifierSymbol)),
   (["sm", "mathsymbol"], (· == .mathSymbol)),
   (["so", "othersymbol"], (· == .otherSymbol)),
   (["z", "separator"], Text.Category.isSeparator),
   (["zl", "lineseparator"], (· == .lineSeparator)),
   (["zp", "paragraphseparator"], (· == .paragraphSeparator)),
   (["zs", "spaceseparator"], (· == .space))]

/-- The characters of a general category. -/
def category? (name : String) : Option Text.Intervals :=
  match name with
  | "any" => some (.compl [])
  | "ascii" => some [(0x0, 0x7f)]
  | "assigned" => some (Text.Category.first (· != .unassigned))
  | _ => (categories.find? (name ∈ ·.1)).map fun (_, p) => Text.Category.first p

def script? (name : String) : Option String := Text.Script.code? (key ·.toList) name

/-- The characters that a name alone stands for: those with a trait, of a category
or of a script. Three names of categories would name something else, too. -/
def named? (name : String) : Option Text.Intervals :=
  (if name ∈ ["cf", "sc", "lc"] then none else Text.trait? name)
    <|> category? name
    <|> (script? name).map Text.Script.members

/-- The characters whose property of this name has this value. -/
def valued? (name value : String) : Option Text.Intervals :=
  match name with
  | "gc" => category? value
  | "generalcategory" => category? value
  | "sc" => (script? value).map Text.Script.members
  | "script" => (script? value).map Text.Script.members
  | "scx" => (script? value).map Text.Script.users
  | "scriptextensions" => (script? value).map Text.Script.users
  | "age" => Text.Age.knownTo? value
  | "gcb" => Text.Segment.part? Text.Segment.inCluster value
  | "graphemeclusterbreak" => Text.Segment.part? Text.Segment.inCluster value
  | "wb" => Text.Segment.part? Text.Segment.inWord value
  | "wordbreak" => Text.Segment.part? Text.Segment.inWord value
  | "sb" => Text.Segment.part? Text.Segment.inSentence value
  | "sentencebreak" => Text.Segment.part? Text.Segment.inSentence value
  | _ => none

/-- The text before the first `mark`, and the text behind it. -/
def splitAt? (mark : List Char) : List Char → Option (List Char × List Char)
  | [] => none
  | c :: rest =>
    if mark.isPrefixOf (c :: rest) then some ([], (c :: rest).drop mark.length)
    else (splitAt? mark rest).map fun (before, after) => (c :: before, after)

/-- The characters that the text of a property stands for. A value may be marked as
unequal, which does not change them. -/
def read? (text : List Char) : Option Text.Intervals :=
  match splitAt? ['!', '='] text <|> splitAt? [':'] text <|> splitAt? ['='] text with
  | some (name, value) => valued? (key name) (key value)
  | none => named? (key text)

end Chunkwise.Regex.Property
