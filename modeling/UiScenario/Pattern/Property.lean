import UiScenario.Pattern.CharSet
import UiScenario.Text.Alphabetic
import UiScenario.Text.Blank
import UiScenario.Text.Category
import UiScenario.Text.LetterCase
import UiScenario.Text.Lowercase
import UiScenario.Text.Property
import UiScenario.Text.WritingSystem

/-!
Named sets of characters: general categories, writing systems and other properties. Names are loose:
case, spaces, hyphens and underscores do not count, and neither does `is` in front.
-/

namespace UiScenario.Pattern

def looseName (name : String) : String :=
  let kept := (name.toList.filter fun c =>
    c.toNat < 128 && c != ' ' && c != '_' && c != '-').map Char.toLower
  match kept with
  | ['i', 's', 'c'] => "isc"
  | 'i' :: 's' :: rest => String.ofList rest
  | _ => String.ofList kept

/-- The general categories under each name; the names of groups stand for all their members. -/
def categoryNames : List (List String × List String) := [
  (["l", "letter"], ["Lu", "Ll", "Lt", "Lm", "Lo"]),
  (["lc", "casedletter"], ["Lu", "Ll", "Lt"]),
  (["lu", "uppercaseletter"], ["Lu"]), (["ll", "lowercaseletter"], ["Ll"]),
  (["lt", "titlecaseletter"], ["Lt"]), (["lm", "modifierletter"], ["Lm"]),
  (["lo", "otherletter"], ["Lo"]),
  (["m", "mark", "combiningmark"], ["Mn", "Mc", "Me"]),
  (["mn", "nonspacingmark"], ["Mn"]), (["mc", "spacingmark"], ["Mc"]),
  (["me", "enclosingmark"], ["Me"]),
  (["n", "number"], ["Nd", "Nl", "No"]),
  (["nd", "decimalnumber", "digit"], ["Nd"]), (["nl", "letternumber"], ["Nl"]),
  (["no", "othernumber"], ["No"]),
  (["p", "punctuation", "punct"], ["Pc", "Pd", "Ps", "Pe", "Pi", "Pf", "Po"]),
  (["pc", "connectorpunctuation"], ["Pc"]), (["pd", "dashpunctuation"], ["Pd"]),
  (["ps", "openpunctuation"], ["Ps"]), (["pe", "closepunctuation"], ["Pe"]),
  (["pi", "initialpunctuation"], ["Pi"]), (["pf", "finalpunctuation"], ["Pf"]),
  (["po", "otherpunctuation"], ["Po"]),
  (["s", "symbol"], ["Sm", "Sc", "Sk", "So"]),
  (["sm", "mathsymbol"], ["Sm"]), (["sc", "currencysymbol"], ["Sc"]),
  (["sk", "modifiersymbol"], ["Sk"]), (["so", "othersymbol"], ["So"]),
  (["z", "separator"], ["Zs", "Zl", "Zp"]),
  (["zs", "spaceseparator"], ["Zs"]), (["zl", "lineseparator"], ["Zl"]),
  (["zp", "paragraphseparator"], ["Zp"]),
  (["cc", "control", "cntrl"], ["Cc"]), (["cf", "format"], ["Cf"]),
  (["co", "privateuse"], ["Co"])]

/-- The characters of the given general categories. -/
def ofCategories (names : List String) : CharSet :=
  (Text.categories.filter fun (name, _) => names.contains name).foldl
    (fun s (_, table) => s.union (.ofTable table)) .empty

def assigned : CharSet :=
  ofCategories (Text.categories.map (·.1))

/-- The general category with the given loose name. -/
def category? (name : String) : Option CharSet :=
  match name with
  | "any" => some .all
  | "ascii" => some (.ofTable [(0, 0x7f)])
  | "assigned" => some assigned
  | "cn" | "unassigned" => some assigned.negate
  | "cs" | "surrogate" => some .empty
  | "c" | "other" => some ((ofCategories ["Cc", "Cf", "Co"]).union assigned.negate)
  | _ => (categoryNames.find? fun (names, _) => names.contains name).map fun (_, found) =>
      ofCategories found

def property? (name : String) : Option CharSet :=
  match name with
  | "alphabetic" | "alpha" => some ⟨759, Text.isAlphabetic⟩
  | "uppercase" | "upper" => some ⟨650, Text.isUppercase⟩
  | "lowercase" | "lower" => some ⟨670, Text.isLowercase⟩
  | "whitespace" | "wspace" | "space" => some (.ofTable Text.blankRanges)
  | "emoji" => some (.ofTable Text.emojiRanges)
  | "extendedpictographic" | "extpict" => some (.ofTable Text.extendedPictographicRanges)
  | "ideographic" | "ideo" => some (.ofTable Text.ideographicRanges)
  | "math" => some (.ofTable Text.mathRanges)
  | "dash" => some (.ofTable Text.dashRanges)
  | "diacritic" | "dia" => some (.ofTable Text.diacriticRanges)
  | "graphemeextend" | "grext" => some ⟨383, Text.isClusterExtender⟩
  | "cased" => some ⟨150, Text.isCased⟩
  | "caseignorable" | "ci" => some ⟨464, Text.isCaseIgnorable⟩
  | "asciihexdigit" | "ahex" => some (.ofTable [(0x30, 0x39), (0x41, 0x46), (0x61, 0x66)])
  | "hexdigit" | "hex" =>
    some (.ofTable [(0x30, 0x39), (0x41, 0x46), (0x61, 0x66), (0xff10, 0xff19), (0xff21, 0xff26),
      (0xff41, 0xff46)])
  | "joincontrol" | "joinc" => some (.ofTable [(0x200c, 0x200d)])
  | _ => none

def namedSet? (name : String) : Option CharSet :=
  let name := looseName name
  let ambiguous := name == "cf" || name == "sc" || name == "lc"
  (if ambiguous then none else property? name) <|> category? name <|>
    (Text.writingSystem? name).map .ofTable

/-- The set of characters for which a property has a value. -/
def valuedSet? (property value : String) : Option CharSet :=
  let value := looseName value
  match looseName property with
  | "gc" | "generalcategory" => category? value
  | "sc" | "script" | "scx" | "scriptextensions" => (Text.writingSystem? value).map .ofTable
  | _ => none

/-- The sets of ASCII characters that have a name inside brackets. -/
def asciiSet? (name : String) : Option CharSet :=
  (asciiTables.lookup name).map .ofTable
where
  asciiTables : List (String × List (Nat × Nat)) := [
    ("alnum", [(0x30, 0x39), (0x41, 0x5a), (0x61, 0x7a)]),
    ("alpha", [(0x41, 0x5a), (0x61, 0x7a)]), ("ascii", [(0, 0x7f)]),
    ("blank", [(0x09, 0x09), (0x20, 0x20)]), ("cntrl", [(0, 0x1f), (0x7f, 0x7f)]),
    ("digit", [(0x30, 0x39)]), ("graph", [(0x21, 0x7e)]), ("lower", [(0x61, 0x7a)]),
    ("print", [(0x20, 0x7e)]),
    ("punct", [(0x21, 0x2f), (0x3a, 0x40), (0x5b, 0x60), (0x7b, 0x7e)]),
    ("space", [(0x09, 0x0d), (0x20, 0x20)]), ("upper", [(0x41, 0x5a)]),
    ("word", [(0x30, 0x39), (0x41, 0x5a), (0x5f, 0x5f), (0x61, 0x7a)]),
    ("xdigit", [(0x30, 0x39), (0x41, 0x46), (0x61, 0x66)])]

end UiScenario.Pattern
