/-!
The keywords of scripts. A keyword is recognised in any mixture of small and capital ASCII letters.
-/

namespace UiScenario

inductive Keyword where
  -- declarations
  | page | pageActions | feature | scenario | field | use | before | after | each | all
  -- kinds of variables and of query results
  | text | number | flag | list | data
  -- actions
  | open_ | navigate | click | fill | hover | check | uncheck | select | scroll | up | down | press
  | drag | upload | wait | seconds | milliseconds | refresh | clear | take | screenshot | log
  | switch | new | tab | close | frame | main | accept | dismiss | dialog | cookies | storage
  | perform
  -- checks
  | verify | is | not | visible | hidden | enabled | disabled | checked | empty | focused | has
  | contains | value | attribute_ | count | url | title | matches_
  -- control flow
  | if_ | else_ | repeat_ | times | for_ | in_
  -- queries
  | load | row | rows | where_ | and | or | order | by_ | asc | desc | limit | offset | sum
  | average | min | max | distinct | starts | ends
  -- connectives and flags
  | with_ | from_ | to_ | as | true_ | false_
deriving DecidableEq

namespace Keyword

/-- All keywords with their spelling, which is also their name in listings of tokens. -/
def spellings : List (String × Keyword) := [
  ("Page", page), ("PageActions", pageActions), ("Feature", feature), ("Scenario", scenario),
  ("Field", field), ("Use", use), ("Before", before), ("After", after), ("Each", each),
  ("All", all),
  ("Text", text), ("Number", number), ("Flag", flag), ("List", list), ("Data", data),
  ("Open", open_), ("Navigate", navigate), ("Click", click), ("Fill", fill), ("Hover", hover),
  ("Check", check), ("Uncheck", uncheck), ("Select", select), ("Scroll", scroll), ("Up", up),
  ("Down", down), ("Press", press), ("Drag", drag), ("Upload", upload), ("Wait", wait),
  ("Seconds", seconds), ("Milliseconds", milliseconds), ("Refresh", refresh), ("Clear", clear),
  ("Take", take), ("Screenshot", screenshot), ("Log", log), ("Switch", switch), ("New", new),
  ("Tab", tab), ("Close", close), ("Frame", frame), ("Main", main), ("Accept", accept),
  ("Dismiss", dismiss), ("Dialog", dialog), ("Cookies", cookies), ("Storage", storage),
  ("Perform", perform), ("Verify", verify), ("Is", is), ("Not", not), ("Visible", visible),
  ("Hidden", hidden), ("Enabled", enabled), ("Disabled", disabled), ("Checked", checked),
  ("Empty", empty), ("Focused", focused), ("Has", has), ("Contains", contains), ("Value", value),
  ("Attribute", attribute_), ("Count", count), ("Url", url), ("Title", title),
  ("Matches", matches_),
  ("If", if_), ("Else", else_), ("Repeat", repeat_), ("Times", times), ("For", for_), ("In", in_),
  ("Load", load), ("Row", row), ("Rows", rows), ("Where", where_), ("And", and), ("Or", or),
  ("Order", order), ("By", by_), ("Asc", asc), ("Desc", desc), ("Limit", limit), ("Offset", offset),
  ("Sum", sum), ("Average", average), ("Min", min), ("Max", max), ("Distinct", distinct),
  ("Starts", starts), ("Ends", ends), ("With", with_), ("From", from_), ("To", to_), ("As", as),
  ("True", true_), ("False", false_)]

/-- Further spellings of keywords. -/
def otherSpellings : List (String × Keyword) :=
  [("Second", seconds), ("Millisecond", milliseconds)]

/-- The letters of a word, the ASCII letters among them as capitals. -/
def capitals (word : String) : List Char :=
  word.toList.map Char.toUpper

/-- The keyword that a word spells, in small or capital letters. -/
def ofWord? (word : String) : Option Keyword :=
  let letters := capitals word
  ((spellings ++ otherSpellings).find? fun (spelling, _) => capitals spelling == letters).map (·.2)

def name (k : Keyword) : String :=
  ((spellings.find? fun (_, k') => k' == k).map (·.1)).getD ""

/-- The keywords that begin a statement. -/
def startsStatement : Keyword → Bool
  | open_ | navigate | click | fill | hover | check | uncheck | select | scroll | press | drag
  | upload | wait | refresh | clear | take | log | switch | close | accept | dismiss | perform
  | verify | if_ | repeat_ | for_ | load | text | number | flag | list | data => true
  | _ => false

/-- The keywords that begin a declaration. -/
def startsDeclaration : Keyword → Bool
  | page | pageActions | feature => true
  | _ => false

/-- The other keywords that are no names on their own: they begin a member of a declaration, join
the parts of a statement, or are a value. -/
def isConnective : Keyword → Bool
  | scenario | use | before | after | else_ | field | true_ | false_ | with_ | to_ | from_ | as | is
  | not | has | contains | matches_ | where_ | and | or | order | by_ | limit | offset | times | in_
  | each | seconds | milliseconds | starts | ends => true
  | _ => false

/-- Whether a keyword can stand alone as the name of a variable or field. -/
def isBareName (k : Keyword) : Bool :=
  !k.startsStatement && !k.startsDeclaration && !k.isConnective

end Keyword

end UiScenario
