import UiScenario.Pattern.Reader
import UiScenario.Script.Program
import UiScenario.Text.Blank
import UiScenario.Text.Lowercase
import UiScenario.Text.Occurrence

/-!
Selections of scenarios, by name, by tags and by patterns of names. A scenario is selected if it
meets every criterion that is given.
-/

namespace UiScenario

/-- A tag without blanks around it, without `@` in front of it, and in small letters. -/
def normalizeTag (tag : String) : String :=
  Text.lower (String.ofList ((Text.trim tag.toList).dropWhile (· == '@')))

/-- The tags of a scenario of a feature, each once. -/
def effectiveTags (f : Feature) (s : Scenario) : List String :=
  ((f.tags ++ s.tags).map normalizeTag).eraseDups

/-- Which of the wanted tags a scenario needs. -/
inductive TagMode where
  | any | all
deriving DecidableEq

def TagMode.name : TagMode → String
  | any => "any"
  | all => "all"

inductive SelectionError where
  | invalidPattern (pattern : String)
  | unknownTagMode (text : String)
deriving DecidableEq

def SelectionError.message : SelectionError → String
  | invalidPattern pattern => s!"Invalid name pattern '{pattern}'"
  | unknownTagMode text => s!"Unknown tag mode '{text}', expected 'any' or 'all'"

/-- The tag mode with the given name, in small or capital letters. -/
def TagMode.read (text : String) : Except SelectionError TagMode :=
  match text.toLower with
  | "any" => .ok .any
  | "all" => .ok .all
  | _ => .error (.unknownTagMode text)

inductive NameMatcher where
  /-- By a part of the name, both in small letters. -/
  | part (text : String)
  | regex (r : Pattern.Regex)

structure NamePattern where
  source : String
  matcher : NameMatcher

namespace NamePattern

/-- The text between slashes at both ends of a pattern, if there is any. -/
def betweenSlashes? (pattern : String) : Option String :=
  match pattern.toList with
  | '/' :: cs =>
    if cs.length > 1 && cs.getLast? == some '/' then some (String.ofList cs.dropLast) else none
  | _ => none

def read (pattern : String) : Except SelectionError NamePattern :=
  match betweenSlashes? pattern with
  | none => .ok ⟨pattern, .part (Text.lower pattern)⟩
  | some expression =>
    match Pattern.Regex.read? expression with
    | some r => .ok ⟨pattern, .regex r⟩
    | none => .error (.invalidPattern pattern)

def matches_ (p : NamePattern) (name : String) : Bool :=
  match p.matcher with
  | .part text => Text.occursIn text.toList (Text.lower name).toList
  | .regex r => r.matches_ name

end NamePattern

structure Selection where
  scenario : Option String
  include_ : List String
  exclude : List String
  mode : TagMode
  patterns : List NamePattern

namespace Selection

def none : Selection :=
  ⟨.none, [], [], .any, []⟩

def withScenario (s : Selection) (name : String) : Selection :=
  { s with scenario := some name }

def withTag (s : Selection) (tag : String) : Selection :=
  { s with include_ := s.include_ ++ [normalizeTag tag] }

def withoutTag (s : Selection) (tag : String) : Selection :=
  { s with exclude := s.exclude ++ [normalizeTag tag] }

def withPattern (s : Selection) (pattern : String) : Except SelectionError Selection := do
  return { s with patterns := s.patterns ++ [← NamePattern.read pattern] }

def isEmpty (s : Selection) : Bool :=
  s.scenario.isNone && s.include_.isEmpty && s.exclude.isEmpty && s.patterns.isEmpty

def matchesTags (s : Selection) (tags : List String) : Bool :=
  let has (tag : String) : Bool := tags.contains (normalizeTag tag)
  !s.exclude.any has &&
    (s.include_.isEmpty || match s.mode with
      | .any => s.include_.any has
      | .all => s.include_.all has)

def matches_ (s : Selection) (f : Feature) (scenario : Scenario) : Bool :=
  s.scenario.all (· == scenario.name) &&
    s.matchesTags ((f.tags ++ scenario.tags).map normalizeTag) &&
    (s.patterns.isEmpty || s.patterns.any (·.matches_ scenario.name))

end Selection

end UiScenario
