/-!
Texts inside texts.
-/

namespace UiScenario.Text

/-- Whether a list occurs in a list without gaps. -/
def occursIn (part : List Char) : List Char → Bool
  | [] => part.isEmpty
  | c :: cs => part.isPrefixOf (c :: cs) || occursIn part cs

end UiScenario.Text
