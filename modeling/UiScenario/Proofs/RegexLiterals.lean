import Mathlib.Data.List.Infix
import UiScenario.Pattern.Regex
import UiScenario.Proofs.Literals

/-!
Regular expressions in generated code. A check that a title or an address contains a text is written
with a regular expression between slashes that finds the text.

* `Code.readRegex` reads such an expression. It is part of a line, two slashes start a comment, and
  every character that is no sign of the pattern, or is escaped, stands for itself;
* `Code.regexLiteral_finds_iff`: a text without line breaks is found where it occurs and nowhere
  else. For the empty text and for texts with line breaks, what is written is no expression.
-/

namespace UiScenario.Code

/-! ## Reading regular expressions -/

def isLineBreak (c : Char) : Bool :=
  c = '\n' || c = '\r' || c = '\u2028' || c = '\u2029'

/-- Cuts a regular expression behind its opening slash at the slash that closes it: the first one
    that is neither escaped nor inside a class. -/
def cutRegex (inClass escaped : Bool) : List Char → Option (List Char × List Char)
  | [] => none
  | c :: cs =>
    if isLineBreak c then none
    else if !escaped && !inClass && c = '/' then some ([], cs)
    else
      let inClass := if escaped || c = '\\' then inClass else if inClass then c != ']' else c = '['
      (cutRegex inClass (!escaped && c = '\\') cs).map fun r => (c :: r.1, r.2)

/-- Whether a character has a meaning in patterns. -/
def isPatternSign (c : Char) : Bool :=
  ['^', '$', '\\', '.', '*', '+', '?', '(', ')', '[', ']', '\x7b', '\x7d', '|'].contains c

/-- The text that a pattern stands for, if all its characters stand for themselves. -/
def readPattern : List Char → Option (List Char)
  | [] => some []
  | '\\' :: c :: cs =>
    if isPatternSign c || c = '/' then (readPattern cs).map (c :: ·) else none
  | c :: cs => if isPatternSign c then none else (readPattern cs).map (c :: ·)

/-- The regular expression that finds a text. -/
def regexOfText : List Char → Pattern.Regex
  | [] => .empty
  | c :: cs => .seq (.set (.ofList [c])) (regexOfText cs)

/-- Reads a regular expression without flags. -/
def readRegex : List Char → Option (Pattern.Regex × List Char)
  | '/' :: cs =>
    if cs.head? = some '/' ∨ cs.head? = some '*' then none
    else do
      let (pattern, rest) ← cutRegex false false cs
      let text ← readPattern pattern
      if canEnd rest then return (regexOfText text, rest) else none
  | _ => none

/-- The text without the backslashes that escape a character. There is none if a slash is not
    escaped. -/
def dropEscapes : List Char → Option (List Char)
  | [] => some []
  | '\\' :: c :: cs => (dropEscapes cs).map (c :: ·)
  | c :: cs => if c = '\\' ∨ c = '/' then none else (dropEscapes cs).map (c :: ·)

/-! ## Where a text is found -/

/-- A match of a text that starts at a place ends behind the text, if the text stands there. -/
theorem ends_regexOfText (text : Array Char) (cs : List Char) (p : Nat) :
    (regexOfText cs).ends text p =
      if cs <+: text.toList.drop p then [p + cs.length] else [] := by
  induction cs generalizing p with
  | nil => simp [regexOfText, Pattern.Regex.ends]
  | cons c cs ih =>
    simp only [regexOfText, Pattern.Regex.ends, Pattern.CharSet.ofList]
    by_cases hp : p < text.size
    · have hdrop : text.toList.drop p = text[p] :: text.toList.drop (p + 1) := by
        rw [List.drop_eq_getElem_cons (by simpa using hp)]
        rfl
      rw [hdrop, Array.getElem?_eq_getElem hp]
      simp only [Option.any_some, List.contains_cons, List.contains_nil, Bool.or_false, beq_iff_eq,
        List.cons_prefix_cons]
      by_cases hc : c = text[p]
      · rw [if_pos hc.symm, List.flatMap_singleton, ih]
        split
        · next h =>
          rw [if_pos ⟨hc, h⟩, List.length_cons, Nat.add_right_comm, Nat.add_assoc]
          rfl
        · next h =>
          rw [if_neg fun hboth => h hboth.2]
          rfl
      · rw [if_neg (Ne.symm hc), if_neg fun hboth => hc hboth.1]
        rfl
    · have hdrop : text.toList.drop p = [] := by simpa using hp
      simp [hdrop, Array.getElem?_eq_none (Nat.le_of_not_lt hp)]

theorem matches_regexOfText_iff (cs : List Char) (text : String) :
    (regexOfText cs).matches_ text = true ↔ cs <:+: text.toList := by
  have hplace : ∀ p, (!((regexOfText cs).ends text.toList.toArray p).isEmpty) = true ↔
      cs <+: text.toList.drop p := by
    intro p
    rw [ends_regexOfText]
    split
    · next h => simpa using h
    · next h => simpa using h
  simp only [Pattern.Regex.matches_, List.any_eq_true, List.mem_range, hplace]
  rw [List.infix_iff_prefix_suffix]
  constructor
  · rintro ⟨p, -, h⟩
    exact ⟨_, h, List.drop_suffix p _⟩
  · rintro ⟨t, h, hs⟩
    rw [List.suffix_iff_eq_drop] at hs
    refine ⟨text.toList.length - t.length, ?_, hs ▸ h⟩
    have : text.toList.toArray.size = text.toList.length := by simp
    omega

/-! ## Texts between slashes -/

theorem cutRegex_sound {inClass escaped : Bool} {cs body rest : List Char}
    (h : cutRegex inClass escaped cs = some (body, rest)) :
    cs = body ++ '/' :: rest ∧ ∀ c ∈ body, isLineBreak c = false := by
  induction cs generalizing inClass escaped body with
  | nil => cases h
  | cons c cs ih =>
    rw [cutRegex] at h
    split at h
    · cases h
    · next hbreak =>
      split at h
      · next hclose =>
        cases h
        simp only [Bool.and_eq_true, decide_eq_true_eq] at hclose
        exact ⟨by rw [hclose.2, List.nil_append], List.forall_mem_nil _⟩
      · obtain ⟨⟨body', rest'⟩, hcut, heq⟩ := Option.map_eq_some_iff.1 h
        cases heq
        obtain ⟨rfl, hbody⟩ := ih hcut
        exact ⟨rfl, List.forall_mem_cons.2 ⟨by simpa using hbreak, hbody⟩⟩

theorem isRegexSign_eq (c : Char) : isRegexSign c = (isPatternSign c || c = '/') := by
  rw [Bool.eq_iff_iff]
  simp only [isRegexSign, isPatternSign, List.contains_iff_mem, List.mem_cons, List.not_mem_nil,
    or_false, Bool.or_eq_true, decide_eq_true_eq]
  grind

theorem regexChars_cons (c : Char) (cs : List Char) :
    regexChars (c :: cs) = (if isRegexSign c then ['\\', c] else [c]) ++ regexChars cs :=
  List.flatMap_cons

theorem ne_of_not_regexSign {c d : Char} (hc : isRegexSign c = false) (hd : isRegexSign d = true) :
    c ≠ d := by
  rintro rfl
  rw [hc] at hd
  cases hd

theorem cutRegex_regexChars {cs : List Char} (h : ∀ c ∈ cs, isLineBreak c = false)
    (rest : List Char) :
    cutRegex false false (regexChars cs ++ '/' :: rest) = some (regexChars cs, rest) := by
  induction cs with
  | nil => rfl
  | cons c cs ih =>
    obtain ⟨hc, hcs⟩ := List.forall_mem_cons.1 h
    rw [regexChars_cons]
    split
    · have hslash : isLineBreak '\\' = false := by decide
      simp [cutRegex, hc, hslash, ih hcs]
    · next hs =>
      have hne : ∀ d, isRegexSign d = true → c ≠ d :=
        fun d => ne_of_not_regexSign (Bool.eq_false_iff.2 hs)
      simp [cutRegex, hc, hne '\\' rfl, hne '/' rfl, hne '[' rfl, ih hcs]

theorem readPattern_regexChars (cs : List Char) : readPattern (regexChars cs) = some cs := by
  induction cs with
  | nil => rfl
  | cons c cs ih =>
    rw [regexChars_cons]
    split
    · next hs =>
      rw [isRegexSign_eq] at hs
      show (if _ then (readPattern (regexChars cs)).map _ else none) = _
      rw [if_pos hs, ih]
      rfl
    · next hs =>
      have hne : c ≠ '\\' := ne_of_not_regexSign (Bool.eq_false_iff.2 hs) rfl
      have hp : isPatternSign c = false := by
        rw [isRegexSign_eq, Bool.or_eq_true, not_or] at hs
        exact Bool.eq_false_iff.2 hs.1
      simp [readPattern, hne, hp, ih]

theorem dropEscapes_regexChars (cs : List Char) : dropEscapes (regexChars cs) = some cs := by
  induction cs with
  | nil => rfl
  | cons c cs ih =>
    rw [regexChars_cons]
    split
    · show (dropEscapes (regexChars cs)).map _ = _
      rw [ih]
      rfl
    · next hs =>
      have hne : ∀ d, isRegexSign d = true → c ≠ d :=
        fun d => ne_of_not_regexSign (Bool.eq_false_iff.2 hs)
      simp [dropEscapes, hne '\\' rfl, hne '/' rfl, ih]

/-- Two slashes and a slash with a star start comments; what is written for a text does not. -/
theorem head?_regexChars (c : Char) (cs : List Char) (rest : List Char) :
    (regexChars (c :: cs) ++ rest).head? ≠ some '/' ∧
      (regexChars (c :: cs) ++ rest).head? ≠ some '*' := by
  rw [regexChars_cons]
  split
  · exact ⟨by simp, by simp⟩
  · next hs =>
    have hne : ∀ d, isRegexSign d = true → c ≠ d :=
      fun d => ne_of_not_regexSign (Bool.eq_false_iff.2 hs)
    exact ⟨by simpa using hne '/' rfl, by simpa using hne '*' rfl⟩

theorem mem_regexChars {c : Char} {cs : List Char} (h : c ∈ cs) : c ∈ regexChars cs := by
  refine List.mem_flatMap.2 ⟨c, h, ?_⟩
  split
  · exact List.mem_cons_of_mem _ List.mem_cons_self
  · exact List.mem_singleton.2 rfl

theorem toList_regexLiteral (s : String) :
    (regexLiteral s).toList = '/' :: (regexChars s.toList ++ ['/']) :=
  String.toList_ofList

theorem readRegex_regexLiteral {s : String} (hs : s ≠ "")
    (h : ∀ c ∈ s.toList, isLineBreak c = false) {rest : List Char} (hrest : canEnd rest = true) :
    readRegex ((regexLiteral s).toList ++ rest) = some (regexOfText s.toList, rest) := by
  obtain ⟨c, cs, heq⟩ := List.exists_cons_of_ne_nil (mt String.toList_eq_nil_iff.1 hs)
  have hhead := head?_regexChars c cs ('/' :: rest)
  rw [← heq] at hhead
  rw [toList_regexLiteral, List.cons_append, List.append_assoc, List.singleton_append, readRegex,
    if_neg (not_or.2 hhead), cutRegex_regexChars h]
  simp [readPattern_regexChars, hrest]

/-- An expression has at least one character and no line breaks. -/
theorem of_readRegex_regexLiteral {s : String} {r : Pattern.Regex}
    (h : readRegex (regexLiteral s).toList = some (r, [])) :
    s ≠ "" ∧ ∀ c ∈ s.toList, isLineBreak c = false := by
  rw [toList_regexLiteral, readRegex] at h
  split at h
  · cases h
  next hcomment =>
  refine ⟨?_, fun c hc => ?_⟩
  · rintro rfl
    exact hcomment (.inl rfl)
  simp only [Option.bind_eq_bind, Option.bind_eq_some_iff] at h
  obtain ⟨⟨body, rest⟩, hcut, text, -, hend⟩ := h
  obtain ⟨heq, hbody⟩ := cutRegex_sound hcut
  have hrest : rest = [] := by
    split at hend
    · exact congrArg Prod.snd (Option.some.inj hend)
    · cases hend
  rw [hrest] at heq
  exact hbody c (List.append_cancel_right heq ▸ mem_regexChars hc)

/-- **Texts between slashes**: what is written for a text starts and ends with a slash, has no other
    slash that is not escaped, and is the text once the escapes are dropped. It is a regular
    expression that finds the text where it occurs and nowhere else, unless the text is empty or
    has a line break. -/
theorem regexLiteral_finds_iff (s : String) :
    (∃ body, (regexLiteral s).toList = '/' :: (body ++ ['/']) ∧
      dropEscapes body = some s.toList) ∧
    ((∃ r : Pattern.Regex,
        (∀ rest, canEnd rest = true →
          readRegex ((regexLiteral s).toList ++ rest) = some (r, rest)) ∧
        ∀ text, r.matches_ text = true ↔ s.toList <:+: text.toList) ↔
      s ≠ "" ∧ ∀ c ∈ s.toList, isLineBreak c = false) := by
  refine ⟨⟨_, toList_regexLiteral s, dropEscapes_regexChars s.toList⟩, ?_, ?_⟩
  · rintro ⟨r, hread, -⟩
    have hread := hread [] rfl
    rw [List.append_nil] at hread
    exact of_readRegex_regexLiteral hread
  · rintro ⟨hs, h⟩
    exact ⟨_, fun rest => readRegex_regexLiteral hs h, matches_regexOfText_iff s.toList⟩

end UiScenario.Code
