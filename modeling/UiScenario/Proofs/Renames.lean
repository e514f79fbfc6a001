import UiScenario.Proofs.CaseTables
import UiScenario.Text.Casing

/-!
When a name that is put in a style passes the check of that style. The words of a name have no
joints, and neither have the forms of their characters, so all depends on the first character that
is no joint: its capital form has to start with a capital letter (`GivesCapital`), or the small form
of that with a small one (`GivesSmall`). A name of joints only has no such character, and the styled
name is empty.
-/

namespace UiScenario.Text

variable {c : Char} {word : List Char}

/-! ## Words -/

/-- The first character of a name that is no joint. -/
def initial? (name : String) : Option Char :=
  name.toList.find? (!isJoint ·)

/-- A text without the joints that names in a style do not have. -/
def Seamless (cs : List Char) : Prop :=
  ∀ c ∈ cs, c ≠ '_' ∧ c ≠ '-'

theorem Seamless.append {cs ds : List Char} (hc : Seamless cs) (hd : Seamless ds) :
    Seamless (cs ++ ds) :=
  fun c h => (List.mem_append.1 h).elim (hc c) (hd c)

theorem ne_joint (h : isJoint c = false) : c ≠ '_' ∧ c ≠ '-' := by
  constructor <;> rintro rfl <;> cases h

/-- A word that is begun is the start of the first word. -/
theorem splitWords_cons (cs : List Char) (hw : word ≠ []) :
    ∃ tail rest, splitWords word cs = (word ++ tail) :: rest := by
  induction cs generalizing word with
  | nil => exact ⟨[], [], by simp [splitWords, hw]⟩
  | cons c cs ih =>
    rw [splitWords]
    split
    · exact ⟨[], splitWords [] cs, by simp [hw]⟩
    · split
      · exact ⟨[], splitWords [c] cs, by simp⟩
      · obtain ⟨tail, rest, h⟩ := ih (List.append_ne_nil_of_left_ne_nil hw [c])
        exact ⟨c :: tail, rest, by rw [h, List.append_assoc, List.singleton_append]⟩

/-- The first word starts with the first character that is no joint. -/
theorem splitWords_nil (cs : List Char) :
    cs.find? (!isJoint ·) = none ∧ splitWords [] cs = [] ∨
    ∃ c word rest, cs.find? (!isJoint ·) = some c ∧ splitWords [] cs = (c :: word) :: rest := by
  induction cs with
  | nil => exact .inl ⟨rfl, rfl⟩
  | cons c cs ih =>
    cases hc : isJoint c with
    | true =>
      rw [List.find?_cons_of_neg (by simp [hc]), splitWords, if_pos hc, if_pos List.isEmpty_nil]
      exact ih
    | false =>
      obtain ⟨tail, rest, h⟩ := splitWords_cons cs (List.cons_ne_nil c [])
      refine .inr ⟨c, tail, rest, List.find?_cons_of_pos (by simp [hc]), ?_⟩
      rw [splitWords, if_neg (by simp [hc]), if_neg (by simp)]
      exact h

theorem not_isJoint_of_mem_splitWords {cs : List Char} (hw : ∀ c ∈ word, isJoint c = false) :
    ∀ w ∈ splitWords word cs, ∀ c ∈ w, isJoint c = false := by
  have hnil : ∀ c ∈ ([] : List Char), isJoint c = false := by simp
  induction cs generalizing word with
  | nil =>
    intro w hmem
    rw [splitWords] at hmem
    split at hmem
    · cases hmem
    · rwa [List.mem_singleton.1 hmem]
  | cons c cs ih =>
    intro w hmem
    rw [splitWords] at hmem
    split at hmem
    · split at hmem
      · exact ih hnil w hmem
      · rcases List.mem_cons.1 hmem with rfl | hmem
        · exact hw
        · exact ih hnil w hmem
    · next hc =>
      have hc : isJoint c = false := Bool.eq_false_iff.2 hc
      split at hmem
      · rcases List.mem_cons.1 hmem with rfl | hmem
        · exact hw
        · exact ih (by simpa using hc) w hmem
      · refine ih (fun d hd => ?_) w hmem
        rcases List.mem_append.1 hd with hd | hd
        · exact hw d hd
        · rwa [List.mem_singleton.1 hd]

/-! ## Styled names -/

theorem seamless_lowerChar (h : c ≠ '_' ∧ c ≠ '-') : Seamless (lowerChar c) := by
  rcases lowerChar_cases c with ⟨-, hc⟩ | ⟨-, _, _, _, _, hsmall⟩
  · rw [hc]
    intro e he
    rwa [List.mem_singleton.1 he]
  · exact fun e he => (hsmall e he).not_joined

theorem seamless_upperChar (h : c ≠ '_' ∧ c ≠ '-') : Seamless (upperChar c) := by
  rcases upperChar_cases c with hc | ⟨_, _, _, _, hall⟩
  · rw [hc]
    intro e he
    rwa [List.mem_singleton.1 he]
  · exact hall

theorem seamless_capitalize (h : ∀ c ∈ word, isJoint c = false) : Seamless (capitalize word) := by
  cases word with
  | nil => exact fun _ h => absurd h List.not_mem_nil
  | cons c cs =>
    refine (seamless_upperChar (ne_joint (h c List.mem_cons_self))).append fun e he => ?_
    obtain ⟨d, hd, he⟩ := List.mem_flatMap.1 he
    exact seamless_lowerChar (ne_joint (h d (List.mem_cons_of_mem _ hd))) e he

theorem seamless_pascalChars (cs : List Char) : Seamless (pascalChars cs) := by
  intro e he
  obtain ⟨w, hw, he⟩ := List.mem_flatMap.1 he
  exact seamless_capitalize (not_isJoint_of_mem_splitWords (by simp) w hw) e he

theorem seamless_camelChars (cs : List Char) : Seamless (camelChars cs) := by
  have hp := seamless_pascalChars cs
  unfold camelChars
  split
  · exact fun _ h => absurd h List.not_mem_nil
  · next d ds heq =>
    rw [heq] at hp
    exact (seamless_lowerChar (hp d List.mem_cons_self)).append
      fun e he => hp e (List.mem_cons_of_mem _ he)

/-- A styled name starts with the capital form of the first character that is no joint. -/
theorem pascalChars_cases (name : String) :
    initial? name = none ∧ pascalChars name.toList = [] ∨
    ∃ c rest, initial? name = some c ∧ pascalChars name.toList = upperChar c ++ rest := by
  rcases splitWords_nil name.toList with ⟨hi, hs⟩ | ⟨c, word, rest, hi, hs⟩
  · exact .inl ⟨hi, by rw [pascalChars, hs, List.flatMap_nil]⟩
  · refine .inr ⟨c, word.flatMap lowerChar ++ rest.flatMap capitalize, hi, ?_⟩
    rw [pascalChars, hs, List.flatMap_cons, capitalize, List.append_assoc]

theorem isStyled_ofList {start : Char → Bool} {cs : List Char} (h : Seamless cs) :
    isStyled start (String.ofList cs) = cs.head?.any start := by
  have hall : cs.any (fun c => c == '_' || c == '-') = false := by
    refine List.any_eq_false.2 fun c hc => ?_
    simp [h c hc]
  rw [isStyled, String.toList_ofList, hall, Bool.not_false, Bool.and_true]

/-! ## Checks -/

/-- A character whose capital form starts with a capital letter: that of `ŉ` starts with an
apostrophe. -/
def GivesCapital (c : Char) : Prop :=
  c ≠ 'ŉ' ∧ (isUppercase c = true ∨ upperChar c ≠ [c])

/-- A character from which a small first letter is made, by way of its capital form. -/
def GivesSmall (c : Char) : Prop :=
  c ≠ 'ŉ' ∧ (isLowercase c = true ∨ upperChar c ≠ [c] ∨ lowerChar c ≠ [c])

theorem upperChar_apostrophe : upperChar 'ŉ' = ['ʼ', 'N'] := by
  decide +kernel

theorem apostrophe_caseless :
    isUppercase 'ʼ' = false ∧ ¬(isLowercase 'ʼ' = true ∨ lowerChar 'ʼ' ≠ ['ʼ']) := by
  decide +kernel

theorem isUppercase_head_upperChar (c : Char) (rest : List Char) :
    (upperChar c ++ rest).head?.any isUppercase = true ↔ GivesCapital c := by
  by_cases hn : c = 'ŉ'
  · subst hn
    refine iff_of_false ?_ fun h => h.1 rfl
    rw [upperChar_apostrophe, List.cons_append, List.head?_cons, Option.any_some,
      apostrophe_caseless.1]
    exact Bool.false_ne_true
  · rcases upperChar_cases c with h | ⟨d, ds, h, hd, -⟩
    · simp [GivesCapital, hn, h]
    · refine iff_of_true ?_ ⟨hn, ?_⟩
      · rw [h]
        exact (hd hn).1
      · by_cases hc : upperChar c = [c]
        · rw [h] at hc
          exact .inl ((List.cons.inj hc).1 ▸ (hd hn).1)
        · exact .inr hc

theorem isLowercase_head_lowerChar (c : Char) (rest : List Char) :
    (lowerChar c ++ rest).head?.any isLowercase = true ↔
      isLowercase c = true ∨ lowerChar c ≠ [c] := by
  rcases lowerChar_cases c with ⟨-, h⟩ | ⟨-, d, ds, h, hd, -⟩
  · simp [h]
  · refine iff_of_true (by rw [h]; exact hd) ?_
    by_cases hc : lowerChar c = [c]
    · rw [h] at hc
      exact .inl ((List.cons.inj hc).1 ▸ hd)
    · exact .inr hc

/-- A character that has a small form of its own gives a small letter. -/
theorem gives_of_not_settled (h : ¬Settled c) : isLowercase c = true ∨ lowerChar c ≠ [c] := by
  rcases lowerChar_cases c with ⟨hs, -⟩ | ⟨-, d, ds, heq, hd, -⟩
  · exact absurd hs h
  · exact (isLowercase_head_lowerChar c []).1 (by rw [heq]; exact hd)

theorem isLowercase_head_camelChars {rest : List Char} {name : String}
    (h : pascalChars name.toList = upperChar c ++ rest) :
    (camelChars name.toList).head?.any isLowercase = true ↔ GivesSmall c := by
  have hcamel : ∀ d ds, upperChar c = d :: ds →
      camelChars name.toList = lowerChar d ++ (ds ++ rest) := by
    intro d ds hd
    rw [camelChars, h, hd, List.cons_append]
  by_cases hn : c = 'ŉ'
  · subst hn
    refine iff_of_false ?_ fun h => h.1 rfl
    rw [hcamel _ _ upperChar_apostrophe, isLowercase_head_lowerChar]
    exact apostrophe_caseless.2
  · rcases upperChar_cases c with hc | ⟨d, ds, hc, hd, -⟩
    · rw [hcamel _ _ hc, isLowercase_head_lowerChar]
      simp [GivesSmall, hn, hc]
    · have hgives := gives_of_not_settled (hd hn).2
      rw [hcamel _ _ hc, isLowercase_head_lowerChar]
      refine iff_of_true hgives ⟨hn, ?_⟩
      by_cases heq : upperChar c = [c]
      · rw [hc] at heq
        rw [(List.cons.inj heq).1] at hgives
        exact hgives.imp_right .inr
      · exact .inr (.inl heq)

/-- **Renames.** A name put in a style passes the check of the style just if it has a character that
is no joint, and the first one gives a capital letter, or a small one. -/
theorem restyled_passes_iff (name : String) :
    (isPascalCase (pascalCase name) = true ↔ ∃ c, initial? name = some c ∧ GivesCapital c) ∧
    (isCamelCase (camelCase name) = true ↔ ∃ c, initial? name = some c ∧ GivesSmall c) := by
  rw [isPascalCase, pascalCase, isStyled_ofList (seamless_pascalChars _), isCamelCase, camelCase,
    isStyled_ofList (seamless_camelChars _)]
  rcases pascalChars_cases name with ⟨hi, hp⟩ | ⟨c, rest, hi, hp⟩
  · simp [hi, hp, camelChars]
  · rw [isLowercase_head_camelChars hp, hp, isUppercase_head_upperChar, hi]
    simp

example : isPascalCase (pascalCase "__") = false ∧ isPascalCase (pascalCase "_1st") = false := by
  decide +kernel

end UiScenario.Text
