import UiScenario.Proofs.AgreementProgram
import UiScenario.Proofs.Segments

/-!
Small and capital letters. Scripts that differ only in the case of ASCII letters have the same
tokens at the same places, up to the case of letters, and are read alike. In quoted texts, `\n` and
`\t` stand for other characters than `\N` and `\T`, so there a line feed and a tab count as the two
characters that they are written with.

The lexer is compared on a text and on the text in small letters: a letter is never a sign, a blank,
a quote or a digit, and an escape has the same length in both cases.
-/

namespace UiScenario

/-! ## Letters -/

namespace Text

variable {p : Char → Bool} {c : Char}

def capitals : List Char :=
  (List.range 26).map fun i => Char.ofNat ('A'.toNat + i)

theorem mem_capitals (h : c.isUpper = true) : c ∈ capitals := by
  have hv : 'A'.val ≤ c.val ∧ c.val ≤ 'Z'.val := of_decide_eq_true h
  have hlo : 65 ≤ c.toNat := UInt32.le_iff_toNat_le.1 hv.1
  have hhi : c.toNat ≤ 90 := UInt32.le_iff_toNat_le.1 hv.2
  refine List.mem_map.2 ⟨c.toNat - 65, List.mem_range.2 (by omega), ?_⟩
  have hn : 'A'.toNat + (c.toNat - 65) = c.toNat := by
    show 65 + (c.toNat - 65) = c.toNat
    omega
  rw [hn, Char.ofNat_toNat]

theorem toLower_of_not_isUpper (h : ¬c.isUpper = true) : c.toLower = c := by
  exact dif_neg fun hv => h (decide_eq_true hv)

/-- What is to be decided for the capital letters one by one. -/
theorem forall_capitals {P : Char → Prop} [DecidablePred P]
    (h : capitals.all (fun c => decide (P c)) = true) : ∀ c ∈ capitals, P c :=
  fun c hc => of_decide_eq_true (List.all_eq_true.1 h c hc)

/-- What is the same for the two cases of each ASCII letter does not depend on case. -/
theorem apply_toLower {β : Type} {p : Char → β} (h : ∀ c ∈ capitals, p c.toLower = p c) (c : Char) :
    p c.toLower = p c := by
  by_cases hc : c.isUpper = true
  · exact h c (mem_capitals hc)
  · rw [toLower_of_not_isUpper hc]

theorem toLower_eq_self_of (h : ∀ c ∈ capitals, p c = false) (hc : p c = true) : c.toLower = c := by
  refine toLower_of_not_isUpper fun hu => ?_
  rw [h c (mem_capitals hu)] at hc
  cases hc

theorem isAlpha_of_isUpper (h : c.isUpper = true) : c.toLower.isAlpha = true ∧ c.isAlpha = true :=
  forall_capitals (P := fun c => c.toLower.isAlpha = true ∧ c.isAlpha = true) (by decide) c
    (mem_capitals h)

theorem toLower_eq_iff {x : Char} (hx : x.isAlpha = false) (c : Char) :
    c.toLower = x ↔ c = x := by
  by_cases hc : c.isUpper = true
  · obtain ⟨hl, hu⟩ := isAlpha_of_isUpper hc
    constructor
    · rintro rfl
      rw [hx] at hl
      cases hl
    · rintro rfl
      rw [hx] at hu
      cases hu
  · rw [toLower_of_not_isUpper hc]

@[simp] theorem toLower_toLower (c : Char) : c.toLower.toLower = c.toLower :=
  apply_toLower (forall_capitals (by decide)) c

@[simp] theorem toUpper_toLower (c : Char) : c.toLower.toUpper = c.toUpper :=
  apply_toLower (forall_capitals (by decide)) c

theorem isBlank_toLower (c : Char) : isBlank c.toLower = isBlank c :=
  apply_toLower (forall_capitals (by decide)) c

theorem isDigit_toLower (c : Char) : c.toLower.isDigit = c.isDigit :=
  apply_toLower (p := Char.isDigit) (forall_capitals (by decide)) c

theorem takeWhile_toLower (hp : ∀ c : Char, p c.toLower = p c) (cs : List Char) :
    (cs.map Char.toLower).takeWhile p = (cs.takeWhile p).map Char.toLower := by
  rw [List.takeWhile_map, (funext hp : p ∘ Char.toLower = p)]

theorem dropWhile_toLower (hp : ∀ c : Char, p c.toLower = p c) (cs : List Char) :
    (cs.map Char.toLower).dropWhile p = (cs.dropWhile p).map Char.toLower := by
  rw [List.dropWhile_map, (funext hp : p ∘ Char.toLower = p)]

theorem trimRight_toLower (cs : List Char) :
    trimRight (cs.map Char.toLower) = (trimRight cs).map Char.toLower := by
  rw [trimRight, ← List.map_reverse, dropWhile_toLower isBlank_toLower, ← List.map_reverse]
  rfl

theorem trim_toLower (cs : List Char) :
    trim (cs.map Char.toLower) = (trim cs).map Char.toLower := by
  rw [trim, dropWhile_toLower isBlank_toLower, trimRight_toLower]
  rfl

theorem toList_toLower (v : String) : v.toLower.toList = v.toList.map Char.toLower :=
  String.toList_map

theorem toLower_ofList (cs : List Char) :
    (String.ofList (cs.map Char.toLower)).toLower = (String.ofList cs).toLower := by
  refine String.toList_inj.1 ?_
  simp [toList_toLower, Function.comp_def]

/-- A character of a quoted text, in small letters and as it is written. -/
def spelled : Char → List Char
  | '\n' => ['\\', 'n']
  | '\t' => ['\\', 't']
  | c => [c.toLower]

theorem spelled_toLower (c : Char) : spelled c.toLower = spelled c :=
  apply_toLower (forall_capitals (by decide)) c

theorem spelled_upperChar (c : Char) :
    (upperChar c).flatMap spelled = ((spelled c).flatMap upperChar).flatMap spelled := by
  have hc : (upperChar c.toLower).flatMap spelled = (upperChar c).flatMap spelled :=
    apply_toLower (p := fun c => (upperChar c).flatMap spelled) (forall_capitals (by decide)) c
  unfold spelled
  split
  · decide
  · decide
  · rw [List.flatMap_singleton]
    exact hc.symm

end Text

/-- Small and capital letters count as the same. -/
def Wording.caseless : Wording where
  name := String.toLower
  text v := String.ofList (v.toList.flatMap Text.spelled)
  text_of_name := by
    intro v v' h
    have hl : ∀ cs : List Char, cs.flatMap Text.spelled =
        (cs.map Char.toLower).flatMap Text.spelled := by
      intro cs
      rw [List.flatMap_map]
      exact List.flatMap_congr fun c _ => (Text.spelled_toLower c).symm
    have hv := congrArg String.toList h
    rw [Text.toList_toLower, Text.toList_toLower] at hv
    rw [hl, hv, ← hl]
  text_append := by
    intro u u' v v' h h'
    have hu := String.ofList_injective h
    have hv := String.ofList_injective h'
    rw [String.toList_append, String.toList_append, List.flatMap_append, hu, hv,
      ← List.flatMap_append]
  text_upper := by
    intro v v' h
    have hu : ∀ cs : List Char, (cs.flatMap Text.upperChar).flatMap Text.spelled =
        ((cs.flatMap Text.spelled).flatMap Text.upperChar).flatMap Text.spelled := by
      intro cs
      rw [List.flatMap_assoc, List.flatMap_assoc, List.flatMap_assoc]
      refine List.flatMap_congr fun c _ => ?_
      rw [Text.spelled_upperChar, List.flatMap_assoc]
    have hv := String.ofList_injective h
    rw [Text.upper, Text.upper, String.toList_ofList, String.toList_ofList, hu, hv, ← hu]

/-! ## Lexemes -/

namespace Lexeme

def reword (w : Wording) : Lexeme → Lexeme
  | token kind value => token kind (w.value kind value)
  | fault f => fault f

/-- A stretch of a text, and the same stretch of the text in small letters. -/
structure Cut.Lowered (small cut : Cut) : Prop where
  segment : small.segment = cut.segment.map Char.toLower
  rest : small.rest = cut.rest.map Char.toLower
  lexeme : small.lexeme.reword .caseless = cut.lexeme.reword .caseless

theorem isWordChar_toLower (c : Char) : isWordChar c.toLower = isWordChar c :=
  Text.apply_toLower (Text.forall_capitals (by decide)) c

theorem isTagChar_toLower (c : Char) : isTagChar c.toLower = isTagChar c :=
  Text.apply_toLower (Text.forall_capitals (by decide)) c

theorem ne_newline_toLower (c : Char) : decide (c.toLower ≠ '\n') = decide (c ≠ '\n') :=
  Text.apply_toLower (p := fun c => decide (c ≠ '\n')) (Text.forall_capitals (by decide)) c

theorem lowered_verbatim {kind : TokenKind} {segment : List Char} (rest : List Char)
    (h : segment.map Char.toLower = segment) :
    Cut.Lowered (verbatim kind segment (rest.map Char.toLower)) (verbatim kind segment rest) :=
  ⟨h.symm, rfl, rfl⟩

theorem lowered_comment (cs : List Char) :
    Cut.Lowered (comment (cs.map Char.toLower)) (comment cs) := by
  have ht := Text.takeWhile_toLower (p := fun c => decide (c ≠ '\n')) ne_newline_toLower cs
  refine ⟨ht, Text.dropWhile_toLower ne_newline_toLower cs, ?_⟩
  simp only [comment, reword, ht, Text.trimRight_toLower]
  exact congrArg (token .comment) (Text.toLower_ofList _)

theorem lowered_tag (cs : List Char) : Cut.Lowered (tag (cs.map Char.toLower)) (tag cs) := by
  have ht := Text.takeWhile_toLower isTagChar_toLower cs
  refine ⟨congrArg ('@' :: ·) ht, Text.dropWhile_toLower isTagChar_toLower cs, ?_⟩
  simp only [tag, reword, ht]
  exact congrArg (token .tag) (Text.toLower_ofList _)

/-- A word spells the same keyword in small letters. -/
theorem ofWord_toLower (cs : List Char) :
    TokenKind.ofWord (String.ofList (cs.map Char.toLower)) =
      TokenKind.ofWord (String.ofList cs) := by
  have hc : Keyword.capitals (String.ofList (cs.map Char.toLower)) =
      Keyword.capitals (String.ofList cs) := by
    simp [Keyword.capitals, Function.comp_def]
  unfold TokenKind.ofWord Keyword.ofWord?
  rw [hc]

theorem value_ofWord (w : Wording) (word : String) : w.value (.ofWord word) = w.name := by
  unfold TokenKind.ofWord
  cases Keyword.ofWord? word <;> rfl

theorem lowered_word (cs : List Char) : Cut.Lowered (word (cs.map Char.toLower)) (word cs) := by
  have ht := Text.takeWhile_toLower isWordChar_toLower cs
  rw [word_eq, word_eq, ht, ofWord_toLower]
  refine ⟨rfl, Text.dropWhile_toLower isWordChar_toLower cs, ?_⟩
  simp only [verbatim, reword, value_ofWord]
  exact congrArg (token _) (Text.toLower_ofList _)

/-! ### Numbers -/

section
variable {p : Char → Bool} (h : ∀ c ∈ Text.capitals, p c = false ∧ p c.toLower = false)
include h

theorem map_takeWhile_toLower (cs : List Char) :
    (cs.takeWhile p).map Char.toLower = cs.takeWhile p := by
  conv_rhs => rw [← List.map_id (cs.takeWhile p)]
  refine List.map_congr_left fun c hc => ?_
  exact Text.toLower_eq_self_of (fun c hc => (h c hc).1) (List.mem_takeWhile_imp hc)

theorem takeWhile_digits_toLower (cs : List Char) :
    (cs.map Char.toLower).takeWhile p = cs.takeWhile p := by
  rw [Text.takeWhile_toLower (Text.apply_toLower fun c hc => by rw [(h c hc).1, (h c hc).2]),
    map_takeWhile_toLower h]

theorem dropWhile_digits_toLower (cs : List Char) :
    (cs.map Char.toLower).dropWhile p = (cs.dropWhile p).map Char.toLower :=
  Text.dropWhile_toLower (Text.apply_toLower fun c hc => by rw [(h c hc).1, (h c hc).2]) cs

end

theorem startsFraction_toLower (cs : List Char) :
    startsFraction (cs.map Char.toLower) = startsFraction cs := by
  have hdot : ∀ c : Char, c.toLower = '.' ↔ c = '.' := Text.toLower_eq_iff (by decide)
  match cs with
  | [] => rfl
  | [c] => by_cases hc : c = '.' <;> simp [startsFraction, hc, hdot]
  | c :: d :: ds =>
    by_cases hc : c = '.'
    · simp [startsFraction, hc, Text.isDigit_toLower]
    · simp [startsFraction, hc, hdot]

theorem lowered_number {sign : List Char} (hs : sign.map Char.toLower = sign) (cs : List Char) :
    Cut.Lowered (number sign (cs.map Char.toLower)) (number sign cs) := by
  have hd : ∀ c ∈ Text.capitals, c.isDigit = false ∧ c.toLower.isDigit = false :=
    Text.forall_capitals (by decide)
  have hp : ∀ c ∈ Text.capitals, (c.isDigit || c = '.') = false ∧
      (c.toLower.isDigit || c.toLower = '.') = false := Text.forall_capitals (by decide)
  simp only [number, takeWhile_digits_toLower hd, dropWhile_digits_toLower hd,
    startsFraction_toLower, ← List.map_tail]
  have hwhole : (sign ++ cs.takeWhile Char.isDigit).map Char.toLower =
      sign ++ cs.takeWhile Char.isDigit := by
    rw [List.map_append, hs, map_takeWhile_toLower hd]
  have hfraction : ∀ ds : List Char, ('.' :: ds.takeWhile Char.isDigit).map Char.toLower =
      '.' :: ds.takeWhile Char.isDigit := by
    intro ds
    rw [List.map_cons, map_takeWhile_toLower hd]
    rfl
  split
  · split
    · refine ⟨?_, dropWhile_digits_toLower hp _, ?_⟩
      · simp only [takeWhile_digits_toLower hp, List.map_append, hwhole, hfraction,
          map_takeWhile_toLower hp]
      · simp only [takeWhile_digits_toLower hp]
    · exact lowered_verbatim _ (by rw [List.map_append, hwhole, hfraction])
  · exact lowered_verbatim _ hwhole

/-! ### Quoted texts and references -/

/-- An escape stands for what it is written with. -/
theorem spelled_unescape (c : Char) :
    (unescape c.toLower).flatMap Text.spelled = (unescape c).flatMap Text.spelled :=
  Text.apply_toLower (p := fun c => (unescape c).flatMap Text.spelled)
    (Text.forall_capitals (by decide)) c

theorem map_spelled_append {x x' : List Char} {text text' : Option (List Char)}
    (hx : x'.flatMap Text.spelled = x.flatMap Text.spelled)
    (ht : text'.map (List.flatMap Text.spelled) = text.map (List.flatMap Text.spelled)) :
    (text'.map (x' ++ ·)).map (List.flatMap Text.spelled) =
      (text.map (x ++ ·)).map (List.flatMap Text.spelled) := by
  have hmap : ∀ (y : List Char) (t : Option (List Char)),
      (t.map (y ++ ·)).map (List.flatMap Text.spelled) =
        (t.map (List.flatMap Text.spelled)).map (y.flatMap Text.spelled ++ ·) := by
    intro y t
    cases t with
    | none => rfl
    | some t => exact congrArg some List.flatMap_append
  rw [hmap, hmap, hx, ht]

theorem quotedBody_toLower {quote : Char} (hq : quote.isAlpha = false) (cs : List Char) :
    (quotedBody quote (cs.map Char.toLower)).1 = (quotedBody quote cs).1.map Char.toLower ∧
      (quotedBody quote (cs.map Char.toLower)).2.1.map (List.flatMap Text.spelled) =
        (quotedBody quote cs).2.1.map (List.flatMap Text.spelled) ∧
      (quotedBody quote (cs.map Char.toLower)).2.2 =
        (quotedBody quote cs).2.2.map Char.toLower := by
  have hn : ∀ c : Char, c.toLower = '\n' ↔ c = '\n' := Text.toLower_eq_iff (by decide)
  have hb : ∀ c : Char, c.toLower = '\\' ↔ c = '\\' := Text.toLower_eq_iff (by decide)
  have hquote : ∀ c : Char, c.toLower = quote ↔ c = quote := Text.toLower_eq_iff hq
  -- a backslash takes the next character with it, so the cases are those of `quotedBody`
  fun_induction quotedBody quote cs with
  | case1 => exact ⟨rfl, rfl, rfl⟩
  | case2 => exact ⟨rfl, rfl, rfl⟩
  | case3 rest => exact ⟨rfl, rfl, rfl⟩
  | case4 c rest hc used text rest' heq ih =>
    obtain ⟨hused, htext, hrest⟩ := ih
    rw [heq] at hused htext hrest
    have hbody : quotedBody quote (('\\' :: c :: rest).map Char.toLower) =
        ('\\' :: c.toLower :: (quotedBody quote (rest.map Char.toLower)).1,
          (quotedBody quote (rest.map Char.toLower)).2.1.map (unescape c.toLower ++ ·),
          (quotedBody quote (rest.map Char.toLower)).2.2) := by
      show quotedBody quote ('\\' :: c.toLower :: rest.map Char.toLower) = _
      rw [quotedBody, if_neg (mt (hn c).1 hc)]
    rw [hbody]
    refine ⟨?_, map_spelled_append (spelled_unescape c) htext, hrest⟩
    rw [hused]
    rfl
  | case5 rest h₁ h₂ =>
    have hc := (hquote quote).2 rfl
    rw [List.map_cons, quotedBody_cons (mt (hb quote).1 (ne_backslash h₁ h₂)), if_pos hc]
    exact ⟨rfl, rfl, rfl⟩
  | case6 rest h₁ h₂ h₃ =>
    rw [List.map_cons, quotedBody_cons (by decide), if_neg (mt (hquote '\n').1 h₃),
      if_pos ((hn '\n').2 rfl)]
    exact ⟨rfl, rfl, rfl⟩
  | case7 c rest h₁ h₂ h₃ h₄ used text rest' heq ih =>
    obtain ⟨hused, htext, hrest⟩ := ih
    rw [heq] at hused htext hrest
    rw [List.map_cons, quotedBody_cons (mt (hb c).1 (ne_backslash h₁ h₂)),
      if_neg (mt (hquote c).1 h₃), if_neg (mt (hn c).1 h₄)]
    refine ⟨congrArg (c.toLower :: ·) hused, ?_, hrest⟩
    have hc : [c.toLower].flatMap Text.spelled = [c].flatMap Text.spelled :=
      congrArg (· ++ []) (Text.spelled_toLower c)
    exact map_spelled_append hc htext

theorem lowered_quoted {quote : Char} (hq : quote.isAlpha = false) (hl : quote.toLower = quote)
    (cs : List Char) : Cut.Lowered (quoted quote (cs.map Char.toLower)) (quoted quote cs) := by
  obtain ⟨hused, htext, hrest⟩ := quotedBody_toLower hq cs
  refine ⟨?_, hrest, ?_⟩
  · show quote :: _ = quote.toLower :: _
    rw [hl]
    exact congrArg (quote :: ·) hused
  · unfold quoted
    dsimp only
    cases ht : (quotedBody quote cs).2.1 with
    | none =>
      rw [ht, Option.map_none, Option.map_eq_none_iff] at htext
      rw [htext]
    | some text =>
      rw [ht] at htext
      obtain ⟨text', ht', htext⟩ := Option.map_eq_some_iff.1 htext
      rw [ht']
      refine congrArg (token .text) (congrArg String.ofList ?_)
      rw [String.toList_ofList, String.toList_ofList]
      exact htext

theorem envBody_toLower (cs : List Char) :
    envBody (cs.map Char.toLower) = ((envBody cs).1.map Char.toLower, (envBody cs).2.1,
      (envBody cs).2.2.map Char.toLower) := by
  have hn : ∀ c : Char, c.toLower = '\n' ↔ c = '\n' := Text.toLower_eq_iff (by decide)
  have hb : ∀ c : Char, c.toLower = '\x7d' ↔ c = '\x7d' := Text.toLower_eq_iff (by decide)
  fun_induction envBody cs with
  | case1 => rfl
  | case2 rest => rfl
  | case3 rest h =>
    rw [List.map_cons, envBody_cons (by simp), if_pos ((hn '\n').2 rfl)]
    rfl
  | case4 c rest h hc name braces rest' heq ih =>
    have h' : ∀ ds, c.toLower = '\x7d' → rest.map Char.toLower = '\x7d' :: ds → False := by
      intro ds hd he
      obtain ⟨d, ds', rfl, hd', -⟩ := List.map_eq_cons_iff.1 he
      exact h ds' ((hb c).1 hd) (by rw [(hb d).1 hd'])
    rw [heq] at ih
    rw [List.map_cons, envBody_cons h', if_neg (mt (hn c).1 hc), ih]
    rfl

theorem lowered_env (cs : List Char) : Cut.Lowered (env (cs.map Char.toLower)) (env cs) := by
  have hbraces : (envBody cs).2.1.map Char.toLower = (envBody cs).2.1 := by
    fun_induction envBody cs with
    | case1 => rfl
    | case2 rest => rfl
    | case3 rest h => rfl
    | case4 c rest h hc name braces rest' heq ih => rwa [heq] at ih
  unfold env
  rw [envBody_toLower]
  dsimp only
  refine ⟨?_, rfl, ?_⟩
  · rw [List.map_cons, List.map_cons, List.map_append, hbraces]
    rfl
  · split
    · rfl
    · rw [Text.trim_toLower]
      exact congrArg (token .env) (Text.toLower_ofList _)

/-! ### Signs -/

theorem isAlpha_of_singleSign? {c : Char} {kind : TokenKind} (h : singleSign? c = some kind) :
    c.isAlpha = false := by
  unfold singleSign? at h
  split at h
  case h_11 => cases h
  all_goals rfl

theorem isAlpha_of_doubleSign? {c d : Char} {kind : TokenKind} (h : doubleSign? c d = some kind) :
    c.isAlpha = false ∧ d = '=' := by
  unfold doubleSign? at h
  split at h
  case h_5 => cases h
  all_goals exact ⟨rfl, rfl⟩

theorem doubleSign?_toLower (c d : Char) : doubleSign? c d.toLower = doubleSign? c d := by
  by_cases hd : d.isUpper = true
  · have hnone : ∀ e : Char, e.isAlpha = true → doubleSign? c e = none := by
      intro e he
      refine Option.eq_none_iff_forall_ne_some.2 fun kind h => ?_
      rw [(isAlpha_of_doubleSign? h).2] at he
      cases he
    obtain ⟨hl, hu⟩ := Text.isAlpha_of_isUpper hd
    rw [hnone _ hl, hnone _ hu]
  · rw [Text.toLower_of_not_isUpper hd]

theorem lowered_sign? {c : Char} (hc : c.toLower = c) (cs : List Char) :
    (sign? c (cs.map Char.toLower) = none ∧ sign? c cs = none) ∨
      ∃ small found, sign? c (cs.map Char.toLower) = some small ∧ sign? c cs = some found ∧
        Cut.Lowered small found := by
  have hsingle : [c].map Char.toLower = [c] := congrArg (fun x => [x]) hc
  have hone : ∀ ds : List Char,
      ((singleSign? c).map (verbatim · [c] (ds.map Char.toLower)) = none ∧
        (singleSign? c).map (verbatim · [c] ds) = none) ∨
      ∃ small found, (singleSign? c).map (verbatim · [c] (ds.map Char.toLower)) = some small ∧
        (singleSign? c).map (verbatim · [c] ds) = some found ∧ Cut.Lowered small found := by
    intro ds
    cases singleSign? c with
    | none => exact .inl ⟨rfl, rfl⟩
    | some kind => exact .inr ⟨_, _, rfl, rfl, lowered_verbatim ds hsingle⟩
  cases cs with
  | nil => exact hone []
  | cons d ds =>
    simp only [List.map_cons, sign?, doubleSign?_toLower]
    cases hk : doubleSign? c d with
    | none => exact hone (d :: ds)
    | some kind =>
      have hd : d.toLower = d := by
        rw [(isAlpha_of_doubleSign? hk).2]
        rfl
      refine .inr ⟨_, _, rfl, rfl, ?_⟩
      rw [hd]
      exact lowered_verbatim ds (by rw [List.map_cons, hc, List.map_cons, hd]; rfl)

/-! ### All lexemes -/

theorem cut_of_letter {c : Char} (h : c.isAlpha = true ∧ Text.isAlphabetic c = true ∧
    c.isDigit = false) (cs : List Char) : cut c cs = word (c :: cs) := by
  obtain ⟨ha, hb, hd⟩ := h
  have hne : ∀ {x : Char}, x.isAlpha = false → c ≠ x := by
    rintro x hx rfl
    rw [ha] at hx
    cases hx
  have hsingle : singleSign? c = none := by
    refine Option.eq_none_iff_forall_ne_some.2 fun kind h => ?_
    rw [isAlpha_of_singleSign? h] at ha
    cases ha
  have hdouble : ∀ d, doubleSign? c d = none := by
    refine fun d => Option.eq_none_iff_forall_ne_some.2 fun kind h => ?_
    rw [(isAlpha_of_doubleSign? h).1] at ha
    cases ha
  have hsign : sign? c cs = none := by
    cases cs <;> simp [sign?, hsingle, hdouble]
  unfold cut
  rw [hsign]
  simp [hne (x := '#') (by decide), hne (x := '/') (by decide), hne (x := '"') (by decide),
    hne (x := '\'') (by decide), hne (x := '\x7b') (by decide), hne (x := '@') (by decide),
    hne (x := '-') (by decide), hd, hb]

theorem head?_toLower {x : Char} (hx : x.isAlpha = false) (cs : List Char) :
    (cs.map Char.toLower).head? = some x ↔ cs.head? = some x := by
  cases cs with
  | nil => simp
  | cons c cs => simpa using Text.toLower_eq_iff hx c

theorem any_head?_toLower {p : Char → Bool} (hp : ∀ c : Char, p c.toLower = p c) (cs : List Char) :
    (cs.map Char.toLower).head?.any p = cs.head?.any p := by
  cases cs with
  | nil => rfl
  | cons c cs => exact hp c

theorem lowered_cut (c : Char) (cs : List Char) :
    Cut.Lowered (cut c.toLower (cs.map Char.toLower)) (cut c cs) := by
  by_cases hc : c.isUpper = true
  · have hletters : ∀ c ∈ Text.capitals,
        (c.isAlpha = true ∧ Text.isAlphabetic c = true ∧ c.isDigit = false) ∧
        c.toLower.isAlpha = true ∧ Text.isAlphabetic c.toLower = true ∧
          c.toLower.isDigit = false := Text.forall_capitals (by decide)
    obtain ⟨hu, hl⟩ := hletters c (Text.mem_capitals hc)
    rw [cut_of_letter hu, cut_of_letter hl]
    exact lowered_word (c :: cs)
  have hl := Text.toLower_of_not_isUpper hc
  have hcons : c :: cs.map Char.toLower = (c :: cs).map Char.toLower := by rw [List.map_cons, hl]
  rw [hl]
  unfold cut
  simp only [head?_toLower (show '/'.isAlpha = false by decide),
    head?_toLower (show '\x7b'.isAlpha = false by decide), any_head?_toLower isWordChar_toLower,
    any_head?_toLower Text.isDigit_toLower]
  split
  · rw [hcons]
    exact lowered_comment (c :: cs)
  split
  · next h =>
    refine lowered_quoted ?_ hl cs
    rcases (by simpa using h : c = '"' ∨ c = '\'') with rfl | rfl <;> decide
  split
  · rw [← List.map_tail]
    exact lowered_env cs.tail
  rcases lowered_sign? hl cs with ⟨h, h'⟩ | ⟨small, found, h, h', hlow⟩
  · rw [h, h']
    dsimp only
    split
    · exact lowered_tag cs
    split
    · exact lowered_number rfl cs
    split
    · rw [hcons]
      exact lowered_number rfl (c :: cs)
    split
    · rw [hcons]
      exact lowered_word (c :: cs)
    · exact ⟨congrArg (fun x => [x]) hl.symm, rfl, rfl⟩
  · rw [h, h']
    exact hlow

end Lexeme

/-! ## Scripts -/

theorem Position.next_toLower (pos : Position) (c : Char) : pos.next c.toLower = pos.next c := by
  unfold next
  simp only [Text.toLower_eq_iff (show '\n'.isAlpha = false by decide)]

theorem Position.after_toLower (pos : Position) (cs : List Char) :
    pos.after (cs.map Char.toLower) = pos.after cs := by
  induction cs generalizing pos with
  | nil => rfl
  | cons c cs ih => rw [List.map_cons, after_cons, after_cons, next_toLower, ih]

/-- The lexemes of a text in small letters are those of the text, at the same places. -/
theorem scan_toLower (pos : Position) (cs : List Char) :
    (scan pos (cs.map Char.toLower)).1.map (Prod.map id (Lexeme.reword .caseless)) =
        (scan pos cs).1.map (Prod.map id (Lexeme.reword .caseless)) ∧
      (scan pos (cs.map Char.toLower)).2 = (scan pos cs).2 := by
  fun_induction scan pos cs with
  | case1 pos => simp [scan]
  | case2 pos c cs hb ih =>
    rw [List.map_cons, scan_blank (by rwa [Text.isBlank_toLower]), Position.next_toLower]
    exact ih
  | case3 pos c cs hb cut found last heq ih =>
    have hlow := Lexeme.lowered_cut c cs
    rw [heq] at ih
    rw [List.map_cons, scan_lexeme (by rwa [Text.isBlank_toLower]), hlow.segment, hlow.rest,
      Position.after_toLower]
    refine ⟨?_, ih.2⟩
    rw [List.map_cons, List.map_cons, ih.1]
    exact congrArg (· :: _) (congrArg (Prod.mk pos) hlow.lexeme)

theorem tokenize_toLower (source : String) :
    (tokenize source.toLower).tokens.map (Token.reword .caseless) =
        (tokenize source).tokens.map (Token.reword .caseless) ∧
      (tokenize source.toLower).errors = (tokenize source).errors := by
  obtain ⟨hfound, hlast⟩ := scan_toLower .start source.toList
  have htoken : ∀ found : List (Position × Lexeme),
      (found.filterMap Lexeme.token?).map (Token.reword .caseless) =
        (found.map (Prod.map id (Lexeme.reword .caseless))).filterMap Lexeme.token? := by
    intro found
    rw [List.filterMap_map, List.map_filterMap]
    refine List.filterMap_congr fun x _ => ?_
    obtain ⟨pos, lexeme⟩ := x
    cases lexeme <;> rfl
  have herror : ∀ found : List (Position × Lexeme), found.filterMap Lexeme.error? =
      (found.map (Prod.map id (Lexeme.reword .caseless))).filterMap Lexeme.error? := by
    intro found
    rw [List.filterMap_map]
    refine List.filterMap_congr fun x _ => ?_
    obtain ⟨pos, lexeme⟩ := x
    cases lexeme <;> rfl
  rw [tokenize, tokenize, Text.toList_toLower]
  dsimp only
  constructor
  · rw [List.map_append, List.map_append, htoken, htoken, hfound, hlast]
  · rw [herror, hfound, ← herror]

/-- What two scripts have in common that are read alike. -/
structure ReadAlike (w : Wording) (a b : String) : Prop where
  /-- The tokens have the same kinds and places, and their values are worded alike. -/
  tokens : (tokenize a).tokens.map (Token.reword w) = (tokenize b).tokens.map (Token.reword w)
  lexErrors : (tokenize a).errors = (tokenize b).errors
  /-- The faults are of the same sorts, at the same places, with the same expectations. -/
  syntaxErrors : (parseText a).errors.map (SyntaxError.reword w) =
    (parseText b).errors.map (SyntaxError.reword w)
  program : (parseText a).program.reword w = (parseText b).program.reword w

/-- **Case does not matter**: scripts that differ only in the case of ASCII letters are read
    alike. -/
theorem readAlike_of_toLower (a b : String) (h : a.toLower = b.toLower) :
    ReadAlike .caseless a b := by
  have ha := tokenize_toLower a
  have hb := tokenize_toLower b
  rw [h] at ha
  have htokens := ha.1.symm.trans hb.1
  obtain ⟨hprogram, herrors⟩ := parse_of_reword htokens
  exact ⟨htokens, ha.2.symm.trans hb.2, herrors, hprogram⟩

/-- A script in small letters, with a fault in its scenario. -/
def quietScript : String :=
  "page home \x7b field note = \"a\\nb\" \x7d feature f \x7b scenario s \x7b click \x7d \x7d ?"

/-- The same script in capital letters, where no escape is left in its text. -/
def loudScript : String :=
  "PAGE HOME \x7b FIELD NOTE = \"A\\NB\" \x7d FEATURE F \x7b SCENARIO S \x7b CLICK \x7d \x7d ?"

theorem readAlike_of_toLower_loud : quietScript.toLower = loudScript.toLower ∧
    ReadAlike .caseless quietScript loudScript ∧
    ((parseText quietScript).program.pages.flatMap (·.fields)).map (·.selector) =
      [.text "a\nb"] ∧
    ((parseText loudScript).program.pages.flatMap (·.fields)).map (·.selector) =
      [.text "A\\NB"] := by
  have hcase : quietScript.toLower = loudScript.toLower := by
    refine String.toList_inj.1 ?_
    rw [Text.toList_toLower, Text.toList_toLower]
    decide +kernel
  refine ⟨hcase, readAlike_of_toLower quietScript loudScript hcase, ?_⟩
  decide +kernel

end UiScenario
