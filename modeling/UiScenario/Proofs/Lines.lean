import UiScenario.Token.Scan

/-!
Tokens line by line. No lexeme reaches over a line feed, and what is read at the end of a text is
also read in front of a line feed, so the lines of a script are read apart from each other.
-/

namespace UiScenario

/-! ## Places further down -/

def Position.down (n : Nat) (p : Position) : Position :=
  ⟨p.line + n, p.column⟩

def Token.down (n : Nat) (t : Token) : Token :=
  { t with pos := t.pos.down n }

def LexError.down (n : Nat) (e : LexError) : LexError :=
  { e with pos := e.pos.down n }

namespace Position

theorem next_down (n : Nat) (p : Position) (c : Char) : (p.down n).next c = (p.next c).down n := by
  unfold next down
  by_cases hc : c = '\n'
  · simp only [hc, ↓reduceIte, Position.mk.injEq, and_true]; omega
  · simp only [hc, ↓reduceIte]

theorem after_down (n : Nat) (p : Position) (cs : List Char) :
    (p.down n).after cs = (p.after cs).down n := by
  induction cs generalizing p with
  | nil => rfl
  | cons c cs ih => rw [after_cons, after_cons, next_down, ih]

/-- Only line feeds lead to further lines. -/
theorem after_line (p : Position) (cs : List Char) :
    (p.after cs).line = p.line + cs.count '\n' := by
  induction cs generalizing p with
  | nil => rfl
  | cons c cs ih =>
    rw [after_cons, ih, List.count_cons, next]
    by_cases hc : c = '\n'
    · simp only [hc, ↓reduceIte, beq_self_eq_true]; omega
    · simp [hc]

theorem after_newline (cs : List Char) :
    start.after (cs ++ ['\n']) = start.down (cs.count '\n' + 1) := by
  have hl := after_line start cs
  rw [after_append, after_cons, after_nil, next, if_pos rfl, hl, down]
  simp only [start, Position.mk.injEq, and_true]; omega

end Position

/-! ## A line feed behind a text -/

namespace Lexeme

section
variable {p : Char → Bool} (hp : p '\n' = false) (cs tail : List Char)
include hp

theorem takeWhile_append_newline : (cs ++ '\n' :: tail).takeWhile p = cs.takeWhile p := by
  induction cs with
  | nil => simp [hp]
  | cons c cs ih => simp only [List.cons_append, List.takeWhile_cons, ih]

theorem dropWhile_append_newline :
    (cs ++ '\n' :: tail).dropWhile p = cs.dropWhile p ++ '\n' :: tail := by
  induction cs with
  | nil => simp [hp]
  | cons c cs ih =>
    simp only [List.cons_append, List.dropWhile_cons, ih]
    split <;> rfl

end

/-- The same stretch with a line feed and further text behind it. -/
def Cut.before (k : Cut) (tail : List Char) : Cut :=
  { k with rest := k.rest ++ '\n' :: tail }

variable (tail : List Char)

theorem comment_append_newline (cs : List Char) :
    comment (cs ++ '\n' :: tail) = (comment cs).before tail := by
  unfold comment Cut.before
  rw [takeWhile_append_newline (by decide), dropWhile_append_newline (by decide)]

theorem quotedBody_cons {quote c : Char} (hc : c ≠ '\\') (rest : List Char) :
    quotedBody quote (c :: rest) =
      if c = quote then ([c], some [], rest)
      else if c = '\n' then ([], none, c :: rest)
      else (c :: (quotedBody quote rest).1, (quotedBody quote rest).2.1.map (c :: ·),
        (quotedBody quote rest).2.2) := by
  rw [quotedBody]
  · rintro rfl; exact absurd rfl hc
  · rintro d ds rfl; exact absurd rfl hc

theorem ne_backslash {c : Char} {rest : List Char} (h₁ : c = '\\' → rest = [] → False)
    (h₂ : ∀ d ds, c = '\\' → rest = d :: ds → False) : c ≠ '\\' := by
  intro hc
  cases rest with
  | nil => exact h₁ hc rfl
  | cons d ds => exact h₂ d ds hc rfl

/-- A quoted text reaches at most to the end of its line. -/
theorem quotedBody_append_newline {quote : Char} (hq : quote ≠ '\n') (cs : List Char) :
    quotedBody quote (cs ++ '\n' :: tail) =
      ((quotedBody quote cs).1, (quotedBody quote cs).2.1,
        (quotedBody quote cs).2.2 ++ '\n' :: tail) := by
  -- a backslash takes the next character with it, so the cases are those of `quotedBody`
  fun_induction quotedBody quote cs with
  | case1 => rw [List.nil_append, quotedBody_cons (by decide), if_neg hq.symm, if_pos rfl]
  | case2 => simp [quotedBody]
  | case3 rest => simp [quotedBody]
  | case4 c rest hc used text rest' heq ih =>
    rw [heq] at ih
    simp [quotedBody, hc, ih]
  | case5 rest h₁ h₂ =>
    rw [List.cons_append, quotedBody_cons (ne_backslash h₁ h₂), if_pos rfl]
  | case6 rest h₁ h₂ h₃ =>
    rw [List.cons_append, quotedBody_cons (by decide), if_neg hq.symm, if_pos rfl]
  | case7 c rest h₁ h₂ h₃ h₄ used text rest' heq ih =>
    rw [heq] at ih
    rw [List.cons_append, quotedBody_cons (ne_backslash h₁ h₂), if_neg h₃, if_neg h₄, ih]

theorem quoted_append_newline {quote : Char} (hq : quote ≠ '\n') (cs : List Char) :
    quoted quote (cs ++ '\n' :: tail) = (quoted quote cs).before tail := by
  simp only [quoted, quotedBody_append_newline tail hq, Cut.before]

theorem envBody_cons {c : Char} {rest : List Char}
    (h : ∀ ds, c = '\x7d' → rest = '\x7d' :: ds → False) :
    envBody (c :: rest) =
      if c = '\n' then ([], [], c :: rest)
      else (c :: (envBody rest).1, (envBody rest).2.1, (envBody rest).2.2) := by
  rw [envBody]
  rintro ds rfl rfl; exact h ds rfl rfl

/-- A reference to the environment reaches at most to the end of its line. -/
theorem envBody_append_newline (cs : List Char) :
    envBody (cs ++ '\n' :: tail) =
      ((envBody cs).1, (envBody cs).2.1, (envBody cs).2.2 ++ '\n' :: tail) := by
  fun_induction envBody cs with
  | case1 => rw [List.nil_append, envBody_cons (by simp), if_pos rfl]
  | case2 rest => simp [envBody]
  | case3 rest h => rw [List.cons_append, envBody_cons (by simp), if_pos rfl]
  | case4 c rest h hc name braces rest' heq ih =>
    have h' : ∀ ds, c = '\x7d' → rest ++ '\n' :: tail = '\x7d' :: ds → False := by
      -- one closing brace at the end of the text: the line feed is not the other
      intro ds hd he
      cases rest with
      | nil => simp at he
      | cons d ds' =>
        simp only [List.cons_append, List.cons.injEq] at he
        exact h ds' hd (by rw [he.1])
    rw [heq] at ih
    rw [List.cons_append, envBody_cons h', if_neg hc, ih]

theorem env_append_newline (cs : List Char) :
    env (cs ++ '\n' :: tail) = (env cs).before tail := by
  simp only [env, envBody_append_newline, Cut.before]

theorem startsFraction_append_newline (cs : List Char) :
    startsFraction (cs ++ '\n' :: tail) = startsFraction cs := by
  match cs with
  | [] => rfl
  | [c] => by_cases hc : c = '.' <;> simp [startsFraction, hc]
  | c :: d :: ds => by_cases hc : c = '.' <;> simp [startsFraction, hc]

theorem number_append_newline (sign cs : List Char) :
    number sign (cs ++ '\n' :: tail) = (number sign cs).before tail := by
  have hd : Char.isDigit '\n' = false := by decide
  simp only [number, takeWhile_append_newline hd, dropWhile_append_newline hd,
    startsFraction_append_newline]
  by_cases h₁ : startsFraction (cs.dropWhile Char.isDigit)
  · -- the point is in front of the line feed, and so is what follows the point
    obtain ⟨r, hr⟩ : ∃ r, cs.dropWhile Char.isDigit = '.' :: r :=
      ⟨_, (eq_cons_of_startsFraction h₁).symm⟩
    rw [if_pos h₁, if_pos h₁, hr]
    simp only [List.cons_append, List.tail_cons, takeWhile_append_newline hd,
      dropWhile_append_newline hd, startsFraction_append_newline]
    by_cases h₂ : startsFraction (r.dropWhile Char.isDigit)
    · have ht := takeWhile_append_newline (p := fun c => c.isDigit || c = '.') (by decide)
      have hr' := dropWhile_append_newline (p := fun c => c.isDigit || c = '.') (by decide)
      simp only [h₂, ↓reduceIte, ht, hr', Cut.before]
    · simp only [h₂, Bool.false_eq_true, ↓reduceIte, verbatim, Cut.before]
  · rw [if_neg h₁, if_neg h₁]; rfl

theorem isWordChar_newline : isWordChar '\n' = false := by decide +kernel

theorem word_append_newline (cs : List Char) :
    word (cs ++ '\n' :: tail) = (word cs).before tail := by
  simp only [word, takeWhile_append_newline isWordChar_newline,
    dropWhile_append_newline isWordChar_newline]
  rfl

theorem tag_append_newline (cs : List Char) :
    tag (cs ++ '\n' :: tail) = (tag cs).before tail := by
  have ht : isTagChar '\n' = false := by simp [isTagChar, isWordChar_newline]
  simp only [tag, takeWhile_append_newline ht, dropWhile_append_newline ht, Cut.before]

theorem doubleSign?_newline (c : Char) : doubleSign? c '\n' = none := by
  unfold doubleSign?
  split <;> simp_all

theorem sign?_append_newline (c : Char) (cs : List Char) :
    sign? c (cs ++ '\n' :: tail) = (sign? c cs).map (·.before tail) := by
  cases cs with
  | nil =>
    simp only [sign?, List.nil_append, doubleSign?_newline]
    cases singleSign? c <;> rfl
  | cons d ds =>
    simp only [sign?, List.cons_append]
    cases doubleSign? c d with
    | some kind => rfl
    | none => cases singleSign? c <;> rfl

theorem head?_append_newline {d : Char} (hd : d ≠ '\n') (cs : List Char) :
    (cs ++ '\n' :: tail).head? = some d ↔ cs.head? = some d := by
  cases cs with
  | nil => simp [hd.symm]
  | cons c cs => rfl

theorem any_head?_append_newline {p : Char → Bool} (hp : p '\n' = false) (cs : List Char) :
    (cs ++ '\n' :: tail).head?.any p = cs.head?.any p := by
  cases cs with
  | nil => simp [hp]
  | cons c cs => rfl

/-- **The end of a line is like the end of the text**: a line feed and further text behind a text
    are left to the rest. -/
theorem cut_append_newline {c : Char} (hc : c ≠ '\n') (cs : List Char) :
    cut c (cs ++ '\n' :: tail) = (cut c cs).before tail := by
  unfold cut
  simp only [head?_append_newline tail (show '/' ≠ '\n' by decide),
    head?_append_newline tail (show '\x7b' ≠ '\n' by decide), sign?_append_newline,
    any_head?_append_newline tail isWordChar_newline,
    any_head?_append_newline tail (show Char.isDigit '\n' = false by decide)]
  split
  · exact comment_append_newline tail (c :: cs)
  split
  · exact quoted_append_newline tail hc cs
  split
  · next h =>
    -- the second brace is in front of the line feed
    cases cs with
    | nil => simp at h
    | cons d ds => exact env_append_newline tail ds
  cases sign? c cs with
  | some found => rfl
  | none =>
    simp only [Option.map_none]
    split
    · exact tag_append_newline tail cs
    split
    · exact number_append_newline tail ['-'] cs
    split
    · exact number_append_newline tail [] (c :: cs)
    split
    · exact word_append_newline tail (c :: cs)
    · rfl

end Lexeme

/-! ## Texts with a line feed between them -/

theorem isBlank_newline : Text.isBlank '\n' = true := by decide

theorem scan_blank {c : Char} (hb : Text.isBlank c = true) (pos : Position) (cs : List Char) :
    scan pos (c :: cs) = scan (pos.next c) cs := by
  rw [scan, if_pos hb]

theorem scan_lexeme {c : Char} (hb : ¬ Text.isBlank c = true) (pos : Position) (cs : List Char) :
    scan pos (c :: cs) =
      ((pos, (Lexeme.cut c cs).lexeme) ::
          (scan (pos.after (Lexeme.cut c cs).segment) (Lexeme.cut c cs).rest).1,
        (scan (pos.after (Lexeme.cut c cs).segment) (Lexeme.cut c cs).rest).2) := by
  rw [scan, if_neg hb]

/-- The lexemes of a text `n` lines further down are its lexemes, `n` lines further down. -/
theorem scan_down (n : Nat) (pos : Position) (cs : List Char) :
    scan (pos.down n) cs =
      ((scan pos cs).1.map fun (p, l) => (p.down n, l), (scan pos cs).2.down n) := by
  fun_induction scan pos cs with
  | case1 pos => simp [scan]
  | case2 pos c cs hb ih => rw [scan_blank hb, Position.next_down, ih]
  | case3 pos c cs hb cut found last heq ih =>
    rw [heq] at ih
    rw [scan_lexeme hb, Position.after_down, ih]; rfl

/-- **Lines are read apart.** The lexemes of two texts with a line feed between them are those of
    the first text and then those of the second, which starts on a line of its own. -/
theorem scan_append_newline (tail : List Char) (pos : Position) (cs : List Char) :
    scan pos (cs ++ '\n' :: tail) =
      ((scan pos cs).1 ++ (scan (pos.after (cs ++ ['\n'])) tail).1,
        (scan (pos.after (cs ++ ['\n'])) tail).2) := by
  fun_induction scan pos cs with
  | case1 pos => simp [scan, isBlank_newline]
  | case2 pos c cs hb ih => rw [List.cons_append, scan_blank hb, ih]; rfl
  | case3 pos c cs hb cut found last heq ih =>
    have hc : c ≠ '\n' := by rintro rfl; exact hb isBlank_newline
    have hp : (pos.after cut.segment).after (cut.rest ++ ['\n']) =
        pos.after (c :: cs ++ ['\n']) := by
      rw [← Position.after_append, ← List.append_assoc, Lexeme.segment_append_rest]
    rw [heq, hp] at ih
    rw [List.cons_append, scan_lexeme hb, Lexeme.cut_append_newline tail hc]
    simp only [Lexeme.Cut.before]
    rw [ih]; rfl

theorem scan_line (pos : Position) {cs : List Char} (h : '\n' ∉ cs) :
    (∀ x ∈ (scan pos cs).1, x.1.line = pos.line) ∧ (scan pos cs).2.line = pos.line := by
  fun_induction scan pos cs with
  | case1 pos => simp
  | case2 pos c cs hb ih =>
    have hl : (pos.next c).line = pos.line := by
      rw [Position.next, if_neg (by rintro rfl; simp at h)]
    rw [← hl]; exact ih fun hm => h (List.mem_cons_of_mem c hm)
  | case3 pos c cs hb cut found last heq ih =>
    have hs : '\n' ∉ cut.segment ++ cut.rest := by rwa [Lexeme.segment_append_rest]
    rw [List.mem_append, not_or] at hs
    have hl : (pos.after cut.segment).line = pos.line := by
      rw [Position.after_line, List.count_eq_zero.2 hs.1, Nat.add_zero]
    obtain ⟨hf, hlast⟩ := ih hs.2
    rw [heq, hl] at hf hlast
    refine ⟨fun x hx => ?_, hlast⟩
    rcases List.mem_cons.1 hx with rfl | hx
    · rfl
    · exact hf x hx

/-! ## Scripts -/

theorem token?_down (n : Nat) (found : List (Position × Lexeme)) :
    (found.map fun (p, l) => (p.down n, l)).filterMap Lexeme.token? =
      (found.filterMap Lexeme.token?).map (Token.down n) := by
  rw [List.filterMap_map, List.map_filterMap]
  congr 1; funext ⟨p, l⟩
  cases l <;> rfl

theorem error?_down (n : Nat) (found : List (Position × Lexeme)) :
    (found.map fun (p, l) => (p.down n, l)).filterMap Lexeme.error? =
      (found.filterMap Lexeme.error?).map (LexError.down n) := by
  rw [List.filterMap_map, List.map_filterMap]
  congr 1; funext ⟨p, l⟩
  cases l <;> rfl

/-- How many lines a script is above what stands behind it and a line feed. -/
def lineCount (u : String) : Nat :=
  1 + u.toList.count '\n'

theorem scan_append (u v : String) :
    scan .start (u ++ "\n" ++ v).toList =
      ((scan .start u.toList).1 ++
          (scan .start v.toList).1.map fun (p, l) => (p.down (lineCount u), l),
        (scan .start v.toList).2.down (lineCount u)) := by
  have hc : (u ++ "\n" ++ v).toList = u.toList ++ '\n' :: v.toList := by simp
  rw [hc, scan_append_newline, Position.after_newline, scan_down, lineCount, Nat.add_comm]

theorem tokens_append (u v : String) :
    (tokenize (u ++ "\n" ++ v)).tokens =
      (tokenize u).tokens.dropLast ++ (tokenize v).tokens.map (Token.down (lineCount u)) := by
  simp only [tokenize, scan_append, List.filterMap_append, token?_down, List.map_append,
    List.dropLast_concat, List.append_assoc]
  rfl

theorem errors_append (u v : String) :
    (tokenize (u ++ "\n" ++ v)).errors =
      (tokenize u).errors ++ (tokenize v).errors.map (LexError.down (lineCount u)) := by
  simp only [tokenize, scan_append, List.filterMap_append, error?_down]

/-- What is not on a line: the other tokens and the other faults. -/
def Lexing.offLine (k : Nat) (l : Lexing) : List Token × List LexError :=
  (l.tokens.filter (·.line ≠ k), l.errors.filter (·.line ≠ k))

theorem tokens_line {w : String} (hw : '\n' ∉ w.toList) :
    ∀ t ∈ (tokenize w).tokens, t.line = 1 := by
  obtain ⟨hf, hlast⟩ := scan_line .start hw
  intro t ht
  rcases List.mem_append.1 ht with ht | ht
  · obtain ⟨⟨p, kind | fault⟩, hx, ht⟩ := List.mem_filterMap.1 ht
    · cases ht; exact hf _ hx
    · cases ht
  · rw [List.mem_singleton.1 ht]; exact hlast

theorem errors_line {w : String} (hw : '\n' ∉ w.toList) :
    ∀ e ∈ (tokenize w).errors, e.line = 1 := by
  obtain ⟨hf, -⟩ := scan_line .start hw
  intro e he
  obtain ⟨⟨p, kind | fault⟩, hx, he⟩ := List.mem_filterMap.1 he
  · cases he
  · cases he; exact hf _ hx

theorem filter_down_tokens (n k : Nat) (ts : List Token) :
    (ts.map (Token.down n)).filter (·.line ≠ k + n) =
      (ts.filter (·.line ≠ k)).map (Token.down n) := by
  rw [List.filter_map]
  congr 2; funext t
  exact decide_eq_decide.2 (by simp [Token.line, Token.down, Position.down])

theorem filter_down_errors (n k : Nat) (es : List LexError) :
    (es.map (LexError.down n)).filter (·.line ≠ k + n) =
      (es.filter (·.line ≠ k)).map (LexError.down n) := by
  rw [List.filter_map]
  congr 2; funext e
  exact decide_eq_decide.2 (by simp [LexError.line, LexError.down, Position.down])

/-- Behind a line feed, what is not on a line is what was not on it before. -/
theorem offLine_append (u v : String) (k : Nat) :
    (tokenize (u ++ "\n" ++ v)).offLine (k + lineCount u) =
      ((tokenize u).tokens.dropLast.filter (·.line ≠ k + lineCount u) ++
          ((tokenize v).offLine k).1.map (Token.down (lineCount u)),
        (tokenize u).errors.filter (·.line ≠ k + lineCount u) ++
          ((tokenize v).offLine k).2.map (LexError.down (lineCount u))) := by
  simp only [Lexing.offLine, tokens_append, errors_append, List.filter_append, filter_down_tokens,
    filter_down_errors]

theorem offLine_line {w : String} (hw : '\n' ∉ w.toList) : (tokenize w).offLine 1 = ([], []) := by
  simp only [Lexing.offLine, Prod.mk.injEq, List.filter_eq_nil_iff]
  exact ⟨fun t ht => by simp [tokens_line hw t ht], fun e he => by simp [errors_line hw e he]⟩

/-- What is not on the first line does not depend on the first line. -/
theorem offLine_first {w post : String} (hw : '\n' ∉ w.toList)
    (hpost : post = "" ∨ ∃ v, post = "\n" ++ v) :
    (tokenize (w ++ post)).offLine 1 = (tokenize post).offLine 1 := by
  rcases hpost with rfl | ⟨v, rfl⟩
  · rw [String.append_empty, offLine_line hw, offLine_line (by simp)]
  · have key : ∀ x : String, '\n' ∉ x.toList →
        (tokenize (x ++ ("\n" ++ v))).offLine 1 =
          (((tokenize v).offLine 0).1.map (Token.down 1),
            ((tokenize v).offLine 0).2.map (LexError.down 1)) := by
      intro x hx
      have hn : lineCount x = 1 := by rw [lineCount, List.count_eq_zero.2 hx]
      have ht : (tokenize x).tokens.dropLast.filter (·.line ≠ 1) = [] :=
        List.filter_eq_nil_iff.2 fun t ht => by
          simp [tokens_line hx t (List.dropLast_subset _ ht)]
      have he : (tokenize x).errors.filter (·.line ≠ 1) = [] :=
        List.filter_eq_nil_iff.2 fun e he => by simp [errors_line hx e he]
      have h := offLine_append x v 0
      rw [hn, Nat.zero_add, ht, he] at h
      rw [← String.append_assoc]; exact h
    rw [key w hw]
    exact (key "" (by simp)).symm

/-- What is not on a line does not depend on the line. -/
theorem offLine_congr {pre w w' post : String} (hpre : pre = "" ∨ ∃ u, pre = u ++ "\n")
    (hpost : post = "" ∨ ∃ v, post = "\n" ++ v) (hw : '\n' ∉ w.toList) (hw' : '\n' ∉ w'.toList) :
    (tokenize (pre ++ w ++ post)).offLine (lineCount pre) =
      (tokenize (pre ++ w' ++ post)).offLine (lineCount pre) := by
  have h : (tokenize (w ++ post)).offLine 1 = (tokenize (w' ++ post)).offLine 1 :=
    (offLine_first hw hpost).trans (offLine_first hw' hpost).symm
  rcases hpre with rfl | ⟨u, rfl⟩
  · rw [String.empty_append, String.empty_append]; exact h
  · have hn : lineCount (u ++ "\n") = 1 + lineCount u := by simp [lineCount]; omega
    have ha : ∀ x : String, u ++ "\n" ++ x ++ post = u ++ "\n" ++ (x ++ post) :=
      fun x => String.append_assoc
    rw [ha, ha, hn, offLine_append, offLine_append, h]

/-- **Lexing is line-local.** The tokens of two texts with a line feed between them are those of the
    first without its end and those of the second further down, and likewise the faults. So what
    stands on one line, be it faulty or not, changes nothing on the other lines. -/
theorem tokenize_line_local :
    (∀ u v : String,
      (tokenize (u ++ "\n" ++ v)).tokens =
          (tokenize u).tokens.dropLast ++
            (tokenize v).tokens.map (Token.down (1 + u.toList.count '\n')) ∧
        (tokenize (u ++ "\n" ++ v)).errors =
          (tokenize u).errors ++
            (tokenize v).errors.map (LexError.down (1 + u.toList.count '\n'))) ∧
    ∀ pre w w' post : String, (pre = "" ∨ ∃ u, pre = u ++ "\n") →
      (post = "" ∨ ∃ v, post = "\n" ++ v) → '\n' ∉ w.toList → '\n' ∉ w'.toList →
      (tokenize (pre ++ w ++ post)).offLine (1 + pre.toList.count '\n') =
        (tokenize (pre ++ w' ++ post)).offLine (1 + pre.toList.count '\n') :=
  ⟨fun u v => ⟨tokens_append u v, errors_append u v⟩,
    fun _ _ _ _ hpre hpost hw hw' => offLine_congr hpre hpost hw hw'⟩

/-- A text that is not closed is a fault of its line; the lines around it keep their tokens. -/
theorem tokenize_line_local_unterminated :
    ("OPEN \"/\"\n" = "" ∨ ∃ u, "OPEN \"/\"\n" = u ++ "\n") ∧
      ("\nREFRESH" = "" ∨ ∃ v, "\nREFRESH" = "\n" ++ v) ∧
      '\n' ∉ "LOG 'oops \\".toList ∧ '\n' ∉ "CLICK ok".toList ∧
      (tokenize ("OPEN \"/\"\n" ++ "LOG 'oops \\" ++ "\nREFRESH")).offLine
          (1 + "OPEN \"/\"\n".toList.count '\n') =
        (tokenize ("OPEN \"/\"\n" ++ "CLICK ok" ++ "\nREFRESH")).offLine
          (1 + "OPEN \"/\"\n".toList.count '\n') := by
  have h₁ : "OPEN \"/\"\n" = "" ∨ ∃ u, "OPEN \"/\"\n" = u ++ "\n" :=
    Or.inr ⟨"OPEN \"/\"", by decide⟩
  have h₂ : "\nREFRESH" = "" ∨ ∃ v, "\nREFRESH" = "\n" ++ v := Or.inr ⟨"REFRESH", by decide⟩
  have h₃ : '\n' ∉ "LOG 'oops \\".toList := by decide
  have h₄ : '\n' ∉ "CLICK ok".toList := by decide
  exact ⟨h₁, h₂, h₃, h₄, tokenize_line_local.2 _ _ _ _ h₁ h₂ h₃ h₄⟩

end UiScenario
