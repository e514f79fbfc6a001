import UiScenario.Proofs.CaseTables
import UiScenario.Proofs.Segments
import UiScenario.Selection

/-!
Filters of tags. A selection compares tags in their normal form, and `withTag` and `withoutTag` keep
a tag in its normal form already, so a tag that is given to them is normalized twice. That makes no
difference unless the tag is `Loose`: blanks behind `@` survive the first time and not the second.
-/

namespace UiScenario

/-! ## Small letters -/

namespace Text

variable {before cs : List Char} {c : Char}

theorem lowerAfter_settled (h : ∀ c ∈ cs, Settled c) (before : List Char) :
    lowerAfter before cs = cs := by
  induction cs generalizing before with
  | nil => rfl
  | cons c cs ih =>
    obtain ⟨image, heq, -, ⟨-, himage⟩ | ⟨hn, -⟩⟩ := lowerAfter_cons before c cs
    · rw [heq, himage, ih (fun d hd => h d (List.mem_cons_of_mem _ hd)), List.singleton_append]
    · exact absurd (h c List.mem_cons_self) hn

theorem settled_of_mem_lowerAfter : ∀ e ∈ lowerAfter before cs, Settled e := by
  induction cs generalizing before with
  | nil => exact fun e he => absurd he List.not_mem_nil
  | cons c cs ih =>
    obtain ⟨image, heq, -, himage⟩ := lowerAfter_cons before c cs
    intro e he
    rw [heq] at he
    rcases List.mem_append.1 he with he | he
    · rcases himage with ⟨hs, rfl⟩ | ⟨-, hsmall⟩
      · rwa [List.mem_singleton.1 he]
      · exact (hsmall e he).settled
    · exact ih e he

theorem mem_head?_lowerAfter {e : Char} (h : e ∈ (lowerAfter before cs).head?) :
    e ∈ cs.head? ∨ IsSmall e := by
  cases cs with
  | nil => exact .inl h
  | cons c cs =>
    obtain ⟨image, heq, hne, himage⟩ := lowerAfter_cons before c cs
    obtain ⟨d, ds, rfl⟩ := List.exists_cons_of_ne_nil hne
    rw [heq] at h
    obtain rfl : d = e := Option.some.inj h
    rcases himage with ⟨-, himage⟩ | ⟨-, hsmall⟩
    · exact .inl (by rw [(List.cons.inj himage).1]; rfl)
    · exact .inr (hsmall d List.mem_cons_self)

theorem lowerAfter_ne_nil (h : cs ≠ []) : lowerAfter before cs ≠ [] := by
  obtain ⟨c, cs, rfl⟩ := List.exists_cons_of_ne_nil h
  obtain ⟨image, heq, hne, -⟩ := lowerAfter_cons before c cs
  rw [heq]
  exact List.append_ne_nil_of_left_ne_nil hne _

theorem mem_getLast?_lowerAfter {e : Char} (h : e ∈ (lowerAfter before cs).getLast?) :
    e ∈ cs.getLast? ∨ IsSmall e := by
  induction cs generalizing before with
  | nil => exact .inl h
  | cons c cs ih =>
    obtain ⟨image, heq, -, himage⟩ := lowerAfter_cons before c cs
    rw [heq] at h
    by_cases hcs : cs = []
    · subst hcs
      have h : e ∈ image := List.mem_of_getLast? (by rwa [lowerAfter, List.append_nil] at h)
      rcases himage with ⟨-, rfl⟩ | ⟨-, hsmall⟩
      · rw [List.mem_singleton.1 h]
        exact .inl rfl
      · exact .inr (hsmall e h)
    · rw [List.getLast?_append, List.getLast?_eq_some_getLast (lowerAfter_ne_nil hcs),
        Option.some_or, ← List.getLast?_eq_some_getLast] at h
      rw [List.getLast?_cons_of_ne_nil hcs]
      exact ih h

theorem mem_head?_lowerAfter_of_settled (hc : c ∈ cs.head?) (hs : Settled c) (before : List Char) :
    c ∈ (lowerAfter before cs).head? := by
  obtain ⟨cs, rfl⟩ := List.head?_eq_some_iff.1 hc
  obtain ⟨image, heq, -, ⟨-, rfl⟩ | ⟨hn, -⟩⟩ := lowerAfter_cons before c cs
  · rw [heq]
    rfl
  · exact absurd hs hn

/-! ## Trimming -/

theorem dropWhile_eq_self {p : Char → Bool} (h : ∀ c ∈ cs.head?, p c = false) :
    cs.dropWhile p = cs := by
  cases cs with
  | nil => rfl
  | cons c cs => exact List.dropWhile_cons_of_neg (by simp [h c rfl])

theorem trim_eq_self (hhead : ∀ c ∈ cs.head?, isBlank c = false)
    (hlast : ∀ c ∈ cs.getLast?, isBlank c = false) : trim cs = cs := by
  rw [trim, dropWhile_eq_self hhead, trimRight, dropWhile_eq_self (by rwa [List.head?_reverse]),
    List.reverse_reverse]

theorem trim_sublist (cs : List Char) : (trim cs).Sublist cs := by
  have h := (List.dropWhile_sublist isBlank (l := (cs.dropWhile isBlank).reverse)).reverse
  rw [List.reverse_reverse] at h
  exact h.trans (List.dropWhile_sublist _)

theorem length_trim_lt (hc : c ∈ cs.head?) (hb : isBlank c = true) :
    (trim cs).length < cs.length := by
  obtain ⟨cs, rfl⟩ := List.head?_eq_some_iff.1 hc
  have htrim : trim (c :: cs) = trim cs := by rw [trim, trim, List.dropWhile_cons_of_pos hb]
  rw [htrim, List.length_cons]
  exact Nat.lt_succ_of_le (trim_sublist cs).length_le

end Text

/-! ## Normal forms of tags -/

/-- The characters of a tag without the blanks around it and the `@` in front. -/
def tagBody (tag : String) : List Char :=
  (Text.trim tag.toList).dropWhile (· == '@')

/-- A tag with blanks behind its `@`. -/
def Loose (tag : String) : Prop :=
  ∃ c ∈ (tagBody tag).head?, Text.isBlank c = true

theorem toList_normalizeTag (tag : String) :
    (normalizeTag tag).toList = Text.lowerAfter [] (tagBody tag) := by
  rw [normalizeTag, Text.lower, String.toList_ofList, String.toList_ofList, tagBody]

theorem ne_at_of_mem_head?_tagBody {tag : String} (h : c ∈ (tagBody tag).head?) : c ≠ '@' := by
  have := Lexeme.stopsAt_dropWhile (· == '@') (Text.trim tag.toList) c h
  simpa using this

theorem not_blank_of_mem_getLast?_tagBody {tag : String} (h : c ∈ (tagBody tag).getLast?) :
    Text.isBlank c = false := by
  obtain ⟨-, -, -, -, -, -, hlast⟩ := Lexeme.trimmed_trim tag.toList
  rw [tagBody, Option.mem_def] at h
  refine hlast c ?_
  rw [← List.takeWhile_append_dropWhile (p := (· == '@')) (l := Text.trim tag.toList),
    List.getLast?_append, h, Option.some_or, Option.mem_def]

/-- Normalization leaves the characters of a normal form alone, unless it cuts them off. -/
theorem toList_normalizeTag_normalizeTag (tag : String) :
    (normalizeTag (normalizeTag tag)).toList = tagBody (normalizeTag tag) := by
  rw [toList_normalizeTag]
  refine Text.lowerAfter_settled (fun c hc => ?_) []
  have hsub := (List.dropWhile_sublist (· == '@')).trans
    (Text.trim_sublist (normalizeTag tag).toList)
  have hmem := hsub.subset hc
  rw [toList_normalizeTag] at hmem
  exact Text.settled_of_mem_lowerAfter c hmem

/-- To normalize a tag again changes nothing just if it has no blanks behind its `@`. -/
theorem normalizeTag_normalizeTag (tag : String) :
    normalizeTag (normalizeTag tag) = normalizeTag tag ↔ ¬Loose tag := by
  rw [← String.toList_inj, toList_normalizeTag_normalizeTag]
  constructor
  · rintro heq ⟨c, hc, hb⟩
    have hhead : c ∈ (normalizeTag tag).toList.head? := by
      rw [toList_normalizeTag]
      exact Text.mem_head?_lowerAfter_of_settled hc (Text.settled_of_isBlank hb) []
    have hlt := Text.length_trim_lt hhead hb
    have hle : (tagBody (normalizeTag tag)).length ≤ _ := (List.dropWhile_sublist _).length_le
    rw [heq] at hle
    omega
  · intro hl
    have hhead : ∀ c ∈ (normalizeTag tag).toList.head?, Text.isBlank c = false ∧ c ≠ '@' := by
      intro c hc
      rw [toList_normalizeTag] at hc
      rcases Text.mem_head?_lowerAfter hc with h | h
      · exact ⟨Bool.eq_false_iff.2 fun hb => hl ⟨c, h, hb⟩, ne_at_of_mem_head?_tagBody h⟩
      · exact ⟨h.not_blank, h.ne_at⟩
    have hlast : ∀ c ∈ (normalizeTag tag).toList.getLast?, Text.isBlank c = false := by
      intro c hc
      rw [toList_normalizeTag] at hc
      rcases Text.mem_getLast?_lowerAfter hc with h | h
      · exact not_blank_of_mem_getLast?_tagBody h
      · exact h.not_blank
    rw [tagBody, Text.trim_eq_self (fun c hc => (hhead c hc).1) hlast]
    exact Text.dropWhile_eq_self fun c hc => by simpa using (hhead c hc).2

/-! ## Selections by tags -/

/-- A selection that has been given the tags `wanted` and the tags `refused`, in any order, and no
other criteria. -/
inductive Built (mode : TagMode) : List String → List String → Selection → Prop
  | none : Built mode [] [] { Selection.none with mode }
  | withTag {wanted refused : List String} {s : Selection} (tag : String) :
      Built mode wanted refused s → Built mode (wanted ++ [tag]) refused (s.withTag tag)
  | withoutTag {wanted refused : List String} {s : Selection} (tag : String) :
      Built mode wanted refused s → Built mode wanted (refused ++ [tag]) (s.withoutTag tag)

/-- The selection whose tags are the given texts. -/
def Selection.ofTags (mode : TagMode) (wanted refused : List String) : Selection :=
  { Selection.none with mode, include_ := wanted, exclude := refused }

/-- What is wanted of the tags of a scenario: none that is refused and, if some are wanted, one or
all of them. -/
def Accepts (mode : TagMode) (wanted refused tags : List String) : Prop :=
  (∀ t ∈ refused, normalizeTag t ∉ tags) ∧
    (wanted ≠ [] → match mode with
      | .any => ∃ t ∈ wanted, normalizeTag t ∈ tags
      | .all => ∀ t ∈ wanted, normalizeTag t ∈ tags)

/-- A selection that is built has the normal forms of the tags it was given. -/
theorem Built.eq_ofTags {mode : TagMode} {wanted refused : List String} {s : Selection}
    (h : Built mode wanted refused s) :
    s = Selection.ofTags mode (wanted.map normalizeTag) (refused.map normalizeTag) := by
  induction h with
  | none => rfl
  | withTag tag _ ih => simp [ih, Selection.withTag, Selection.ofTags]
  | withoutTag tag _ ih => simp [ih, Selection.withoutTag, Selection.ofTags]

theorem mem_effectiveTags {f : Feature} {s : Scenario} {t : String} :
    t ∈ effectiveTags f s ↔ t ∈ (f.tags ++ s.tags).map normalizeTag :=
  List.mem_eraseDups

theorem matches_ofTags (mode : TagMode) (wanted refused : List String) (f : Feature)
    (s : Scenario) : (Selection.ofTags mode wanted refused).matches_ f s = true ↔
      Accepts mode wanted refused (effectiveTags f s) := by
  have hcontains : ∀ t, ((f.tags ++ s.tags).map normalizeTag).contains (normalizeTag t) =
      decide (normalizeTag t ∈ effectiveTags f s) := by
    intro t
    rw [Bool.eq_iff_iff, List.contains_iff_mem, decide_eq_true_eq, mem_effectiveTags]
  simp only [Selection.matches_, Selection.matchesTags, Selection.ofTags, Selection.none, hcontains,
    Accepts]
  cases mode <;> cases wanted <;> simp

theorem accepts_map_normalizeTag {mode : TagMode} {wanted refused : List String}
    (h : ∀ t ∈ wanted ++ refused, ¬Loose t) (tags : List String) :
    Accepts mode (wanted.map normalizeTag) (refused.map normalizeTag) tags ↔
      Accepts mode wanted refused tags := by
  have hagain : ∀ t ∈ wanted ++ refused,
      (normalizeTag (normalizeTag t) ∈ tags ↔ normalizeTag t ∈ tags) := by
    intro t ht
    rw [(normalizeTag_normalizeTag t).2 (h t ht)]
  refine and_congr ?_ ?_
  · rw [List.forall_mem_map]
    exact forall₂_congr fun t ht => not_congr (hagain t (List.mem_append_right _ ht))
  · rw [ne_eq, List.map_eq_nil_iff]
    refine imp_congr_right fun _ => ?_
    cases mode with
    | any =>
      simp only [List.mem_map, exists_exists_and_eq_and]
      exact exists_congr fun t => and_congr_right fun ht => hagain t (List.mem_append_left _ ht)
    | all =>
      simp only [List.forall_mem_map]
      exact forall₂_congr fun t ht => hagain t (List.mem_append_left _ ht)

/-- What two selections with the tag `t` do with a scenario that has this tag alone. -/
theorem matches_single {t : String} {f : Feature} {s : Scenario} (h : f.tags ++ s.tags = [t]) :
    ((Selection.none.withTag t).matches_ f s = true ↔ ¬Loose t) ∧
      ((Selection.none.withoutTag t).matches_ f s = true ↔ Loose t) := by
  have hmem : normalizeTag (normalizeTag t) ∈ effectiveTags f s ↔ ¬Loose t := by
    rw [mem_effectiveTags, h, List.map_singleton, List.mem_singleton, normalizeTag_normalizeTag]
  have hwith : Built .any [t] [] (Selection.none.withTag t) := .withTag t .none
  have hwithout : Built .any [] [t] (Selection.none.withoutTag t) := .withoutTag t .none
  constructor
  · rw [hwith.eq_ofTags, matches_ofTags]
    simp [Accepts, hmem]
  · rw [hwithout.eq_ofTags, matches_ofTags]
    simp [Accepts, hmem]

/-- **Filters of tags.** A selection whose tags are set accepts what is meant. One that is built
looks for the normal forms of normal forms, and so accepts the same if no given tag is loose. A
loose tag is neither found nor refused where it is the only tag. -/
theorem matches_built_iff {mode : TagMode} {wanted refused : List String} {s : Selection}
    (h : Built mode wanted refused s) :
    (∀ f sc, (Selection.ofTags mode wanted refused).matches_ f sc = true ↔
      Accepts mode wanted refused (effectiveTags f sc)) ∧
    (∀ f sc, s.matches_ f sc = true ↔
      Accepts mode (wanted.map normalizeTag) (refused.map normalizeTag) (effectiveTags f sc)) ∧
    ((∀ t ∈ wanted ++ refused, ¬Loose t) →
      ∀ f sc, s.matches_ f sc = true ↔ Accepts mode wanted refused (effectiveTags f sc)) ∧
    ∀ t f sc, f.tags ++ sc.tags = [t] →
      ((Selection.none.withTag t).matches_ f sc = true ↔ ¬Loose t) ∧
      ((Selection.none.withoutTag t).matches_ f sc = true ↔ Loose t) := by
  have hs : ∀ f sc, s.matches_ f sc = true ↔ _ := fun f sc => by rw [h.eq_ofTags, matches_ofTags]
  refine ⟨matches_ofTags mode wanted refused, hs, fun hl f sc => ?_, fun t f sc => matches_single⟩
  rw [hs, accepts_map_normalizeTag hl]

/-- The tag `@ smoke` is found by a selection that has this text, but not by one built from it. -/
theorem matches_built_iff_smoke :
    Built .any ["@ smoke"] [] (Selection.none.withTag "@ smoke") ∧
    (Selection.ofTags .any ["@ smoke"] []).matches_ ⟨"F", ["@ smoke"], [], [], [], 1⟩
      ⟨"s", [], [], 1⟩ = true ∧
    ¬(Selection.none.withTag "@ smoke").matches_ ⟨"F", ["@ smoke"], [], [], [], 1⟩
      ⟨"s", [], [], 1⟩ = true := by
  have hbuilt : Built .any ["@ smoke"] [] (Selection.none.withTag "@ smoke") := .withTag _ .none
  obtain ⟨hset, -, -, hsingle⟩ := matches_built_iff hbuilt
  have hloose : Loose "@ smoke" := ⟨' ', by decide +kernel, by decide⟩
  refine ⟨hbuilt, (hset _ _).2 ⟨by simp, fun _ => ⟨_, List.mem_cons_self, by decide +kernel⟩⟩, ?_⟩
  rw [(hsingle _ _ _ rfl).1, not_not]
  exact hloose

end UiScenario
