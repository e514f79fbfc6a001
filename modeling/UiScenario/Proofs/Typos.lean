import Mathlib.Data.List.Infix
import Mathlib.Order.Bounds.Basic
import UiScenario.Text.Distance

/-!
Mistyped names. The least number of edits between two texts obeys a recurrence in their first
characters (`leastEdits`), and the rows of `distance?` follow it from their last ones: `prefixRow`
is what a row holds. The suggestion for a name is the first of the names that the fewest edits lead
to.
-/

namespace UiScenario.Text

variable {as bs : List Char}

/-! ## Edits -/

/-- One character is inserted, deleted or replaced. -/
inductive Edit : List Char → List Char → Prop
  | insert (front : List Char) (c : Char) (back : List Char) :
      Edit (front ++ back) (front ++ c :: back)
  | delete (front : List Char) (c : Char) (back : List Char) :
      Edit (front ++ c :: back) (front ++ back)
  | replace (front : List Char) (c d : Char) (back : List Char) :
      Edit (front ++ c :: back) (front ++ d :: back)

/-- As many edits, one after the other. -/
inductive EditsIn : Nat → List Char → List Char → Prop
  | none (as : List Char) : EditsIn 0 as as
  | step {n : Nat} {as bs cs : List Char} (first : Edit as bs) (rest : EditsIn n bs cs) :
      EditsIn (n + 1) as cs

theorem Edit.symm (h : Edit as bs) : Edit bs as := by
  cases h with
  | insert front c back => exact .delete front c back
  | delete front c back => exact .insert front c back
  | replace front c d back => exact .replace front d c back

/-- An edit can be made behind a further character. -/
theorem Edit.cons (h : Edit as bs) (c : Char) : Edit (c :: as) (c :: bs) := by
  cases h with
  | insert front d back => exact .insert (c :: front) d back
  | delete front d back => exact .delete (c :: front) d back
  | replace front d e back => exact .replace (c :: front) d e back

theorem Edit.reverse (h : Edit as bs) : Edit as.reverse bs.reverse := by
  cases h with
  | insert front c back => simpa using Edit.insert back.reverse c front.reverse
  | delete front c back => simpa using Edit.delete back.reverse c front.reverse
  | replace front c d back => simpa using Edit.replace back.reverse c d front.reverse

namespace EditsIn

variable {m n : Nat} {cs : List Char}

theorem cons (h : EditsIn n as bs) (c : Char) : EditsIn n (c :: as) (c :: bs) := by
  induction h with
  | none as => exact .none _
  | step first _ ih => exact .step (first.cons c) ih

theorem append (h : EditsIn m as bs) (h' : EditsIn n bs cs) : EditsIn (m + n) as cs := by
  induction h with
  | none as => rwa [Nat.zero_add]
  | step first _ ih => rw [Nat.succ_add]; exact .step first (ih h')

theorem symm (h : EditsIn n as bs) : EditsIn n bs as := by
  induction h with
  | none as => exact .none as
  | step first _ ih => exact ih.append (.step first.symm (.none _))

theorem reverse (h : EditsIn n as bs) : EditsIn n as.reverse bs.reverse := by
  induction h with
  | none as => exact .none _
  | step first _ ih => exact .step first.reverse ih

theorem min (h : EditsIn m as bs) (h' : EditsIn n as bs) : EditsIn (min m n) as bs := by
  rcases Nat.le_total m n with hle | hle
  · rwa [Nat.min_eq_left hle]
  · rwa [Nat.min_eq_right hle]

end EditsIn

variable {α : Type} {key : α → Nat} {xs : List α} {x : α}

/-! ## The recurrence -/

/-- The least number of edits, by what happens to the first characters. -/
def leastEdits : List Char → List Char → Nat
  | [], bs => bs.length
  | _ :: as, [] => as.length + 1
  | a :: as, b :: bs =>
    min (min (leastEdits as bs + if a = b then 0 else 1) (leastEdits as (b :: bs) + 1))
      (leastEdits (a :: as) bs + 1)
termination_by as bs => as.length + bs.length

theorem leastEdits_nil_left (bs : List Char) : leastEdits [] bs = bs.length := by
  rw [leastEdits]

theorem leastEdits_nil_right (as : List Char) : leastEdits as [] = as.length := by
  cases as <;> simp [leastEdits]

theorem leastEdits_cons_cons (a b : Char) (as bs : List Char) :
    leastEdits (a :: as) (b :: bs) =
      min (min (leastEdits as bs + if a = b then 0 else 1) (leastEdits as (b :: bs) + 1))
        (leastEdits (a :: as) bs + 1) := by
  rw [leastEdits]

theorem leastEdits_cons_right_le (as : List Char) (b : Char) (bs : List Char) :
    leastEdits as (b :: bs) ≤ leastEdits as bs + 1 := by
  cases as with
  | nil => simp [leastEdits_nil_left]
  | cons a as => rw [leastEdits_cons_cons]; omega

theorem leastEdits_cons_left_le (a : Char) (as bs : List Char) :
    leastEdits (a :: as) bs ≤ leastEdits as bs + 1 := by
  cases bs with
  | nil => simp [leastEdits_nil_right]
  | cons b bs => rw [leastEdits_cons_cons]; omega

/-- A character in front of the text saves one edit at most. -/
theorem leastEdits_le_cons_left (a : Char) (as bs : List Char) :
    leastEdits as bs ≤ leastEdits (a :: as) bs + 1 := by
  induction bs with
  | nil => simp only [leastEdits_nil_right, List.length_cons]; omega
  | cons b bs ih =>
    have hb := leastEdits_cons_right_le as b bs
    rw [leastEdits_cons_cons]
    split <;> omega

/-- Two texts that are one edit apart are about as far from any other. -/
theorem leastEdits_le_of_edit {as' : List Char} (h : Edit as as') (bs : List Char) :
    leastEdits as bs ≤ leastEdits as' bs + 1 := by
  -- it is enough to look at edits at the front: what stands in front of an edit is kept
  have hcons : ∀ {xs ys : List Char} (c : Char),
      (∀ bs, leastEdits xs bs ≤ leastEdits ys bs + 1) →
      ∀ bs, leastEdits (c :: xs) bs ≤ leastEdits (c :: ys) bs + 1 := by
    intro xs ys c hxs bs
    induction bs with
    | nil =>
      have hnil := hxs []
      simp only [leastEdits_nil_right, List.length_cons] at hnil ⊢
      omega
    | cons b bs ih =>
      have hb := hxs bs
      have hbs := hxs (b :: bs)
      rw [leastEdits_cons_cons, leastEdits_cons_cons]
      split <;> omega
  cases h with
  | insert front c back =>
    induction front generalizing bs with
    | nil => exact leastEdits_le_cons_left c back bs
    | cons d front ih => exact hcons d ih bs
  | delete front c back =>
    induction front generalizing bs with
    | nil => exact leastEdits_cons_left_le c back bs
    | cons d front ih => exact hcons d ih bs
  | replace front c d back =>
    induction front generalizing bs with
    | nil =>
      induction bs with
      | nil => simp [leastEdits_nil_right]
      | cons b bs ih =>
        simp only [List.nil_append] at ih ⊢
        rw [leastEdits_cons_cons, leastEdits_cons_cons]
        split <;> split <;> omega
    | cons e front ih => exact hcons e ih bs

theorem leastEdits_self (as : List Char) : leastEdits as as = 0 := by
  induction as with
  | nil => exact leastEdits_nil_left []
  | cons a as ih => simp [leastEdits_cons_cons, ih]

/-- No sequence of edits is shorter than the leastEdits. -/
theorem leastEdits_le_of_editsIn {n : Nat} (h : EditsIn n as bs) : leastEdits as bs ≤ n := by
  induction h with
  | none as => exact Nat.le_of_eq (leastEdits_self as)
  | @step n as bs cs first _ ih => exact Nat.le_trans (leastEdits_le_of_edit first cs) (by omega)

/-- A sequence of edits that follows the recurrence. -/
theorem editsIn_leastEdits (as bs : List Char) : EditsIn (leastEdits as bs) as bs := by
  induction as generalizing bs with
  | nil =>
    rw [leastEdits_nil_left]
    induction bs with
    | nil => exact .none []
    | cons b bs ih => exact .step (.insert [] b []) (ih.cons b)
  | cons a as iha =>
    induction bs with
    | nil =>
      have has := iha []
      rw [leastEdits_nil_right] at has ⊢
      exact .step (.delete [] a as) has
    | cons b bs ihb =>
      have hinsert : EditsIn (leastEdits (a :: as) bs + 1) (a :: as) (b :: bs) :=
        .step (.insert [] b (a :: as)) (ihb.cons b)
      have hdelete : EditsIn (leastEdits as (b :: bs) + 1) (a :: as) (b :: bs) :=
        .step (.delete [] a as) (iha (b :: bs))
      have hkeep : EditsIn (leastEdits as bs + if a = b then 0 else 1) (a :: as) (b :: bs) := by
        split
        · next heq => exact heq ▸ (iha bs).cons a
        · exact .step (.replace [] a b as) ((iha bs).cons b)
      rw [leastEdits_cons_cons]
      exact (hkeep.min hdelete).min hinsert

/-! ## Rows -/

/-- The least numbers of edits between a text and all beginnings of another one. -/
def prefixRow (as bs : List Char) : List Nat :=
  bs.inits.map fun front => leastEdits as.reverse front.reverse

theorem prefixRow_concat (as bs : List Char) (b : Char) :
    prefixRow as (bs ++ [b]) = prefixRow as bs ++ [leastEdits as.reverse (b :: bs.reverse)] := by
  simp [prefixRow]

/-- A row has an entry for each beginning of the other text. -/
theorem getElem?_prefixRow (as : List Char) {front : List Char} (h : front <+: bs) :
    (prefixRow as bs)[front.length]? = some (leastEdits as.reverse front.reverse) := by
  have hlen : front.length < bs.inits.length := by
    rw [List.length_inits]
    exact Nat.lt_succ_of_le h.length_le
  rw [prefixRow, List.getElem?_map, List.getElem?_eq_getElem hlen, List.getElem_inits,
    ← List.prefix_iff_eq_take.1 h]
  rfl

theorem prefixRow_nil_left (bs : List Char) : prefixRow [] bs = List.range (bs.length + 1) := by
  induction bs using List.reverseRecOn with
  | nil => simp [prefixRow, leastEdits_nil_left]
  | append_singleton bs b ih =>
    simp [prefixRow_concat, ih, leastEdits_nil_left, List.range_succ]

/-- From the row of a text, the loop over the other one computes the row of the text with one more
    character: no index is out of range. -/
theorem nextRow_prefixRow (as bs : List Char) (a : Char) :
    nextRow bs (prefixRow as bs) (a, as.length) = some (prefixRow (as ++ [a]) bs) := by
  -- behind each beginning of the other text, the loop has the row for this beginning
  have hloop : ∀ front, front <+: bs →
      front.zipIdx.foldlM (pushEntry (prefixRow as bs) a) [as.length + 1] =
        some (prefixRow (as ++ [a]) front) := by
    intro front
    induction front using List.reverseRecOn with
    | nil =>
      intro _
      simp [prefixRow, leastEdits_nil_right]
    | append_singleton front b ih =>
      intro h
      have hfront : front <+: bs := (List.prefix_append front [b]).trans h
      have hreplaced := getElem?_prefixRow as hfront
      have hdeleted := getElem?_prefixRow as h
      have hinserted := getElem?_prefixRow (as ++ [a]) (List.prefix_refl front)
      rw [List.length_append, List.length_singleton] at hdeleted
      rw [List.zipIdx_append, List.foldlM_append, ih hfront, prefixRow_concat]
      simp [pushEntry, hreplaced, hdeleted, hinserted, leastEdits_cons_cons]
  exact hloop bs (List.prefix_refl bs)

/-- The row of a text holds the least numbers of edits to the beginnings of the other text. -/
theorem distanceRow_eq (as bs : List Char) : distanceRow bs as = some (prefixRow as bs) := by
  induction as using List.reverseRecOn with
  | nil => exact congrArg some (prefixRow_nil_left bs).symm
  | append_singleton as a ih =>
    rw [distanceRow, List.zipIdx_append, List.foldlM_append]
    rw [distanceRow] at ih
    simp [ih, nextRow_prefixRow]

theorem distance?_eq (as bs : List Char) :
    distance? as bs = some (leastEdits as.reverse bs.reverse) := by
  rw [distance?, distanceRow_eq]
  exact getElem?_prefixRow as (List.prefix_refl bs)

theorem distance_eq (as bs : List Char) : distance as bs = leastEdits as.reverse bs.reverse := by
  rw [distance, distance?_eq, Option.getD_some]

theorem distance_le_of_editsIn {n : Nat} (h : EditsIn n as bs) : distance as bs ≤ n := by
  rw [distance_eq]
  exact leastEdits_le_of_editsIn h.reverse

theorem editsIn_distance (as bs : List Char) : EditsIn (distance as bs) as bs := by
  rw [distance_eq]
  simpa using (editsIn_leastEdits as.reverse bs.reverse).reverse

theorem isLeast_distance (as bs : List Char) :
    IsLeast {n | EditsIn n as bs} (distance as bs) :=
  ⟨editsIn_distance as bs, fun _ h => distance_le_of_editsIn h⟩

theorem distance_comm (as bs : List Char) : distance as bs = distance bs as :=
  Nat.le_antisymm (distance_le_of_editsIn (editsIn_distance bs as).symm)
    (distance_le_of_editsIn (editsIn_distance as bs).symm)

theorem distance_eq_zero_iff : distance as bs = 0 ↔ as = bs := by
  refine ⟨fun h => ?_, fun h => Nat.le_zero.1 (distance_le_of_editsIn (h ▸ .none as))⟩
  have hedits := editsIn_distance as bs
  rw [h] at hedits
  cases hedits
  rfl

theorem distance_triangle (as bs cs : List Char) :
    distance as cs ≤ distance as bs + distance bs cs :=
  distance_le_of_editsIn ((editsIn_distance as bs).append (editsIn_distance bs cs))

/-! ## The closest candidate -/

/-- An element of a list with a key below all keys in front of it, and not above any behind it. -/
def IsFirstMin {α : Type} (key : α → Nat) (xs : List α) (x : α) : Prop :=
  ∃ front back, xs = front ++ x :: back ∧ (∀ y ∈ front, key x < key y) ∧ ∀ y ∈ back, key x ≤ key y

theorem IsFirstMin.unique {α : Type} {key : α → Nat} {xs : List α} {x y : α}
    (hx : IsFirstMin key xs x) (hy : IsFirstMin key xs y) : x = y := by
  obtain ⟨front, back, rfl, hfront, hback⟩ := hx
  obtain ⟨front', back', heq, hfront', hback'⟩ := hy
  rcases List.append_eq_append_iff.1 heq with ⟨more, rfl, hrest⟩ | ⟨more, rfl, hrest⟩
  · cases more with
    | nil => exact (List.cons.inj hrest).1
    | cons z more =>
      obtain ⟨rfl, rfl⟩ := List.cons.inj hrest
      exact absurd (hfront' x (by simp))
        (Nat.not_lt.2 (hback y (List.mem_append_right _ (by simp))))
  · cases more with
    | nil => exact (List.cons.inj hrest).1.symm
    | cons z more =>
      obtain ⟨rfl, rfl⟩ := List.cons.inj hrest
      exact absurd (hfront y (by simp))
        (Nat.not_lt.2 (hback' x (List.mem_append_right _ (by simp))))

theorem firstMin?_eq_none_iff : firstMin? key xs = none ↔ xs = [] := by
  cases xs with
  | nil => simp [firstMin?]
  | cons x xs =>
    rw [firstMin?]
    split
    · split <;> simp
    · simp

theorem isFirstMin_of_firstMin? (h : firstMin? key xs = some x) : IsFirstMin key xs x := by
  induction xs generalizing x with
  | nil => cases h
  | cons z xs ih =>
    rw [firstMin?] at h
    split at h
    · next y hy =>
      obtain ⟨front, back, rfl, hfront, hback⟩ := ih hy
      split at h
      · next hlt =>
        cases h
        exact ⟨z :: front, back, rfl, List.forall_mem_cons.2 ⟨hlt, hfront⟩, hback⟩
      · next hle =>
        cases h
        have hle' : key z ≤ key y := Nat.le_of_not_lt hle
        refine ⟨[], front ++ y :: back, rfl, List.forall_mem_nil _, fun w hw => ?_⟩
        rcases List.mem_append.1 hw with hw | hw
        · exact Nat.le_trans hle' (Nat.le_of_lt (hfront w hw))
        rcases List.mem_cons.1 hw with rfl | hw
        · exact hle'
        · exact Nat.le_trans hle' (hback w hw)
    · next hnone =>
      cases h
      rw [firstMin?_eq_none_iff.1 hnone]
      exact ⟨[], [], rfl, List.forall_mem_nil _, List.forall_mem_nil _⟩

theorem firstMin?_eq_some_iff : firstMin? key xs = some x ↔ IsFirstMin key xs x := by
  refine ⟨isFirstMin_of_firstMin?, fun h => ?_⟩
  cases hfound : firstMin? key xs with
  | none =>
    obtain ⟨front, back, heq, -⟩ := h
    rw [firstMin?_eq_none_iff.1 hfound] at heq
    simp at heq
  | some y => rw [h.unique (isFirstMin_of_firstMin? hfound)]

/-- A candidate for a name: it is close enough, closer than all other names in front of it, and no
    other name behind it is closer. -/
def Suggested (far : String → Nat) (limit : Nat) (name : String) (candidates : List String)
    (c : String) : Prop :=
  ∃ front back, candidates = front ++ c :: back ∧ c ≠ name ∧ far c ≤ limit ∧
    (∀ d ∈ front, d ≠ name → far c < far d) ∧ ∀ d ∈ back, d ≠ name → far c ≤ far d

theorem closest?_eq_some_iff {name : String} {candidates : List String} {c : String} :
    closest? name candidates = some c ↔
      Suggested (nameDistance name) (typoLimit name) name candidates c := by
  rw [closest?, firstMin?_eq_some_iff]
  constructor
  · rintro ⟨front, back, heq, hfront, hback⟩
    -- the names that were left out are the name itself or too far away
    obtain ⟨front', rest, rfl, hf, hrest⟩ := List.filter_eq_append_iff.1 heq
    obtain ⟨dropped, back', rfl, hdropped, hc, hb⟩ := List.filter_eq_cons_iff.1 hrest
    simp only [Bool.and_eq_true, bne_iff_ne, decide_eq_true_eq, not_and] at hdropped hc
    refine ⟨front' ++ dropped, back', (List.append_assoc ..).symm, hc.1, hc.2, fun d hd hne => ?_,
      fun d hd hne => ?_⟩
    · by_cases hclose : nameDistance name d ≤ typoLimit name
      · rcases List.mem_append.1 hd with hd | hd
        · exact hfront d (hf ▸ List.mem_filter.2 ⟨hd, by simp [hne, hclose]⟩)
        · exact absurd hclose (hdropped d hd hne)
      · omega
    · by_cases hclose : nameDistance name d ≤ typoLimit name
      · exact hback d (hb ▸ List.mem_filter.2 ⟨hd, by simp [hne, hclose]⟩)
      · omega
  · rintro ⟨front, back, rfl, hne, hclose, hfront, hback⟩
    refine ⟨_, _, by rw [List.filter_append, List.filter_cons_of_pos (by simp [hne, hclose])],
      fun d hd => ?_, fun d hd => ?_⟩
    · obtain ⟨hmem, hd⟩ := List.mem_filter.1 hd
      exact hfront d hmem (by simp_all)
    · obtain ⟨hmem, hd⟩ := List.mem_filter.1 hd
      exact hback d hmem (by simp_all)

theorem closest?_eq_none_iff {name : String} {candidates : List String} :
    closest? name candidates = none ↔
      ∀ c ∈ candidates, c ≠ name → typoLimit name < nameDistance name c := by
  rw [closest?, firstMin?_eq_none_iff, List.filter_eq_nil_iff]
  simp only [Bool.and_eq_true, bne_iff_ne, decide_eq_true_eq, not_and, Nat.not_le]

/-! ## Suggestions -/

/-- **Suggestions are optimal**: the distance of two texts is the least number of characters to
    insert, delete or replace, so it is a metric; no index is out of range, as each row has an entry
    for every beginning of the other text, which is the distance to it; and the suggestion for a
    name is the earliest of the other candidates at the least distance, in small letters, if it is
    at most a third of the name, but at least one. -/
theorem suggestions_optimal :
    (∀ as bs : List Char,
      IsLeast {n | EditsIn n as bs} (distance as bs) ∧ distance as bs = distance bs as ∧
      (distance as bs = 0 ↔ as = bs) ∧
      (∀ cs, distance as cs ≤ distance as bs + distance bs cs) ∧
      distance? as bs = some (distance as bs) ∧
      ∃ row, distanceRow bs as = some row ∧ row.length = bs.length + 1 ∧
        ∀ front, front <+: bs → row[front.length]? = some (distance as front)) ∧
    ∀ (name : String) (candidates : List String),
      (∀ c, closest? name candidates = some c ↔
        Suggested (fun d => distance (lower name).toList (lower d).toList)
          (max 1 ((name.length + 2) / 3)) name candidates c) ∧
      (closest? name candidates = none ↔ ∀ c ∈ candidates, c ≠ name →
        max 1 ((name.length + 2) / 3) < distance (lower name).toList (lower c).toList) := by
  refine ⟨fun as bs => ⟨isLeast_distance as bs, distance_comm as bs, distance_eq_zero_iff,
    distance_triangle as bs, ?_, prefixRow as bs, distanceRow_eq as bs, ?_, fun front h => ?_⟩,
    fun _ _ => ⟨fun _ => closest?_eq_some_iff, closest?_eq_none_iff⟩⟩
  · rw [distance?_eq, distance_eq]
  · rw [prefixRow, List.length_map, List.length_inits]
  · rw [getElem?_prefixRow as h, distance_eq]

end UiScenario.Text
