import UiScenario.Proofs.ParallelBlocks
import UiScenario.Proofs.Moved
import UiScenario.Proofs.Wording

/-!
Reading two scripts that are alike: they are worded alike, and the second one is some lines further
down. `Agrees F p q` says that from places alike the parsers `p` and `q` come to places alike:
both give values that are alike, or both fail with faults alike, and the faults they note on the way
are alike, too. There is a rule for each way to build a parser.

The two runs may start with different faults noted before; these play no part in reading.
-/

namespace UiScenario

/-! ## Values -/

/-- How values of a script are carried over to one that is worded alike, `n` lines further down. -/
structure Likeness (w : Wording) (n : Nat) (α : Type) where
  /-- The value some lines further down. -/
  move : α → α
  /-- What counts of the value. -/
  word : α → α

variable {w : Wording} {n : Nat}

namespace Likeness

variable {α β : Type} {F : Likeness w n α} {xs ys : List α} {G : Likeness w n β} {x y : Option α}
  {f : α → α}

/-- The values are alike. -/
abbrev Like (F : Likeness w n α) (a b : α) : Prop :=
  F.word (F.move a) = F.word b

abbrev plain (w : Wording) (n : Nat) : Likeness w n α := ⟨id, id⟩

abbrev name (w : Wording) (n : Nat) : Likeness w n String := ⟨id, w.name⟩

abbrev text (w : Wording) (n : Nat) : Likeness w n String := ⟨id, w.text⟩

abbrev option (F : Likeness w n α) : Likeness w n (Option α) :=
  ⟨Option.map F.move, Option.map F.word⟩

abbrev list (F : Likeness w n α) : Likeness w n (List α) := ⟨List.map F.move, List.map F.word⟩

abbrev prod (F : Likeness w n α) (G : Likeness w n β) : Likeness w n (α × β) :=
  ⟨Prod.map F.move G.move, Prod.map F.word G.word⟩

abbrev of (down : Nat → α → α) (reword : Wording → α → α) : Likeness w n α := ⟨down n, reword w⟩

/-- A value without a line. -/
abbrev still (reword : Wording → α → α) : Likeness w n α := ⟨id, reword w⟩

theorem Like.of_list (h : (⟨id, f⟩ : Likeness w n α).list.Like xs ys) : xs.map f = ys.map f := by
  simpa [Like] using h

theorem Like.of_option (h : (⟨id, f⟩ : Likeness w n α).option.Like x y) : x.map f = y.map f := by
  simpa [Like] using h

theorem Like.eq_none (h : F.option.Like none y) : y = none :=
  Option.map_eq_none_iff.1 (Eq.symm h)

theorem Like.exists_some {a : α} (h : F.option.Like (some a) y) : ∃ b, y = some b ∧ F.Like a b := by
  obtain ⟨b, hy, hb⟩ := Option.map_eq_some_iff.1 (Eq.symm h)
  exact ⟨b, hy, hb.symm⟩

theorem filterMap_alike {j : α → Option β} (h : F.list.Like xs ys)
    (hmove : ∀ a, j (F.move a) = (j a).map G.move) (hword : ∀ a, j (F.word a) = (j a).map G.word) :
    G.list.Like (xs.filterMap j) (ys.filterMap j) := by
  have hj := congrArg (List.filterMap j) h
  simpa only [Like, List.filterMap_map, List.map_filterMap, Function.comp_def, hmove, hword,
    Option.map_map] using hj

theorem flatMap_alike {j : α → List β} (h : F.list.Like xs ys)
    (hmove : ∀ a, j (F.move a) = (j a).map G.move) (hword : ∀ a, j (F.word a) = (j a).map G.word) :
    G.list.Like (xs.flatMap j) (ys.flatMap j) := by
  have hj := congrArg (List.flatMap j) h
  simpa only [Like, List.flatMap_map, List.map_flatMap, hmove, hword] using hj

theorem Like.eq_of_plain (h : (plain w n).option.Like x y) : x = y := by
  simpa [Like] using h

end Likeness

abbrev SyntaxError.alike (w : Wording) (n : Nat) : Likeness w n SyntaxError := .of down reword

abbrev Token.alike (w : Wording) (n : Nat) : Likeness w n Token := .of down reword

/-! ## Tokens -/

theorem Wording.text_eq_of_value {kind : TokenKind} {v v' : String}
    (h : w.value kind v = w.value kind v') : w.text v = w.text v' := by
  cases kind with
  | text => exact h
  | number => exact congrArg w.text h
  | _ => exact w.text_of_name h

namespace Likeness.Like

variable {t u : Token} (h : (Token.alike w n).Like t u)
include h

theorem kind : t.kind = u.kind := (Token.mk.inj h).1

theorem pos : t.pos.down n = u.pos := (Token.mk.inj h).2.2

theorem line : u.line = t.line + n := (congrArg Position.line h.pos).symm

theorem value : w.value t.kind t.value = w.value t.kind u.value := by
  have hv := (Token.mk.inj h).2.1
  rwa [← h.kind] at hv

theorem text : w.text t.value = w.text u.value := Wording.text_eq_of_value h.value

theorem name (hk : t.kind ≠ .text) : w.name t.value = w.name u.value := by
  have hv := h.value
  cases ht : t.kind with
  | text => exact absurd ht hk
  | number => rw [ht] at hv; exact congrArg w.name hv
  | _ => rw [ht] at hv; exact hv

theorem number (hk : t.kind = .number) : t.value = u.value := by
  have hv := h.value
  rwa [hk] at hv

/-- Tokens that are alike are worded alike in messages. -/
theorem display : w.text t.display = w.text u.display := by
  unfold Token.display
  rw [h.kind]
  split
  · rfl
  · exact w.text_append (w.text_append rfl h.text) rfl
  · exact w.text_append (w.text_append rfl h.text) rfl
  · exact w.text_append rfl h.text
  · exact w.text_append (w.text_append rfl h.text) rfl

end Likeness.Like

namespace Grammar

/-! ## Places -/

abbrev Opened.alike (w : Wording) (n : Nat) : Likeness w n Opened :=
  ⟨fun o => ⟨o.word, o.line + n⟩, fun o => ⟨w.text o.word, o.line⟩⟩

structure Alike (w : Wording) (n : Nat) (s t : State) : Prop where
  ahead : (Token.alike w n).list.Like s.ahead t.ahead
  last : (Token.alike w n).Like s.last t.last
  opened : (Opened.alike w n).option.Like s.opened t.opened
  flag : s.unclosedReported = t.unclosedReported

/-- From `s` to `s'` and from `t` to `t'`, faults that are alike are noted. -/
def Noted (w : Wording) (n : Nat) (s t s' t' : State) : Prop :=
  ∃ es es' : List SyntaxError, s'.errors = s.errors ++ es ∧ t'.errors = t.errors ++ es' ∧
    (SyntaxError.alike w n).list.Like es es'

/-- What a test of the tokens ahead finds depends on their kinds only. -/
def Wordless {β : Type} (g : List Token → β) : Prop :=
  ∀ (value : Token → String) (pos : Token → Position) (ts : List Token),
    g (ts.map fun t => ⟨t.kind, value t, pos t⟩) = g ts

section
variable {β : Type} {s t s' t' s'' t'' : State} {g : List Token → β}

theorem noted_of_errors (h : s'.errors = s.errors) (h' : t'.errors = t.errors) :
    Noted w n s t s' t' :=
  ⟨[], [], by rw [h, List.append_nil], by rw [h', List.append_nil], rfl⟩

theorem Noted.trans (h : Noted w n s t s' t') (h' : Noted w n s' t' s'' t'') :
    Noted w n s t s'' t'' := by
  obtain ⟨es, es', hs, ht, he⟩ := h
  obtain ⟨fs, fs', hs', ht', hf⟩ := h'
  refine ⟨es ++ fs, es' ++ fs', ?_, ?_, ?_⟩
  · rw [hs', hs, List.append_assoc]
  · rw [ht', ht, List.append_assoc]
  · simp only [Likeness.Like, List.map_append] at he hf ⊢
    rw [he, hf]

theorem Wordless.move (hg : Wordless g) (ts : List Token) :
    g (ts.map (Token.alike w n).move) = g ts :=
  hg (fun t => t.value) (fun t => t.pos.down n) ts

theorem Wordless.word (hg : Wordless g) (ts : List Token) :
    g (ts.map (Token.alike w n).word) = g ts :=
  hg (fun t => w.value t.kind t.value) (fun t => t.pos) ts

theorem Wordless.eq (hg : Wordless g) {ts us : List Token} (h : (Token.alike w n).list.Like ts us) :
    g ts = g us :=
  calc
    g ts = g (ts.map (Token.alike w n).move) := (hg.move ts).symm
    _ = g ((ts.map (Token.alike w n).move).map (Token.alike w n).word) := (hg.word _).symm
    _ = g (us.map (Token.alike w n).word) := congrArg g h
    _ = g us := hg.word us

theorem Alike.current (h : Alike w n s t) : (Token.alike w n).Like s.current t.current := by
  have ha := h.ahead
  unfold State.current
  cases hs : s.ahead with
  | nil =>
    rw [hs] at ha
    rw [List.map_eq_nil_iff.1 (Eq.symm ha)]
    exact h.last
  | cons x xs =>
    cases ht : t.ahead with
    | nil => rw [hs, ht] at ha; cases ha
    | cons y ys =>
      rw [hs, ht] at ha
      exact (List.cons.inj ha).1

theorem Alike.tail (h : Alike w n s t) :
    Alike w n { s with ahead := s.ahead.tail } { t with ahead := t.ahead.tail } :=
  { h with ahead := by simpa only [Likeness.Like, List.map_tail] using congrArg List.tail h.ahead }

theorem Alike.unexpected (h : Alike w n s t) (expected : String) :
    (SyntaxError.alike w n).Like (s.unexpected expected) (t.unexpected expected) := by
  have hc := h.current
  have hw : (SyntaxError.alike w n).Like
      ⟨.unexpectedToken expected s.current.display, s.current.pos⟩
      ⟨.unexpectedToken expected t.current.display, t.current.pos⟩ :=
    congrArg₂ (fun v p => SyntaxError.mk (.unexpectedToken expected v) p) hc.display hc.pos
  have he : s.ahead.isEmpty = t.ahead.isEmpty :=
    Wordless.eq (fun _ _ _ => List.isEmpty_map) h.ahead
  have ho := h.opened
  unfold State.unexpected
  dsimp only
  cases hs : s.opened with
  | none =>
    rw [hs] at ho
    rw [ho.eq_none]
    exact hw
  | some o =>
    rw [hs] at ho
    obtain ⟨o', ht, ho⟩ := ho.exists_some
    obtain ⟨hword, hl⟩ := Opened.mk.inj ho
    have hcol := congrArg Position.column hc.pos
    have hlt : t.current.line > o'.line ↔ s.current.line > o.line := by
      rw [hc.line, ← hl]
      exact Nat.add_lt_add_iff_right
    rw [ht]
    dsimp only
    simp only [he, hlt]
    split
    · exact (congr (congrArg₂ (fun v l c => SyntaxError.mk (.incompleteStatement v expected) ⟨l, c⟩)
        hword hl) hcol :)
    · exact hw

end

namespace Parser

/-! ## Results -/

/-- Results that are alike, of runs that start at `s` and at `t`. -/
inductive Agree {α : Type} {w : Wording} {n : Nat} (F : Likeness w n α) (s t : State) :
    EStateM.Result SyntaxError State α → EStateM.Result SyntaxError State α → Prop
  | ok {a b : α} {s' t' : State} : F.Like a b → Alike w n s' t' → Noted w n s t s' t' →
    Agree F s t (.ok a s') (.ok b t')
  | error {e e' : SyntaxError} {s' t' : State} :
    (SyntaxError.alike w n).Like e e' → Alike w n s' t' →
    Noted w n s t s' t' → Agree F s t (.error e s') (.error e' t')

/-- The parsers agree on places that are alike. -/
def Agrees {α : Type} (F : Likeness w n α) (p q : Parser α) : Prop :=
  ∀ s t, Alike w n s t → Agree F s t (p s) (q t)

/-- The parsers agree where the next token has the given kind. -/
def AgreesAt {α : Type} (kind : TokenKind) (F : Likeness w n α) (p q : Parser α) : Prop :=
  ∀ s t, Alike w n s t → s.current.kind = kind → Agree F s t (p s) (q t)

section
variable {α β : Type} {F : Likeness w n α} {G : Likeness w n β} {p q : Parser α}
  {k m : α → Parser β} {s t s' t' : State} {kind : TokenKind}

theorem Agree.trans {x y : EStateM.Result SyntaxError State α} (hn : Noted w n s t s' t')
    (h : Agree F s' t' x y) : Agree F s t x y := by
  cases h with
  | ok hab hst hn' => exact .ok hab hst (hn.trans hn')
  | error he hst hn' => exact .error he hst (hn.trans hn')

theorem Agrees.at (h : Agrees F p q) : AgreesAt kind F p q :=
  fun s t hst _ => h s t hst

theorem Agrees.bind (h : Agrees F p q) (hk : ∀ a b, F.Like a b → Agrees G (k a) (m b)) :
    Agrees G (p >>= k) (q >>= m) := by
  intro s t hst
  have hpq := h s t hst
  show Agree G s t (EStateM.bind p k s) (EStateM.bind q m t)
  unfold EStateM.bind
  generalize p s = x at hpq
  generalize q t = y at hpq
  cases hpq with
  | ok hab hst' hn => exact .trans hn (hk _ _ hab _ _ hst')
  | error he hst' hn => exact .error he hst' hn

/-- Values that are alike are equal if everything counts of them. -/
theorem Agrees.bindPlain (h : Agrees (.plain w n) p q) (hk : ∀ a, Agrees G (k a) (m a)) :
    Agrees G (p >>= k) (q >>= m) := by
  refine h.bind ?_
  rintro a _ ⟨⟩
  exact hk a

theorem agrees_pure {a b : α} (h : F.Like a b) : Agrees F (pure a) (pure b) :=
  fun _ _ hst => .ok h hst (noted_of_errors rfl rfl)

theorem Agrees.map {j j' : α → β} (h : Agrees F p q)
    (hj : ∀ a b, F.Like a b → G.Like (j a) (j' b)) :
    Agrees G (p >>= fun a => pure (j a)) (q >>= fun b => pure (j' b)) :=
  h.bind fun a b hab => agrees_pure (hj a b hab)

theorem agrees_ite {c : Prop} [Decidable c] {p' q' : Parser α} (h : Agrees F p q)
    (h' : Agrees F p' q') : Agrees F (if c then p else p') (if c then q else q') := by
  split
  · exact h
  · exact h'

theorem agrees_throw {e e' : SyntaxError} (h : (SyntaxError.alike w n).Like e e') :
    Agrees F (throw e : Parser α) (throw e') :=
  fun _ _ hst => .error h hst (noted_of_errors rfl rfl)

theorem agrees_fail {expected : String} : Agrees F (fail expected : Parser α) (fail expected) :=
  fun _ _ hst => .error (hst.unexpected expected) hst (noted_of_errors rfl rfl)

end

/-! ## Looking ahead -/

section
variable {α β : Type} {F : Likeness w n α} {p q : Parser α} {g : List Token → β}
  {kind : TokenKind}

theorem agrees_look {k m : β → Parser α} (hg : Wordless g) (hk : ∀ x, Agrees F (k x) (m x)) :
    Agrees F (ahead >>= fun ts => k (g ts)) (ahead >>= fun ts => m (g ts)) := by
  intro s t hst
  show Agree F s t (k (g s.ahead) s) (m (g t.ahead) t)
  rw [hg.eq hst.ahead]
  exact hk _ s t hst

theorem agrees_peek (hg : Wordless g) :
    Agrees (.plain w n) (ahead >>= fun ts => pure (g ts)) (ahead >>= fun ts => pure (g ts)) :=
  agrees_look hg fun _ => agrees_pure rfl

theorem agrees_test {g : List Token → Bool} {p' q' : Parser α} (hg : Wordless g)
    (h : Agrees F p q) (h' : Agrees F p' q') :
    Agrees F (ahead >>= fun ts => if g ts = true then p else p')
      (ahead >>= fun ts => if g ts = true then q else q') :=
  agrees_look (k := fun b => if b = true then p else p')
    (m := fun b => if b = true then q else q') hg fun _ => agrees_ite h h'

theorem agrees_current : Agrees (Token.alike w n) current current :=
  fun _ _ hst => .ok hst.current hst (noted_of_errors rfl rfl)

/-- What is read next depends on the kind of the next token, which is still ahead. -/
theorem agrees_atCurrent {k m : Token → Parser α}
    (hk : ∀ t u, (Token.alike w n).Like t u → AgreesAt u.kind F (k t) (m u)) :
    Agrees F (current >>= k) (current >>= m) := fun s t hst =>
  hk s.current t.current hst.current s t hst hst.current.kind

theorem wordless_startsWith (kind : TokenKind) : Wordless (startsWith kind) := by
  intro v p ts
  cases ts <;> rfl

theorem wordless_atBareName : Wordless atBareName := by
  intro v p ts
  cases ts <;> rfl

theorem wordless_atQualifiedName : Wordless atQualifiedName := by
  intro v p ts
  rcases ts with _ | ⟨_, _ | ⟨_, _ | ⟨_, _⟩⟩⟩ <;> rfl

end

/-! ## Reading tokens -/

section
variable {α : Type} {F : Likeness w n α} {p q : Parser α} {kind : TokenKind} {expected : String}
  {j : String → α}

theorem agrees_advance : Agrees (Token.alike w n) advance advance :=
  fun _ _ hst => .ok hst.current hst.tail (noted_of_errors rfl rfl)

/-- The value of a token that is no quoted text is a name. -/
theorem agreesAt_name (hk : kind ≠ .text)
    (hj : ∀ v v', w.name v = w.name v' → F.Like (j v) (j v')) :
    AgreesAt kind F (advance >>= fun t => pure (j t.value))
      (advance >>= fun t => pure (j t.value)) := by
  rintro s t hst rfl
  exact .ok (hj _ _ (hst.current.name hk)) hst.tail (noted_of_errors rfl rfl)

theorem agrees_text (hj : ∀ v v', w.text v = w.text v' → F.Like (j v) (j v')) :
    Agrees F (advance >>= fun t => pure (j t.value)) (advance >>= fun t => pure (j t.value)) :=
  agrees_advance.map fun _ _ h => hj _ _ h.text

/-- Reads the next token as a name if a test allows it. -/
theorem agrees_testName {g : List Token → Bool} (hg : Wordless g) (hnil : g [] = false)
    (hcons : ∀ t ts, g (t :: ts) = true → t.kind ≠ .text)
    (hj : ∀ v v', w.name v = w.name v' → F.Like (j v) (j v')) (h : Agrees F p q) :
    Agrees F
      (ahead >>= fun ts => if g ts = true then advance >>= fun t => pure (j t.value) else p)
      (ahead >>= fun ts => if g ts = true then advance >>= fun t => pure (j t.value) else q) := by
  intro s t hst
  show Agree F s t ((if g s.ahead = true then _ else p : Parser α) s)
    ((if g t.ahead = true then _ else q : Parser α) t)
  rw [← hg.eq hst.ahead]
  split
  · next hs =>
    refine agreesAt_name ?_ hj s t hst rfl
    rw [State.current]
    cases ha : s.ahead with
    | nil =>
      rw [ha, hnil] at hs
      cases hs
    | cons x xs =>
      rw [ha] at hs
      exact hcons x xs hs
  · exact h s t hst

theorem ne_text_of_isBareName (h : kind.isBareName = true) : kind ≠ .text := by
  rintro rfl
  cases h

theorem ne_text_of_isWord (h : kind.isWord = true) : kind ≠ .text := by
  rintro rfl
  cases h

theorem agrees_bareName (hj : ∀ v v', w.name v = w.name v' → F.Like (j v) (j v'))
    (h : Agrees F p q) :
    Agrees F
      (ahead >>= fun ts =>
        if atBareName ts = true then advance >>= fun t => pure (j t.value) else p)
      (ahead >>= fun ts =>
        if atBareName ts = true then advance >>= fun t => pure (j t.value) else q) :=
  agrees_testName wordless_atBareName rfl (fun _ _ h => ne_text_of_isBareName h) hj h

theorem qualifiedName_bind (k : String × String → Parser α) (s : State) :
    (qualifiedName >>= k) s = k (s.current.value, (s.ahead.tail.tail.headD s.last).value)
      { s with ahead := s.ahead.tail.tail.tail } := rfl

/-- A name with a qualifier, in front of what goes on with them. -/
theorem agrees_qualifiedName {k m : String × String → Parser α}
    (hk : ∀ x y, (Likeness.name w n |>.prod (.name w n)).Like x y → Agrees F (k x) (m y))
    (h : Agrees F p q) :
    Agrees F (ahead >>= fun ts => if atQualifiedName ts = true then qualifiedName >>= k else p)
      (ahead >>= fun ts => if atQualifiedName ts = true then qualifiedName >>= m else q) := by
  intro s t hst
  show Agree F s t ((if atQualifiedName s.ahead = true then _ else p : Parser α) s)
    ((if atQualifiedName t.ahead = true then _ else q : Parser α) t)
  rw [← wordless_atQualifiedName.eq hst.ahead]
  split
  · next hs =>
    have hname : ∀ s t, Alike w n s t → s.current.isWord = true →
        w.name s.current.value = w.name t.current.value :=
      fun s t hst hw => hst.current.name (ne_text_of_isWord hw)
    have hword : s.current.isWord = true ∧ (s.ahead.tail.tail.headD s.last).isWord = true := by
      rcases ha : s.ahead with _ | ⟨x, _ | ⟨y, _ | ⟨z, zs⟩⟩⟩ <;> rw [ha] at hs
      · cases hs
      · cases hs
      · cases hs
      · simp only [atQualifiedName, Bool.and_eq_true] at hs
        simp [State.current, ha, hs]
    have hst₂ : Alike w n { s with ahead := s.ahead.tail.tail }
        { t with ahead := t.ahead.tail.tail } := hst.tail.tail
    have hn : Noted w n s t { s with ahead := s.ahead.tail.tail.tail }
        { t with ahead := t.ahead.tail.tail.tail } := noted_of_errors rfl rfl
    rw [qualifiedName_bind, qualifiedName_bind]
    refine .trans hn (hk _ _ ?_ _ _ hst₂.tail)
    exact Prod.ext (hname s t hst hword.1) (hname _ _ hst₂ hword.2)
  · exact h s t hst

theorem agrees_eat : Agrees (.plain w n) (eat kind) (eat kind) :=
  agrees_test (wordless_startsWith kind) (agrees_advance.bind fun _ _ _ => agrees_pure rfl)
    (agrees_pure rfl)

theorem agrees_ifEat {p' q' : Parser α} (h : Agrees F p q) (h' : Agrees F p' q') :
    Agrees F (eat kind >>= fun eaten => if eaten = true then p else p')
      (eat kind >>= fun eaten => if eaten = true then q else q') :=
  agrees_eat.bindPlain fun _ => agrees_ite h h'

theorem agrees_expect : Agrees (Token.alike w n) (expect kind expected) (expect kind expected) :=
  agrees_test (wordless_startsWith kind) agrees_advance agrees_fail

theorem agrees_name : Agrees (.name w n) (name expected) (name expected) := by
  refine agrees_atCurrent fun t u h => ?_
  have hw : t.isWord = u.isWord := congrArg TokenKind.isWord h.kind
  rw [hw]
  split
  · next hu => exact agreesAt_name (j := id) (ne_text_of_isWord hu) fun _ _ h => h
  · exact Agrees.at agrees_fail

theorem agrees_binding : Agrees (.name w n) (binding expected) (binding expected) :=
  agrees_bareName (j := id) (fun _ _ h => h) agrees_fail

end

/-! ## Repetition -/

section
variable {α : Type} {F : Likeness w n α} {p q : Parser α} {kind : TokenKind}

theorem agrees_rounds {p q : Parser (Option α)} (h : Agrees F.option p q) :
    ∀ i, Agrees F.list (rounds p i) (rounds q i)
  | 0 => agrees_pure rfl
  | i + 1 => by
    refine h.bind fun x y hxy => ?_
    cases x with
    | none =>
      rw [hxy.eq_none]
      exact agrees_pure rfl
    | some a =>
      obtain ⟨b, rfl, hab⟩ := hxy.exists_some
      exact (agrees_rounds h i).map fun xs ys hxs => congrArg₂ List.cons hab hxs

/-- The number of tokens ahead bounds both runs alike. -/
theorem agrees_bounded {p q : Nat → Parser α} (h : ∀ i, Agrees F (p i) (q i)) :
    Agrees F (ahead >>= fun ts => p (ts.length + 1)) (ahead >>= fun ts => q (ts.length + 1)) :=
  agrees_look (g := List.length) (k := fun i => p (i + 1)) (m := fun i => q (i + 1))
    (fun _ _ _ => List.length_map _) fun i => h (i + 1)

theorem agrees_many {p q : Parser (Option α)} (h : Agrees F.option p q) :
    Agrees F.list (many p) (many q) :=
  agrees_bounded (agrees_rounds h)

theorem agrees_after? (h : Agrees F p q) :
    Agrees F.option (after? kind p) (after? kind q) :=
  agrees_ifEat (h.map fun _ _ hab => congrArg some hab) (agrees_pure rfl)

theorem agrees_commaSeparated (h : Agrees F p q) :
    Agrees F.list (commaSeparated p) (commaSeparated q) :=
  h.bind fun _ _ hab => (agrees_many (agrees_after? h)).map fun _ _ hxs =>
    congrArg₂ List.cons hab hxs

end

/-! ## Recovery -/

section
variable {α β : Type} {F : Likeness w n α} {G : Likeness w n β} {p q : Parser α}
  {isStart : List Token → Bool} {e e' : SyntaxError}

theorem agrees_attempt {k m : Except SyntaxError α → Parser β} (h : Agrees F p q)
    (hok : ∀ a b, F.Like a b → Agrees G (k (.ok a)) (m (.ok b)))
    (herror : ∀ e e', (SyntaxError.alike w n).Like e e' →
      Agrees G (k (.error e)) (m (.error e'))) :
    Agrees G (attempt p >>= k) (attempt q >>= m) := by
  intro s t hst
  have hpq := h s t hst
  show Agree G s t (EStateM.bind (attempt p) k s) (EStateM.bind (attempt q) m t)
  unfold EStateM.bind
  rw [attempt_eq, attempt_eq]
  generalize p s = x at hpq
  generalize q t = y at hpq
  cases hpq with
  | ok hab hst' hn => exact .trans hn (hok _ _ hab _ _ hst')
  | error he hst' hn => exact .trans hn (herror _ _ he _ _ hst')

theorem agrees_report (h : (SyntaxError.alike w n).Like e e') :
    Agrees (.plain w n) (report e) (report e') := fun _ _ hst =>
  .ok rfl { hst with } ⟨[e], [e'], rfl, rfl, congrArg (fun x => [x]) h⟩

theorem agrees_setOpened {o o' : Option Opened} (h : (Opened.alike w n).option.Like o o') :
    Agrees (.plain w n) (setOpened o) (setOpened o') :=
  fun _ _ hst => .ok rfl { hst with opened := h } (noted_of_errors rfl rfl)

/-- Which statement is open behind the parser does not depend on it. -/
theorem agrees_enclosed {start start' back back' : Option Opened → Option Opened}
    (h : Agrees F p q)
    (hstart : ∀ o o', (Opened.alike w n).option.Like o o' →
      (Opened.alike w n).option.Like (start o) (start' o'))
    (hback : ∀ o o', (Opened.alike w n).option.Like o o' →
      (Opened.alike w n).option.Like (back o) (back' o')) :
    Agrees F (enclosed start back p) (enclosed start' back' q) := by
  intro s t hst
  have hrun := (agrees_setOpened (hstart _ _ hst.opened)).bind fun _ _ _ => h.bind fun _ _ hab =>
    (agrees_setOpened (hback _ _ hst.opened)).bind fun _ _ _ => agrees_pure hab
  exact hrun s t hst

theorem skipTo_map {f : Token → Token} {i : Nat} (hk : ∀ t, (f t).kind = t.kind)
    (hl : ∀ t, (f t).line = t.line + i) (hi : ∀ ts, isStart (ts.map f) = isStart ts)
    (line depth : Nat) (ts : List Token) :
    (skipTo isStart line depth ts).map f = skipTo isStart (line + i) depth (ts.map f) := by
  induction ts generalizing depth with
  | nil => rfl
  | cons t ts ih =>
    have hs := hi (t :: ts)
    rw [List.map_cons] at hs
    simp only [skipTo, List.map_cons, hk, hs, hl, gt_iff_lt, Nat.add_lt_add_iff_right, ← ih,
      apply_ite (List.map f)]

/-- What is skipped is skipped on both sides. -/
def Skips (w : Wording) (n : Nat) (j j' : List Token → List Token) : Prop :=
  ∀ ts us, (Token.alike w n).list.Like ts us → (Token.alike w n).list.Like (j ts) (j' us)

theorem skips_skipTo (hi : Wordless isStart) {t u : Token} (h : (Token.alike w n).Like t u) :
    Skips w n (skipTo isStart t.line 0) (skipTo isStart u.line 0) := by
  intro ts us hts
  have hmove := skipTo_map (f := (Token.alike w n).move) (fun _ => rfl) (fun _ => rfl) hi.move
    t.line 0 ts
  have hword : ∀ vs, (skipTo isStart u.line 0 vs).map (Token.alike w n).word =
      skipTo isStart u.line 0 (vs.map (Token.alike w n).word) :=
    skipTo_map (f := (Token.alike w n).word) (i := 0) (fun _ => rfl) (fun _ => rfl) hi.word u.line 0
  rw [← h.line] at hmove
  exact (congrArg _ hmove).trans ((hword _).trans ((congrArg _ hts).trans (hword us).symm))

/-- What depends on the kinds of the tokens only. -/
theorem skips_of_map {j : List Token → List Token}
    (hj : ∀ f : Token → Token, (∀ t, (f t).kind = t.kind) → ∀ ts, (j ts).map f = j (ts.map f)) :
    Skips w n j j := by
  intro ts us hts
  have hword := hj (Token.alike w n).word fun _ => rfl
  exact (congrArg _ (hj (Token.alike w n).move (fun _ => rfl) ts)).trans
    ((hword _).trans ((congrArg _ hts).trans (hword us).symm))

theorem skips_skipDeclaration : Skips w n skipDeclaration skipDeclaration := by
  refine skips_of_map fun f hf ts => ?_
  simp only [skipDeclaration, ← List.map_drop, List.dropWhile_map, Function.comp_def, hf]

theorem agrees_giveUp {j j' : List Token → List Token} {b b' : β}
    (he : (SyntaxError.alike w n).Like e e') (hj : Skips w n j j') (hb : G.Like b b') :
    Agrees G (report e >>= fun _ => skip j >>= fun _ => pure b)
      (report e' >>= fun _ => skip j' >>= fun _ => pure b') := by
  have hskip : Agrees (.plain w n) (skip j) (skip j') := fun _ _ hst =>
    .ok rfl { hst with ahead := hj _ _ hst.ahead } (noted_of_errors rfl rfl)
  exact (agrees_report he).bind fun _ _ _ => hskip.bind fun _ _ _ => agrees_pure hb

theorem agrees_recovering (hi : Wordless isStart) (h : Agrees F p q) :
    Agrees F.option (recovering isStart p) (recovering isStart q) := by
  refine agrees_current.bind fun t u htu => agrees_attempt h (fun a b hab => ?_) fun e e' he => ?_
  · exact agrees_pure (congrArg some hab)
  · exact agrees_giveUp he (skips_skipTo hi htu) rfl

end

/-! ## Blocks -/

section
variable {α : Type} {F : Likeness w n α} {p q : Parser α} {block expected : String}

theorem agrees_reportUnclosed {t u : Token} (h : (Token.alike w n).Like t u) :
    Agrees (.plain w n) (reportUnclosed block t) (reportUnclosed block u) := by
  intro s t hst
  rw [reportUnclosed_eq, reportUnclosed_eq, hst.flag]
  split
  · exact .ok rfl hst (noted_of_errors rfl rfl)
  · exact .ok rfl { hst with flag := rfl }
      ⟨_, _, rfl, rfl, congrArg (fun p => [SyntaxError.mk (.unclosedBlock block) p]) h.pos⟩

theorem wordless_endsBlock : Wordless endsBlock := by
  intro v p ts
  cases ts <;> rfl

theorem agrees_bracedRound {t u : Token} (ht : (Token.alike w n).Like t u) (h : Agrees F p q) :
    Agrees F.option (bracedRound block t p) (bracedRound block u q) := by
  unfold bracedRound
  rw [atBlockEnd_eq]
  refine agrees_ifEat (agrees_pure rfl) ((agrees_peek wordless_endsBlock).bindPlain fun _ => ?_)
  exact agrees_ite ((agrees_reportUnclosed ht).bind fun _ _ _ => agrees_pure rfl)
    (h.map fun _ _ hab => congrArg some hab)

theorem agrees_braced (h : Agrees F p q) :
    Agrees F.list (braced block expected p) (braced block expected q) := by
  rw [braced_eq, braced_eq]
  exact agrees_expect.bind fun _ _ ht => agrees_many (agrees_bracedRound ht h)

end

end Parser

end Grammar

end UiScenario
