import Mathlib.Computability.Language
import UiScenario.Proofs.ParallelProgram

/-!
How declarations open. `opening` is the language of what stands in front of the members of a
declaration: a keyword, a name, perhaps more, and the brace.
-/

open scoped Computability

namespace UiScenario

/-! ## The language -/

def single (P : Token → Prop) : Language Token :=
  {ts | ∃ t, P t ∧ ts = [t]}

abbrev ofKind (kind : TokenKind) : Language Token :=
  single fun t => t.kind = kind

abbrev anyWord : Language Token :=
  single fun t => t.isWord = true

/-- A word or a quoted text. -/
def Token.IsTitle (t : Token) : Prop :=
  t.kind = .text ∨ t.isWord = true

/-- `PAGE name`, perhaps an address, and the brace. -/
def pageOpening : Language Token :=
  ofKind (.keyword .page) * anyWord * (1 + ofKind .lparen * ofKind .text * ofKind .rparen) *
    ofKind .lbrace

/-- `PAGEACTIONS name`, perhaps the page it is for, and the brace. -/
def libraryOpening : Language Token :=
  ofKind (.keyword .pageActions) * anyWord * (1 + ofKind (.keyword .for_) * anyWord) *
    ofKind .lbrace

/-- `FEATURE name`, tags, and the brace. -/
def featureOpening : Language Token :=
  ofKind (.keyword .feature) * single Token.IsTitle * (ofKind .tag)∗ * ofKind .lbrace

/-- The tokens of a declaration up to the brace that opens it. -/
def opening : Language Token :=
  pageOpening + libraryOpening + featureOpening

/-- Some sequence of the language starts so. -/
def Viable (L : Language Token) (front : List Token) : Prop :=
  ∃ more, front ++ more ∈ L

section
variable {P : Token → Prop} {L M : Language Token} {t : Token} {ts us front : List Token}

theorem mem_single_mul : ts ∈ single P * L ↔ ∃ t us, ts = t :: us ∧ P t ∧ us ∈ L := by
  rw [Language.mem_mul]
  constructor
  · rintro ⟨_, ⟨t, ht, rfl⟩, us, hus, rfl⟩
    exact ⟨t, us, rfl, ht, hus⟩
  · rintro ⟨t, us, rfl, ht, hus⟩
    exact ⟨[t], ⟨t, ht, rfl⟩, us, hus, rfl⟩

theorem cons_mem_single_mul : t :: ts ∈ single P * L ↔ P t ∧ ts ∈ L := by
  rw [mem_single_mul]
  constructor
  · rintro ⟨_, _, ⟨⟩, h⟩
    exact h
  · exact fun h => ⟨t, ts, rfl, h⟩

/-- A row is empty or has a first token. -/
theorem star_single_mul : (single P)∗ * L = L + single P * ((single P)∗ * L) := by
  calc (single P)∗ * L = (1 + single P * (single P)∗) * L := by
        rw [Language.one_add_self_mul_kstar_eq_kstar]
    _ = L + single P * ((single P)∗ * L) := by rw [add_mul, one_mul, mul_assoc]

theorem mem_star_single : ts ∈ (single P)∗ ↔ ∀ t ∈ ts, P t := by
  induction ts with
  | nil => simp [Language.nil_mem_kstar]
  | cons t ts ih =>
    rw [← Language.one_add_self_mul_kstar_eq_kstar, Language.mem_add, Language.mem_one,
      cons_mem_single_mul, List.forall_mem_cons]
    simp [ih]

theorem viable_of_append (h : Viable L (front ++ us)) : Viable L front := by
  obtain ⟨more, hm⟩ := h
  exact ⟨us ++ more, by rwa [← List.append_assoc]⟩

end

theorem pageOpening_eq : pageOpening = ofKind (.keyword .page) * (anyWord *
    (ofKind .lparen * (ofKind .text * (ofKind .rparen * ofKind .lbrace)) + ofKind .lbrace)) := by
  simp only [pageOpening, mul_assoc, add_mul, one_mul, add_comm]

theorem libraryOpening_eq : libraryOpening = ofKind (.keyword .pageActions) * (anyWord *
    (ofKind (.keyword .for_) * (anyWord * ofKind .lbrace) + ofKind .lbrace)) := by
  simp only [libraryOpening, mul_assoc, add_mul, one_mul, add_comm]

theorem featureOpening_eq : featureOpening = ofKind (.keyword .feature) * (single Token.IsTitle *
    ((ofKind .tag)∗ * ofKind .lbrace)) := by
  simp only [featureOpening, mul_assoc]

/-! ## The forms of openings -/

section
variable {t : Token} {ts us g : List Token}

theorem kind_of_cons_mem_opening : t :: ts ∈ opening ↔
    t.kind = .keyword .page ∧ t :: ts ∈ pageOpening ∨
    t.kind = .keyword .pageActions ∧ t :: ts ∈ libraryOpening ∨
    t.kind = .keyword .feature ∧ t :: ts ∈ featureOpening := by
  have hp : t :: ts ∈ pageOpening → t.kind = .keyword .page := by
    rw [pageOpening_eq, cons_mem_single_mul]
    exact And.left
  have hl : t :: ts ∈ libraryOpening → t.kind = .keyword .pageActions := by
    rw [libraryOpening_eq, cons_mem_single_mul]
    exact And.left
  have hf : t :: ts ∈ featureOpening → t.kind = .keyword .feature := by
    rw [featureOpening_eq, cons_mem_single_mul]
    exact And.left
  rw [opening, Language.mem_add, Language.mem_add, or_assoc, and_iff_right_of_imp hp,
    and_iff_right_of_imp hl, and_iff_right_of_imp hf]

theorem page_mem_opening {k n b : Token} (hk : k.kind = .keyword .page) (hn : n.isWord = true)
    (hb : b.kind = .lbrace) : [k, n, b] ∈ opening := by
  rw [kind_of_cons_mem_opening, pageOpening_eq]
  exact .inl ⟨hk, cons_mem_single_mul.2 ⟨hk, cons_mem_single_mul.2 ⟨hn, .inr ⟨b, hb, rfl⟩⟩⟩⟩

/-- What can come behind the keyword and the name of a declaration, up to its brace. -/
inductive OpeningTail : List Token → Prop
  | tags {tags : List Token} {b : Token} : (∀ t ∈ tags, t.kind = .tag) → b.kind = .lbrace →
    OpeningTail (tags ++ [b])
  | address {l u r b : Token} : l.kind = .lparen → u.kind = .text → r.kind = .rparen →
    b.kind = .lbrace → OpeningTail [l, u, r, b]
  | forPage {f p b : Token} : f.kind = .keyword .for_ → p.isWord = true → b.kind = .lbrace →
    OpeningTail [f, p, b]

/-- An opening starts with a keyword and a name. -/
theorem exists_of_mem_opening (h : ts ∈ opening) : ∃ k n us, ts = k :: n :: us ∧
    k.kind.startsDeclaration = true ∧ n.IsTitle ∧ OpeningTail us := by
  rcases h with (h | h) | h
  · rw [pageOpening_eq] at h
    obtain ⟨k, _, rfl, hk, h⟩ := mem_single_mul.1 h
    obtain ⟨n, us, rfl, hn, h⟩ := mem_single_mul.1 h
    refine ⟨k, n, us, rfl, by rw [hk]; rfl, .inr hn, ?_⟩
    rcases h with h | ⟨b, hb, rfl⟩
    · obtain ⟨l, _, rfl, hl, h⟩ := mem_single_mul.1 h
      obtain ⟨u, _, rfl, hu, h⟩ := mem_single_mul.1 h
      obtain ⟨r, _, rfl, hr, b, hb, rfl⟩ := mem_single_mul.1 h
      exact .address hl hu hr hb
    · exact .tags (List.forall_mem_nil _) hb
  · rw [libraryOpening_eq] at h
    obtain ⟨k, _, rfl, hk, h⟩ := mem_single_mul.1 h
    obtain ⟨n, us, rfl, hn, h⟩ := mem_single_mul.1 h
    refine ⟨k, n, us, rfl, by rw [hk]; rfl, .inr hn, ?_⟩
    rcases h with h | ⟨b, hb, rfl⟩
    · obtain ⟨f, _, rfl, hf, h⟩ := mem_single_mul.1 h
      obtain ⟨p, _, rfl, hp, b, hb, rfl⟩ := mem_single_mul.1 h
      exact .forPage hf hp hb
    · exact .tags (List.forall_mem_nil _) hb
  · rw [featureOpening_eq] at h
    obtain ⟨k, _, rfl, hk, h⟩ := mem_single_mul.1 h
    obtain ⟨n, us, rfl, hn, h⟩ := mem_single_mul.1 h
    refine ⟨k, n, us, rfl, by rw [hk]; rfl, hn, ?_⟩
    obtain ⟨tags, htags, _, ⟨b, hb, rfl⟩, rfl⟩ := Language.mem_mul.1 h
    exact .tags (mem_star_single.1 htags) hb

theorem Token.IsTitle.kind_ne (h : t.IsTitle) :
    t.kind ≠ .lbrace ∧ t.kind ≠ .lparen ∧ t.kind ≠ .tag := by
  rcases h with h | h
  · rw [h]
    decide
  · refine ⟨?_, ?_, ?_⟩ <;> intro hk <;> simp [Token.isWord, hk, TokenKind.isWord] at h

/-- Only the last token is a brace. -/
theorem OpeningTail.exists_concat (h : OpeningTail us) :
    ∃ vs b, us = vs ++ [b] ∧ b.kind = .lbrace ∧ ∀ t ∈ vs, t.kind ≠ .lbrace := by
  cases h with
  | @tags tags b htags hb =>
    refine ⟨tags, b, rfl, hb, fun t ht => ?_⟩
    rw [htags t ht]
    decide
  | @address l u r b hl hu hr hb => exact ⟨[l, u, r], b, rfl, hb, by simp [hl, hu, hr]⟩
  | @forPage f p b hf hp hb =>
    have hne := (Token.IsTitle.kind_ne (.inr hp)).1
    exact ⟨[f, p], b, rfl, hb, by simp [hf, hne]⟩

theorem exists_concat_of_mem_opening (h : ts ∈ opening) :
    ∃ vs b, ts = vs ++ [b] ∧ b.kind = .lbrace ∧ ∀ t ∈ vs, t.kind ≠ .lbrace := by
  obtain ⟨k, n, us, rfl, hk, hn, hus⟩ := exists_of_mem_opening h
  obtain ⟨vs, b, rfl, hb, hvs⟩ := hus.exists_concat
  refine ⟨k :: n :: vs, b, rfl, hb, ?_⟩
  rw [List.forall_mem_cons, List.forall_mem_cons]
  refine ⟨fun hl => ?_, hn.kind_ne.1, hvs⟩
  rw [hl] at hk
  cases hk

/-- Behind a name, a title can only be the word `FOR` in front of another name. -/
theorem OpeningTail.eq_of_title {n : Token} (h : OpeningTail (n :: us)) (hn : n.IsTitle) :
    ∃ p b, us = [p, b] ∧ p.isWord = true := by
  obtain ⟨hb, hl, htag⟩ := hn.kind_ne
  generalize he : n :: us = vs at h
  cases h with
  | @tags tags b htags hb' =>
    cases tags with
    | nil =>
      cases he
      exact absurd hb' hb
    | cons u tags =>
      cases he
      exact absurd (htags n List.mem_cons_self) htag
  | address hl' _ _ _ =>
    cases he
    exact absurd hl' hl
  | @forPage f p b _ hp _ =>
    cases he
    exact ⟨p, b, rfl, hp⟩

theorem OpeningTail.not_word {p b : Token} (h : OpeningTail [p, b]) : p.isWord = false := by
  generalize he : [p, b] = vs at h
  cases h with
  | @tags tags c htags hc =>
    rcases tags with _ | ⟨u, tags⟩
    · cases he
    · obtain rfl : p = u := (List.cons.inj he).1
      simp [Token.isWord, htags p List.mem_cons_self, TokenKind.isWord]
  | address => cases he
  | forPage => cases he

/-- Behind a name, no declaration keyword stands in front of a title. -/
theorem OpeningTail.not_declaration {k n : Token} (h : OpeningTail (g ++ k :: n :: us))
    (hk : k.kind.startsDeclaration = true) (hn : n.IsTitle) : False := by
  generalize he : g ++ k :: n :: us = vs at h
  have hmem : k ∈ vs := by simp [← he]
  cases h with
  | @tags tags b htags hb =>
    rcases List.mem_append.1 hmem with hm | hm
    · rw [htags k hm] at hk
      cases hk
    · rw [List.mem_singleton.1 hm, hb] at hk
      cases hk
  | @address l u r b hl hu hr hb =>
    simp only [List.mem_cons, List.not_mem_nil, or_false] at hmem
    rcases hmem with rfl | rfl | rfl | rfl
    · rw [hl] at hk; cases hk
    · rw [hu] at hk; cases hk
    · rw [hr] at hk; cases hk
    · rw [hb] at hk; cases hk
  | @forPage f p b hf hp hb =>
    rcases g with _ | ⟨x, _ | ⟨y, g⟩⟩
    · cases he
      rw [hf] at hk
      cases hk
    · cases he
      exact hn.kind_ne.1 hb
    · have hlength := congrArg List.length he
      simp only [List.length_append, List.length_cons, List.length_nil] at hlength
      omega

theorem append_notMem_opening (hg : g ≠ []) (h : ts ∈ opening) : g ++ ts ∉ opening := by
  intro h'
  obtain ⟨k, n, us, rfl, hk, hn, hus⟩ := exists_of_mem_opening h
  obtain ⟨k', n', us', he, -, -, hus'⟩ := exists_of_mem_opening h'
  rcases g with _ | ⟨x, _ | ⟨y, g⟩⟩
  · exact hg rfl
  · -- the keyword is read as the name
    cases he
    obtain ⟨p, b, rfl, hp⟩ := hus'.eq_of_title hn
    rw [hus.not_word] at hp
    cases hp
  · cases he
    exact hus'.not_declaration hk hn

/-- In front of an opening there is no other one. -/
theorem append_ne_of_mem_opening {x y : List Token} (hg : g ≠ [])
    (hbrace : ∀ t ∈ g, t.kind ≠ .lbrace) (h : ts ∈ opening) (h' : us ∈ opening) :
    us ++ x ≠ g ++ ts ++ y := by
  intro he
  obtain ⟨vs, b, rfl, hb, hvs⟩ := exists_concat_of_mem_opening h
  obtain ⟨vs', b', rfl, hb', hvs'⟩ := exists_concat_of_mem_opening h'
  have hfront : ∀ t ∈ g ++ vs, t.kind ≠ .lbrace := by
    intro t ht
    exact (List.mem_append.1 ht).elim (hbrace t) (hvs t)
  -- both end with the first brace
  have hsame : vs' = g ++ vs := by
    have hcut : vs' ++ (b' :: x) = g ++ vs ++ (b :: y) := by simpa using he
    rcases List.append_eq_append_iff.1 hcut with ⟨c, hc, hrest⟩ | ⟨c, hc, hrest⟩
    · cases c with
      | nil => rw [hc, List.append_nil]
      | cons u c =>
        cases hrest
        exact absurd hb' (hfront b' (by simp [hc]))
    · cases c with
      | nil => rw [hc, List.append_nil]
      | cons u c =>
        cases hrest
        exact absurd hb (hvs' b (by simp [hc]))
  subst hsame
  have hbb : b' = b := by simpa using (List.append_inj he (by simp)).1
  subst hbb
  exact append_notMem_opening hg h (by simpa using h')

end

namespace Grammar

open UiScenario.Grammar.Parser

/-! ## Keeping to a language -/

theorem startsWith_eq_true_iff {kind : TokenKind} {ts : List Token} :
    startsWith kind ts = true ↔ ∃ t ∈ ts.head?, t.kind = kind := by
  cases ts <;> simp [startsWith]

/-- A run from `s` with the given result keeps to the language. -/
inductive KeepsTo {α : Type} (L : Language Token) (s : State)
    (result : EStateM.Result SyntaxError State α) : Prop
  | through {h rest : List Token} : s.ahead = h ++ rest → h ∈ L → KeepsTo L s result
  | stopped {front stop : List Token} {expected : String} : s.ahead = front ++ stop →
    Viable L front → (∀ t ∈ stop.head?, ¬Viable L (front ++ [t])) →
    result = .error ((s.leaving stop).unexpected expected) (s.leaving stop) → KeepsTo L s result

/-- Runs of the parser keep to the language. -/
structure Expects {α : Type} (L : Language Token) (p : Parser α) : Prop where
  nonempty : ∃ ts, ts ∈ L
  keepsTo : ∀ s : State, s.last.kind = .eof → KeepsTo L s (p s)

/-- The parser reads a token of the class or stops there. -/
structure Takes {α : Type} (P : Token → Prop) (p : Parser α) : Prop where
  inhabited : ∃ t, P t
  value : ∀ (s : State) (t : Token) (ts : List Token), s.ahead = t :: ts → P t →
    ∃ a, p s = .ok a (s.leaving ts)
  fault : ∀ s : State, s.last.kind = .eof → (∀ t ∈ s.ahead.head?, ¬P t) →
    ∃ expected, p s = .error (s.unexpected expected) s

section
variable {α β : Type} {P : Token → Prop} {L M : Language Token} {p : Parser α} {k : α → Parser β}
  {s : State} {t : Token} {us : List Token} {result : EStateM.Result SyntaxError State α}

theorem KeepsTo.cons (h : KeepsTo L (s.leaving us) result) (hs : s.ahead = t :: us)
    (hL : ∀ ts, t :: ts ∈ M ↔ ts ∈ L) : KeepsTo M s result := by
  have hv : ∀ front, Viable M (t :: front) ↔ Viable L front :=
    fun front => exists_congr fun more => hL (front ++ more)
  cases h with
  | @through front rest ha hm =>
    rw [ahead_leaving] at ha
    exact .through (h := t :: front) (by rw [hs, ha, List.cons_append]) ((hL _).2 hm)
  | @stopped front stop expected ha hfront hstop hr =>
    rw [ahead_leaving] at ha
    have hcut : s.ahead = t :: front ++ stop := by rw [hs, ha, List.cons_append]
    refine .stopped hcut ((hv _).2 hfront) ?_ hr
    intro u hu hviable
    exact hstop u hu ((hv _).1 hviable)

/-- Only sequences that start with the next token matter. -/
theorem KeepsTo.of_head (h : KeepsTo L s result) (hsub : ∀ ts ∈ L, ts ∈ M)
    (hback : ∀ t ∈ s.ahead.head?, ∀ ts, t :: ts ∈ M → t :: ts ∈ L) : KeepsTo M s result := by
  cases h with
  | through ha hm => exact .through ha (hsub _ hm)
  | @stopped front stop expected ha hfront hstop hr =>
    refine .stopped ha (hfront.imp fun _ => hsub _) (fun u hu hviable => hstop u hu ?_) hr
    obtain ⟨more, hm⟩ := hviable
    cases front with
    | nil =>
      rw [List.nil_append] at ha
      exact ⟨more, hback u (by rwa [ha]) _ hm⟩
    | cons t front => exact ⟨more, hback t (by simp [ha]) _ hm⟩

theorem KeepsTo.of_cons (h : KeepsTo L s result) (hs : s.ahead = t :: us)
    (hsub : ∀ ts ∈ L, ts ∈ M) (hback : ∀ ts, t :: ts ∈ M → t :: ts ∈ L) : KeepsTo M s result := by
  refine h.of_head hsub fun u hu ts hm => ?_
  rw [hs, List.head?_cons, Option.mem_some_iff] at hu
  subst hu
  exact hback ts hm

theorem KeepsTo.bind (h : KeepsTo L s (p s)) : KeepsTo L s ((p >>= k) s) := by
  cases h with
  | through ha hm => exact .through ha hm
  | stopped ha hfront hstop hr => exact .stopped ha hfront hstop (bind_of_error hr)

theorem Expects.bind (h : Expects L p) : Expects L (p >>= k) :=
  ⟨h.nonempty, fun s hl => (h.keepsTo s hl).bind⟩

theorem expects_one : Expects 1 p :=
  ⟨⟨[], Language.nil_mem_one⟩, fun _ _ => .through (List.nil_append _).symm Language.nil_mem_one⟩

theorem keepsTo_advance {k : Token → Parser β} (hs : s.ahead = t :: us) (ht : P t)
    (hl : s.last.kind = .eof) (hk : ∀ u, Expects L (k u)) :
    KeepsTo (single P * L) s ((advance >>= k) s) := by
  have hr : advance s = .ok t (s.leaving us) := by
    rw [← leaving_ahead s, hs]
    exact advance_cons
  rw [bind_of_ok hr]
  exact ((hk t).keepsTo (s.leaving us) hl).cons hs fun ts => by simp [cons_mem_single_mul, ht]

theorem Takes.bind (h : Takes P p) (hk : ∀ a, Expects L (k a)) :
    Expects (single P * L) (p >>= k) := by
  obtain ⟨t₀, ht₀⟩ := h.inhabited
  obtain ⟨a₀, s₀, hr₀⟩ : ∃ a₀ s₀, p (State.ofTokens [] |>.leaving [t₀]) = .ok a₀ s₀ :=
    (h.value _ t₀ [] rfl ht₀).imp fun a ha => ⟨_, ha⟩
  obtain ⟨ts₀, hts₀⟩ := (hk a₀).nonempty
  have hne : t₀ :: ts₀ ∈ single P * L := cons_mem_single_mul.2 ⟨ht₀, hts₀⟩
  refine ⟨⟨_, hne⟩, fun s hl => ?_⟩
  by_cases hhead : ∃ t us, s.ahead = t :: us ∧ P t
  · obtain ⟨t, us, hs, ht⟩ := hhead
    obtain ⟨a, hr⟩ := h.value s t us hs ht
    rw [bind_of_ok hr]
    exact ((hk a).keepsTo (s.leaving us) hl).cons hs fun ts => by simp [cons_mem_single_mul, ht]
  · have hno : ∀ t ∈ s.ahead.head?, ¬P t := by
      intro t ht hP
      obtain ⟨us, hs⟩ := List.head?_eq_some_iff.1 ht
      exact hhead ⟨t, us, hs, hP⟩
    obtain ⟨expected, hr⟩ := h.fault s hl hno
    refine .stopped (List.nil_append s.ahead).symm ⟨_, hne⟩ ?_ (bind_of_error hr)
    rintro t ht ⟨more, hm⟩
    exact hno t ht (cons_mem_single_mul.1 hm).1

theorem expects_after? {kind : TokenKind} {k : Option α → Parser β}
    (h : Expects L (p >>= fun a => k (some a))) (h' : Expects M (k none))
    (hM : ∀ t ts, t :: ts ∈ M → t.kind ≠ kind) :
    Expects (ofKind kind * L + M) (after? kind p >>= k) := by
  obtain ⟨ts₀, hts₀⟩ := h'.nonempty
  refine ⟨⟨ts₀, .inr hts₀⟩, fun s hl => ?_⟩
  have heq : after? kind p >>= k = eat kind >>= fun b =>
      if b = true then p >>= fun a => k (some a) else k none := by
    unfold after?
    simp only [bind_assoc]
    congr 1
    funext b
    cases b <;> simp only [if_true, if_false, bind_assoc, pure_bind, Bool.false_eq_true]
  rw [heq]
  by_cases hk : startsWith kind s.ahead = true
  · obtain ⟨t, hhead, ht⟩ := startsWith_eq_true_iff.1 hk
    obtain ⟨us, hs⟩ := List.head?_eq_some_iff.1 hhead
    have heat : eat kind s = .ok true (s.leaving us) := by
      rw [eat_of_startsWith hk, hs]
      rfl
    rw [bind_of_ok heat]
    refine (h.keepsTo (s.leaving us) hl).cons hs fun ts => ?_
    rw [Language.mem_add, cons_mem_single_mul]
    exact ⟨fun hm => hm.elim And.right fun hm => absurd ht (hM t ts hm), fun hm => .inl ⟨ht, hm⟩⟩
  · rw [bind_of_ok (eat_of_not_startsWith (Bool.eq_false_iff.2 hk))]
    refine (h'.keepsTo s hl).of_head (fun ts hm => .inr hm) fun t ht ts hm => ?_
    refine hm.resolve_left fun hm => hk ?_
    exact startsWith_eq_true_iff.2 ⟨t, ht, (cons_mem_single_mul.1 hm).1⟩

end

/-! ## The rules -/

section
variable {α β : Type} {s : State} {kind : TokenKind} {expected : String}

theorem takes_expect : Takes (fun t => t.kind = kind) (expect kind expected) where
  inhabited := ⟨⟨kind, "", .start⟩, rfl⟩
  value s t ts hs ht := by
    have hk : startsWith kind s.ahead = true := startsWith_eq_true_iff.2 ⟨t, by simp [hs], ht⟩
    refine ⟨t, ?_⟩
    rw [expect_eq, if_pos hk, ← leaving_ahead s, hs]
    exact advance_cons
  fault s _ hno := by
    refine ⟨expected, ?_⟩
    rw [expect_eq, if_neg]
    · rfl
    · intro hk
      obtain ⟨t, ht, hkind⟩ := startsWith_eq_true_iff.1 hk
      exact hno t ht hkind

theorem takes_name : Takes (fun t => t.isWord = true) (name expected) where
  inhabited := ⟨⟨.identifier, "", .start⟩, rfl⟩
  value s t ts hs ht := by
    refine ⟨t.value, ?_⟩
    rw [← leaving_ahead s, hs]
    show (if t.isWord = true then _ else _ : Parser String) _ = _
    rw [if_pos ht]
    rfl
  fault s hl hno := by
    have hc : s.current.isWord = false := by
      unfold State.current
      cases hs : s.ahead with
      | nil => simp [Token.isWord, hl, TokenKind.isWord]
      | cons t ts => simpa using hno t (by simp [hs])
    refine ⟨expected, ?_⟩
    show (if s.current.isWord = true then _ else _ : Parser String) s = _
    rw [hc]
    rfl

theorem title_eq (expected : String) (s : State) : title expected s =
    (if startsWith .text s.ahead = true then advance >>= fun t => pure t.value else name expected :
      Parser String) s := rfl

theorem takes_title : Takes Token.IsTitle (title expected) where
  inhabited := ⟨⟨.text, "", .start⟩, .inl rfl⟩
  value s t ts hs ht := by
    by_cases hk : startsWith .text s.ahead = true
    · refine ⟨t.value, ?_⟩
      rw [title_eq, if_pos hk, ← leaving_ahead s, hs]
      rfl
    · have htext : t.kind ≠ .text := fun h => hk (startsWith_eq_true_iff.2 ⟨t, by simp [hs], h⟩)
      rw [title_eq, if_neg hk]
      exact takes_name.value s t ts hs (ht.resolve_left htext)
  fault s hl hno := by
    have hk : ¬startsWith .text s.ahead = true := by
      intro h
      obtain ⟨t, ht, hkind⟩ := startsWith_eq_true_iff.1 h
      exact hno t ht (.inl hkind)
    rw [title_eq, if_neg hk]
    exact takes_name.fault s hl fun t ht hw => hno t ht (.inr hw)

theorem expects_braced {block : String} {member : Parser α} :
    Expects (ofKind .lbrace) (braced block expected member) := by
  rw [braced_eq, ← mul_one (ofKind .lbrace)]
  exact takes_expect.bind fun _ => expects_one

theorem exists_row (ts : List Token) :
    ∃ row rest, ts = row ++ rest ∧ (∀ t ∈ row, t.kind = .tag) ∧ startsWith .tag rest = false := by
  refine ⟨ts.takeWhile (·.kind == .tag), ts.dropWhile (·.kind == .tag),
    List.takeWhile_append_dropWhile.symm, fun t ht => ?_, ?_⟩
  · have htag := List.mem_takeWhile_imp ht
    exact beq_iff_eq.1 htag
  · cases hd : ts.dropWhile (·.kind == .tag) with
    | nil => rfl
    | cons t us =>
      have hne := List.head_dropWhile_not (·.kind == .tag) (l := ts) (by simp [hd])
      simpa [hd, startsWith] using hne

theorem tags_of_row {row rest : List Token} (hrow : ∀ t ∈ row, t.kind = .tag)
    (hrest : startsWith .tag rest = false) (s : State) :
    tags (s.leaving (row ++ rest)) = .ok (row.map Token.value) (s.leaving rest) := by
  have hround : ∀ ts, tagRound (s.leaving ts) = (if startsWith .tag ts = true then
      advance >>= fun t => pure (some t.value) else pure none : Parser (Option String))
        (s.leaving ts) := fun ts => rfl
  have hx : Repeats tagRound (s.leaving (row ++ rest)) (row.map Token.value) (s.leaving rest) := by
    induction row with
    | nil => exact .nil _
    | cons t row ih =>
      rw [List.forall_mem_cons] at hrow
      have htag : startsWith .tag (t :: row ++ rest) = true := beq_iff_eq.2 hrow.1
      refine .cons ?_ (ih hrow.2)
      rw [hround, if_pos htag]
      rfl
  have hnone : tagRound (s.leaving rest) = .ok none (s.leaving rest) := by
    rw [hround, hrest]
    rfl
  refine rounds_of_repeats hx hnone ?_
  rw [ahead_leaving, List.length_map, List.length_append]
  omega

section
variable {L : Language Token} {result : EStateM.Result SyntaxError State β}

theorem cons_mem_tags_mul {t : Token} {ts : List Token} : t :: ts ∈ (ofKind .tag)∗ * L ↔
    t :: ts ∈ L ∨ t.kind = .tag ∧ ts ∈ (ofKind .tag)∗ * L := by
  nth_rewrite 1 [star_single_mul]
  rw [Language.mem_add, cons_mem_single_mul]

theorem mem_tags_mul {ts : List Token} (h : ts ∈ L) : ts ∈ (ofKind .tag)∗ * L :=
  Language.append_mem_mul (Language.nil_mem_kstar _) h

/-- A row of tags in front of what does not start with a tag. -/
theorem KeepsTo.row {row rest : List Token} (h : KeepsTo L (s.leaving rest) result)
    (hrow : ∀ t ∈ row, t.kind = .tag) (hrest : startsWith .tag rest = false)
    (hL : ∀ t ts, t :: ts ∈ L → t.kind ≠ .tag) :
    KeepsTo ((ofKind .tag)∗ * L) (s.leaving (row ++ rest)) result := by
  induction row with
  | nil =>
    refine h.of_head (fun ts => mem_tags_mul) fun t ht ts hm => ?_
    obtain ⟨us, rfl⟩ := List.head?_eq_some_iff.1 ht
    exact (cons_mem_tags_mul.1 hm).resolve_right fun hm => beq_eq_false_iff_ne.1 hrest hm.1
  | cons t row ih =>
    rw [List.forall_mem_cons] at hrow
    refine KeepsTo.cons (s := s.leaving (t :: (row ++ rest))) (ih hrow.2) rfl fun ts => ?_
    rw [cons_mem_tags_mul]
    exact ⟨fun hm => hm.elim (fun hm => absurd hrow.1 (hL t ts hm)) And.right,
      fun hm => .inr ⟨hrow.1, hm⟩⟩

/-- Tags, and what does not start with a tag. -/
theorem expects_tags {k : List String → Parser β} (hk : ∀ names, Expects L (k names))
    (hL : ∀ t ts, t :: ts ∈ L → t.kind ≠ .tag) : Expects ((ofKind .tag)∗ * L) (tags >>= k) := by
  obtain ⟨ts₀, hts₀⟩ := (hk []).nonempty
  refine ⟨⟨ts₀, mem_tags_mul hts₀⟩, fun s hl => ?_⟩
  obtain ⟨row, rest, hs, hrow, hrest⟩ := exists_row s.ahead
  have hread := tags_of_row hrow hrest s
  have hrun := ((hk (row.map Token.value)).keepsTo (s.leaving rest) hl).row hrow hrest hL
  rw [← hs, leaving_ahead] at hread hrun
  rwa [bind_of_ok hread]

end

end

/-! ## Declarations -/

section
variable {t : Token} {ts : List Token} {s : State}

theorem cons_mem_lbrace (h : t :: ts ∈ ofKind .lbrace) : t.kind = .lbrace ∧ ts = [] := by
  rwa [← mul_one (ofKind .lbrace), cons_mem_single_mul, Language.mem_one] at h

theorem keepsTo_page (hs : s.ahead = t :: ts) (ht : t.kind = .keyword .page)
    (hl : s.last.kind = .eof) : KeepsTo pageOpening s (page s) := by
  rw [pageOpening_eq]
  refine keepsTo_advance hs ht hl fun _ => takes_name.bind fun n => ?_
  refine expects_after? ?_ expects_braced.bind fun u us hm => ?_
  · simp only [bind_assoc]
    exact takes_expect.bind fun _ => takes_expect.bind fun _ => expects_braced.bind
  · rw [(cons_mem_lbrace hm).1]
    decide

theorem keepsTo_library (hs : s.ahead = t :: ts) (ht : t.kind = .keyword .pageActions)
    (hl : s.last.kind = .eof) : KeepsTo libraryOpening s (library s) := by
  rw [libraryOpening_eq]
  refine keepsTo_advance hs ht hl fun _ => takes_name.bind fun n => ?_
  refine expects_after? (takes_name.bind fun _ => expects_braced.bind) expects_braced.bind ?_
  intro u us hm
  rw [(cons_mem_lbrace hm).1]
  decide

theorem keepsTo_feature (hs : s.ahead = t :: ts) (ht : t.kind = .keyword .feature)
    (hl : s.last.kind = .eof) : KeepsTo featureOpening s (feature s) := by
  rw [featureOpening_eq]
  refine keepsTo_advance hs ht hl fun _ => takes_title.bind fun n => ?_
  refine expects_tags (fun _ => expects_braced.bind) fun u us hm => ?_
  rw [(cons_mem_lbrace hm).1]
  decide

/-- The declaration that starts with a token of the given kind. -/
def declarationAt (kind : TokenKind) : Parser Declaration :=
  match kind with
  | .keyword .page => return .page (← page)
  | .keyword .pageActions => return .library (← library)
  | .keyword .feature => return .feature (← feature)
  | _ => fail "PAGE, PAGEACTIONS or FEATURE"

theorem declaration_eq : declaration = current >>= fun t => declarationAt t.kind := rfl

theorem exists_cons_of_current {kind : TokenKind} (hl : s.last.kind = .eof)
    (hs : s.current.kind = kind) (hk : kind ≠ .eof) :
    ∃ t ts, s.ahead = t :: ts ∧ t.kind = kind := by
  unfold State.current at hs
  cases ha : s.ahead with
  | nil =>
    rw [ha] at hs
    exact absurd (hs.symm.trans hl) hk
  | cons t ts =>
    rw [ha] at hs
    exact ⟨t, ts, rfl, hs⟩

theorem expects_declaration : Expects opening declaration := by
  have hne : ∃ ts, ts ∈ opening :=
    ⟨[⟨.keyword .page, "", .start⟩, ⟨.identifier, "", .start⟩, ⟨.lbrace, "", .start⟩],
      page_mem_opening rfl rfl rfl⟩
  refine ⟨hne, fun s hl => ?_⟩
  rw [declaration_eq]
  show KeepsTo opening s (declarationAt s.current.kind s)
  generalize hp : declarationAt s.current.kind = p
  unfold declarationAt at hp
  split at hp
  · next hc =>
    subst hp
    obtain ⟨t, ts, hs, ht⟩ := exists_cons_of_current hl hc (by decide)
    refine (keepsTo_page hs ht hl).bind.of_cons hs (fun us hm => .inl (.inl hm)) fun us hm => ?_
    rw [kind_of_cons_mem_opening, ht] at hm
    simpa using hm
  · next hc =>
    subst hp
    obtain ⟨t, ts, hs, ht⟩ := exists_cons_of_current hl hc (by decide)
    refine (keepsTo_library hs ht hl).bind.of_cons hs (fun us hm => .inl (.inr hm)) fun us hm => ?_
    rw [kind_of_cons_mem_opening, ht] at hm
    simpa using hm
  · next hc =>
    subst hp
    obtain ⟨t, ts, hs, ht⟩ := exists_cons_of_current hl hc (by decide)
    refine (keepsTo_feature hs ht hl).bind.of_cons hs (fun us hm => .inr hm) fun us hm => ?_
    rw [kind_of_cons_mem_opening, ht] at hm
    simpa using hm
  · next hpage hlibrary hfeature =>
    subst hp
    refine .stopped (List.nil_append s.ahead).symm hne (fun t ht hviable => ?_) rfl
    obtain ⟨more, hm⟩ := hviable
    obtain ⟨ts, hs⟩ := List.head?_eq_some_iff.1 ht
    have hc : s.current = t := by rw [State.current, hs]; rfl
    rw [hc] at hpage hlibrary hfeature
    rcases kind_of_cons_mem_opening.1 hm with h | h | h
    · exact hpage h.1
    · exact hlibrary h.1
    · exact hfeature h.1

end

end Grammar

end UiScenario
