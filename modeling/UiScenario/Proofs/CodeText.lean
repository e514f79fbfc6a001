import UiScenario.Proofs.Literals
import UiScenario.Token.Lexeme

/-!
Texts of generated code, seen from outside of the texts that are quoted in it. An expression that
waits for nothing is passed over in one go: its brackets close again, its quotes too, outside of all
brackets it has no sign that ends an operand, and nowhere does it have the word `await`.
-/

namespace UiScenario.Code

/-! ## Quoted texts -/

/-- Where a character of code stands. -/
inductive Quoting where
  | outside | inside | escaped
deriving DecidableEq

def Quoting.next : Quoting → Char → Quoting
  | outside, c => if c = '\'' then inside else outside
  | inside, c => if c = '\'' then outside else if c = '\\' then escaped else inside
  | escaped, _ => inside

def quotingAfter (cs : List Char) : Quoting :=
  cs.foldl Quoting.next .outside

theorem quotingAfter_append {xs : List Char} (h : quotingAfter xs = .outside) (ys : List Char) :
    quotingAfter (xs ++ ys) = quotingAfter ys := by
  rw [quotingAfter, List.foldl_append]
  show ys.foldl Quoting.next (quotingAfter xs) = _
  rw [h]
  rfl

theorem quotingAfter_flatMap {α : Type} {f : α → List Char} {xs : List α}
    (h : ∀ x ∈ xs, quotingAfter (f x) = .outside) : quotingAfter (xs.flatMap f) = .outside := by
  induction xs with
  | nil => rfl
  | cons x xs ih =>
    rw [List.flatMap_cons, quotingAfter_append (h x (List.mem_cons_self ..))]
    exact ih fun y hy => h y (List.mem_cons_of_mem _ hy)

/-! ## Reading from left to right -/

/-- How deep in brackets the next character stands. -/
def nest (depth : Nat) (c : Char) : Nat :=
  if c = '(' ∨ c = '[' ∨ c = '\x7b' then depth + 1
  else if c = ')' ∨ c = ']' ∨ c = '\x7d' then depth - 1
  else depth

/-- Whether a character outside of all brackets ends an operand. -/
def endsOperand (c : Char) : Bool :=
  ['&', '|', '?', ':', ',', ';', ')', ']', '\x7d'].contains c

/-- A place in code, with the character in front of it. -/
structure Scan where
  quoting : Quoting
  depth : Nat
  last : Char

namespace Scan

variable {s s' : Scan} {c : Char}

/-- Passes over a character, if it does not end an operand and is not the blank behind `await`. No
    other word that ends in `t` stands in front of a blank. -/
def next (s : Scan) (c : Char) : Option Scan :=
  if s.quoting = .outside then
    if s.depth = 0 ∧ endsOperand c = true ∨ s.last = 't' ∧ c = ' ' then none
    else some ⟨s.quoting.next c, nest s.depth c, c⟩
  else some ⟨s.quoting.next c, s.depth, c⟩

def run (s : Scan) (cs : List Char) : Option Scan :=
  cs.foldlM next s

theorem run_cons (s : Scan) (c : Char) (cs : List Char) :
    s.run (c :: cs) = (s.next c).bind (·.run cs) :=
  rfl

theorem run_append (s : Scan) (xs ys : List Char) :
    s.run (xs ++ ys) = (s.run xs).bind (·.run ys) :=
  List.foldlM_append

theorem next_inside (d : Nat) (x c : Char) :
    next ⟨.inside, d, x⟩ c = some ⟨Quoting.inside.next c, d, c⟩ :=
  rfl

theorem next_outside {d : Nat} {x : Char} (he : d = 0 → endsOperand c = false)
    (hw : x = 't' → c ≠ ' ') :
    next ⟨.outside, d, x⟩ c = some ⟨Quoting.outside.next c, nest d c, c⟩ := by
  have hgo : ¬(d = 0 ∧ endsOperand c = true ∨ x = 't' ∧ c = ' ') := by
    rintro (⟨hd, hc⟩ | ⟨hx, hc⟩)
    · rw [he hd] at hc
      cases hc
    · exact hw hx hc
  simp only [next, if_true, hgo, if_false]

/-- What is passed over leads to the place behind it. -/
theorem quoting_of_next (h : s.next c = some s') : s'.quoting = s.quoting.next c := by
  unfold next at h
  split at h
  · split at h
    · cases h
    · cases h
      rfl
  · cases h
    rfl

theorem quoting_of_run {cs : List Char} (h : s.run cs = some s') :
    cs.foldl Quoting.next s.quoting = s'.quoting := by
  induction cs generalizing s with
  | nil => cases h; rfl
  | cons c cs ih =>
    rw [run_cons] at h
    obtain ⟨t, hc, ht⟩ := Option.bind_eq_some_iff.1 h
    rw [List.foldl_cons, ← quoting_of_next hc]
    exact ih ht

theorem last_of_next (h : s.next c = some s') : s'.last = c := by
  unfold next at h
  split at h
  · split at h
    · cases h
    · cases h
      rfl
  · cases h
    rfl

/-- Nothing is passed over that has `await` outside of quoted texts. -/
theorem quoting_of_await {front back : List Char}
    (h : s.run (front ++ 't' :: ' ' :: back) = some s') :
    front.foldl Quoting.next s.quoting ≠ .outside := by
  intro hout
  rw [run_append] at h
  obtain ⟨r, hr, h⟩ := Option.bind_eq_some_iff.1 h
  rw [run_cons] at h
  obtain ⟨r', hr', h⟩ := Option.bind_eq_some_iff.1 h
  have hq : r'.quoting = .outside := by
    rw [quoting_of_next hr', ← quoting_of_run hr, hout]
    rfl
  rw [run_cons, next, if_pos hq, if_pos (.inr ⟨last_of_next hr', rfl⟩)] at h
  cases h

end Scan

/-! ## What is passed over -/

/-- Code at a depth is passed over behind a character with one property, and its last character has
    another. -/
def Skips (d : Nat) (P : Char → Prop) (cs : List Char) (Q : Char → Prop) : Prop :=
  ∀ c, P c → ∃ c', Q c' ∧ Scan.run ⟨.outside, d, c⟩ cs = some ⟨.outside, d, c'⟩

section
variable {d : Nat} {P Q R : Char → Prop} {c : Char} {cs xs ys : List Char}

theorem Skips.nil : Skips d P [] P :=
  fun c hc => ⟨c, hc, rfl⟩

theorem Skips.append (h : Skips d P xs Q) (h' : Skips d Q ys R) : Skips d P (xs ++ ys) R := by
  intro c hc
  obtain ⟨x, hx, hrun⟩ := h c hc
  obtain ⟨y, hy, hrun'⟩ := h' x hx
  exact ⟨y, hy, by rw [Scan.run_append, hrun]; exact hrun'⟩

theorem Skips.mono (h : Skips d P cs Q) {P' Q' : Char → Prop} (hP : ∀ c, P' c → P c)
    (hQ : ∀ c, Q c → Q' c) : Skips d P' cs Q' := fun c hc =>
  have ⟨x, hx, hrun⟩ := h c (hP c hc)
  ⟨x, hQ x hx, hrun⟩

theorem skips_char (hn : nest d c = d) (hq : c ≠ '\'') (he : d = 0 → endsOperand c = false)
    (hw : ∀ x, P x → x = 't' → c ≠ ' ') (hQ : Q c) : Skips d P [c] Q := by
  intro x hx
  refine ⟨c, hQ, ?_⟩
  rw [Scan.run_cons, Scan.next_outside he (hw x hx), hn]
  show some (Scan.mk (Quoting.outside.next c) d c) = _
  rw [Quoting.next, if_neg hq]

/-- Quotes, blanks, brackets, and the signs that end operands. -/
def signs : List Char :=
  ['\'', ' ', '(', ')', '[', ']', '\x7b', '\x7d', '&', '|', '?', ':', ',', ';']

/-- Whether a character is passed over wherever it stands. -/
def isPlain (c : Char) : Bool :=
  !signs.contains c

theorem skips_plainChar (h : isPlain c = true) (hQ : Q c) : Skips d P [c] Q := by
  simp only [isPlain, signs, List.contains_eq_mem, List.mem_cons, List.not_mem_nil, or_false,
    Bool.not_eq_true', decide_eq_false_iff_not, not_or] at h
  obtain ⟨hq, hb, h₁, h₂, h₃, h₄, h₅, h₆, h₇, h₈, h₉, h₁₀, h₁₁, h₁₂⟩ := h
  refine skips_char ?_ hq (fun _ => ?_) (fun _ _ _ => hb) hQ
  · simp [nest, h₁, h₂, h₃, h₄, h₅, h₆]
  · simp [endsOperand, h₂, h₄, h₆, h₇, h₈, h₉, h₁₀, h₁₁, h₁₂]

theorem skips_plain (h : cs.all isPlain = true) (hP : ∀ c ∈ cs, P c) : Skips d P cs P := by
  induction cs with
  | nil => exact .nil
  | cons c cs ih =>
    rw [List.all_cons, Bool.and_eq_true] at h
    have hrest := ih h.2 fun x hx => hP x (List.mem_cons_of_mem _ hx)
    exact (skips_plainChar h.1 (hP c (List.mem_cons_self ..))).append hrest

theorem skips_operator {op : Operator} (h : d = 0 → op ≠ .and ∧ op ≠ .or ∧ op ≠ .orElse) :
    Skips d (· ≠ 't') (' ' :: (op.text.toList ++ [' '])) (· ≠ 't') := by
  have hblank : Skips d (· ≠ 't') [' '] (· ≠ 't') :=
    skips_char rfl (by decide) (fun _ => rfl) (fun x hx ht => absurd ht hx) (by decide)
  have hsign : ∀ c ∈ op.text.toList, nest d c = d ∧ c ≠ '\'' ∧ (d = 0 → endsOperand c = false) ∧
      c ≠ ' ' ∧ c ≠ 't' := by
    have hnest : ∀ {c}, c ∉ ['(', '[', '\x7b', ')', ']', '\x7d'] → nest d c = d := by
      intro c hc
      simp only [List.mem_cons, List.not_mem_nil, or_false, not_or] at hc
      simp [nest, hc]
    intro c hc
    cases op with
    | and | or | orElse =>
      have hd : d ≠ 0 := fun hd => by simpa using h hd
      simp only [Operator.text, String.reduceToList, List.mem_cons, List.not_mem_nil,
        or_false] at hc
      rcases hc with rfl | rfl <;>
        exact ⟨hnest (by decide), by decide, fun h => absurd h hd, by decide, by decide⟩
    | _ =>
      simp only [Operator.text, String.reduceToList, List.mem_cons, List.not_mem_nil,
        or_false] at hc
      rcases hc with rfl | rfl | rfl <;>
        exact ⟨hnest (by decide), by decide, fun _ => by decide, by decide, by decide⟩
  have hsigns : ∀ ys : List Char, ys ⊆ op.text.toList → Skips d (· ≠ 't') ys (· ≠ 't') := by
    intro ys hys
    induction ys with
    | nil => exact .nil
    | cons c ys ih =>
      obtain ⟨hn, hq, he, hb, ht⟩ := hsign c (hys (List.mem_cons_self ..))
      exact (skips_char hn hq he (fun _ _ _ => hb) ht).append
        (ih fun x hx => hys (List.mem_cons_of_mem _ hx))
  exact hblank.append ((hsigns _ (List.Subset.refl _)).append hblank)

/-- What stands between brackets is one level deeper. -/
theorem Skips.brackets {o e : Char} (h : Skips (d + 1) P cs Q) (ho : P o)
    (hpair : o = '(' ∧ e = ')' ∨ o = '[' ∧ e = ']') :
    Skips d R (o :: (cs ++ [e])) (· ≠ 't') := by
  intro x _
  have hopen : Scan.next ⟨.outside, d, x⟩ o = some ⟨.outside, d + 1, o⟩ := by
    rcases hpair with ⟨rfl, rfl⟩ | ⟨rfl, rfl⟩ <;>
      exact Scan.next_outside (fun _ => rfl) (fun _ => by decide)
  have hclose : ∀ y, Scan.next ⟨.outside, d + 1, y⟩ e = some ⟨.outside, d, e⟩ := by
    intro y
    rcases hpair with ⟨rfl, rfl⟩ | ⟨rfl, rfl⟩ <;>
      exact Scan.next_outside (fun h => by cases h) (fun _ => by decide)
  obtain ⟨y, -, hrun⟩ := h o ho
  refine ⟨e, by rcases hpair with ⟨rfl, rfl⟩ | ⟨rfl, rfl⟩ <;> decide, ?_⟩
  rw [Scan.run_cons, hopen]
  show Scan.run ⟨.outside, d + 1, o⟩ (cs ++ [e]) = _
  rw [Scan.run_append, hrun]
  show Scan.run ⟨.outside, d + 1, y⟩ [e] = _
  rw [Scan.run_cons, hclose]
  rfl

theorem run_quoteChar (d : Nat) (x c : Char) :
    ∃ y, Scan.run ⟨.inside, d, x⟩ (quoteChar c) = some ⟨.inside, d, y⟩ := by
  have hhex : ∀ k < 16, Quoting.inside.next (hexDigit k) = .inside := by decide
  unfold quoteChar
  split_ifs with h₁ h₂ h₃ h₄ h₅ h₆
  iterate 5 · exact ⟨_, rfl⟩
  · have hdigits : ∀ (cs : List Char) (y : Char), (∀ z ∈ cs, Quoting.inside.next z = .inside) →
        ∃ z, Scan.run ⟨.inside, d, y⟩ cs = some ⟨.inside, d, z⟩ := by
      intro cs
      induction cs with
      | nil => exact fun y _ => ⟨y, rfl⟩
      | cons z cs ih =>
        intro y hcs
        rw [Scan.run_cons, Scan.next_inside, hcs z (List.mem_cons_self ..)]
        exact ih z fun w hw => hcs w (List.mem_cons_of_mem _ hw)
    show ∃ y, Scan.run ⟨.inside, d, 'u'⟩ (hexDigits 4 c.toNat) = _
    refine hdigits _ _ fun z hz => ?_
    obtain ⟨k, hk, rfl⟩ := mem_hexDigits hz
    exact hhex k hk
  · refine ⟨c, ?_⟩
    rw [Scan.run_cons, Scan.next_inside, Quoting.next, if_neg h₁, if_neg h₂]
    rfl

theorem skips_quote (s : String) : Skips d P (quote s).toList (· ≠ 't') := by
  have hinside : ∀ (cs : List Char) (x : Char),
      ∃ y, Scan.run ⟨.inside, d, x⟩ (cs.flatMap quoteChar) = some ⟨.inside, d, y⟩ := by
    intro cs
    induction cs with
    | nil => exact fun x => ⟨x, rfl⟩
    | cons c cs ih =>
      intro x
      obtain ⟨y, hy⟩ := run_quoteChar d x c
      obtain ⟨z, hz⟩ := ih y
      exact ⟨z, by rw [List.flatMap_cons, Scan.run_append, hy]; exact hz⟩
  intro x _
  obtain ⟨y, hy⟩ := hinside s.toList '\''
  refine ⟨'\'', by decide, ?_⟩
  have hopen : Scan.next ⟨.outside, d, x⟩ '\'' = some ⟨.inside, d, '\''⟩ :=
    Scan.next_outside (fun _ => rfl) (fun _ => by decide)
  rw [toList_quote, quoteChars, Scan.run_cons, hopen]
  show Scan.run ⟨.inside, d, '\''⟩ (s.toList.flatMap quoteChar ++ ['\'']) = _
  rw [Scan.run_append, hy]
  rfl

end

/-! ## Plain texts -/

theorem isPlain_of {p : Char → Bool} (hp : signs.all (!p ·) = true) {c : Char} (h : p c = true) :
    isPlain c = true := by
  rw [isPlain, Bool.not_eq_true', List.contains_eq_mem, decide_eq_false_iff_not]
  intro hc
  have := List.all_eq_true.1 hp c hc
  rw [h] at this
  cases this

theorem isPlain_of_isDigit {c : Char} (h : c.isDigit = true) : isPlain c = true :=
  isPlain_of (p := Char.isDigit) (by decide) h

theorem isPlain_of_isWordChar {c : Char} (h : Lexeme.isWordChar c = true) : isPlain c = true :=
  isPlain_of (p := Lexeme.isWordChar) (by decide +kernel) h

theorem isPlain_shortText {d : Decimal} {c : Char} (h : c ∈ d.shortText.toList) :
    isPlain c = true := by
  rw [Decimal.shortText, Decimal.text, String.toList_ofList, Decimal.pointDigits_eq] at h
  rcases List.mem_append.1 h with h | h
  · split at h
    · rw [List.mem_singleton.1 h]
      decide
    · cases h
  rcases List.mem_append.1 h with h | h
  · exact isPlain_of_isDigit (Nat.isDigit_of_mem_toDigits (by decide) (by decide) h)
  split at h
  · cases h
  rcases List.mem_cons.1 h with rfl | h
  · decide
  · exact isPlain_of_isDigit (Decimal.isDigit_of_mem_lastDigits h)

/-! ## Expressions -/

namespace Expr

/-- An expression at a depth is passed over. -/
def Calm (d : Nat) (e : Expr) : Prop :=
  Skips d (fun _ => True) e.print.toList fun _ => True

/-- An expression at a depth is passed over, and what it ends in is not taken for `await`. -/
def Firm (d : Nat) (e : Expr) : Prop :=
  Skips d (fun _ => True) e.print.toList (· ≠ 't')

section
variable {d : Nat} {Q : Char → Prop} {e f l r : Expr} {n : String} {op : Operator}

theorem Firm.calm (h : Firm d e) : Calm d e :=
  h.mono (fun _ _ => trivial) fun _ _ => trivial

theorem firm_text (s : String) : Firm d (.text s) :=
  skips_quote s

theorem calm_name (h : n.toList.all isPlain = true) : Calm d (.name n) :=
  skips_plain h fun _ _ => trivial

theorem calm_number (x : Decimal) : Calm d (.number x) :=
  skips_plain (List.all_eq_true.2 fun _ => isPlain_shortText) fun _ _ => trivial

theorem calm_flag (b : Bool) : Calm d (.flag b) := by
  cases b <;> exact skips_plain (by decide) fun _ _ => trivial

theorem firm_null : Firm d .null := by
  have hfirst : Skips d (fun _ => True) ['n'] (· ≠ 't') := skips_plainChar rfl (by decide)
  have hrest : Skips d (· ≠ 't') ['u', 'l', 'l'] (· ≠ 't') := skips_plain rfl (by simp)
  exact hfirst.append hrest

theorem Calm.member (h : Calm d e) (hn : n.toList.all isPlain = true) :
    Calm d (.member e n) := by
  have hprint : (Expr.member e n).print.toList = e.print.toList ++ (['.'] ++ n.toList) := by
    show (e.print ++ "." ++ n).toList = _
    simp [String.toList_append]
  rw [Calm, hprint]
  have hdot : Skips d (fun _ => True) ['.'] fun _ => True := skips_plainChar rfl trivial
  exact h.append (hdot.append (skips_plain hn fun _ _ => trivial))

theorem Calm.index (h : Calm d e) (hi : Calm (d + 1) f) : Firm d (.index e f) := by
  have hprint : (Expr.index e f).print.toList =
      e.print.toList ++ '[' :: (f.print.toList ++ [']']) := by
    show (e.print ++ "[" ++ f.print ++ "]").toList = _
    simp [String.toList_append]
  rw [Firm, hprint]
  exact Skips.append h (Skips.brackets hi trivial (.inr ⟨rfl, rfl⟩))

theorem Calm.call (h : Calm d f) (ha : Calm (d + 1) e) : Firm d (.call f [e]) := by
  have hprint : (Expr.call f [e]).print.toList =
      f.print.toList ++ '(' :: (e.print.toList ++ [')']) := by
    show (f.print ++ "(" ++ ", ".intercalate [e.print] ++ ")").toList = _
    simp [String.toList_append]
  rw [Firm, hprint]
  exact Skips.append h (Skips.brackets ha trivial (.inl ⟨rfl, rfl⟩))

theorem Calm.new (ha : Calm (d + 1) e) (hn : n.toList.all isPlain = true) :
    Firm d (.new n [e]) := by
  have hprint : (Expr.new n [e]).print.toList =
      ['n'] ++ (['e', 'w'] ++ ([' '] ++ (n.toList ++ '(' :: (e.print.toList ++ [')'])))) := by
    show ("new " ++ n ++ "(" ++ ", ".intercalate [e.print] ++ ")").toList = _
    simp [String.toList_append]
  rw [Firm, hprint]
  have hfirst : Skips d (fun _ => True) ['n'] (· ≠ 't') := skips_plainChar rfl (by decide)
  have hrest : Skips d (· ≠ 't') ['e', 'w'] (· ≠ 't') := skips_plain rfl (by simp)
  have hblank : Skips d (· ≠ 't') [' '] fun _ => True :=
    skips_char rfl (by decide) (fun _ => rfl) (fun x hx ht => absurd ht hx) trivial
  have hname : Skips d (fun _ => True) n.toList fun _ => True := skips_plain hn fun _ _ => trivial
  exact hfirst.append (hrest.append (hblank.append (hname.append
    (Skips.brackets ha trivial (.inl ⟨rfl, rfl⟩)))))

theorem toList_print_paren (e : Expr) :
    (Expr.paren e).print.toList = '(' :: (e.print.toList ++ [')']) := by
  show ("(" ++ e.print ++ ")").toList = _
  simp [String.toList_append]

theorem Calm.paren (h : Calm (d + 1) e) : Firm d (.paren e) := by
  rw [Firm, toList_print_paren]
  exact Skips.brackets h trivial (.inl ⟨rfl, rfl⟩)

theorem toList_print_binary (op : Operator) (l r : Expr) : (Expr.binary op l r).print.toList =
    l.print.toList ++ (' ' :: (op.text.toList ++ [' ']) ++ r.print.toList) := by
  show (l.print ++ " " ++ op.text ++ " " ++ r.print).toList = _
  simp [String.toList_append]

theorem skips_binary (hl : Firm d l) (hr : Skips d (fun _ => True) r.print.toList Q)
    (hop : d = 0 → op ≠ .and ∧ op ≠ .or ∧ op ≠ .orElse) :
    Skips d (fun _ => True) (Expr.binary op l r).print.toList Q := by
  rw [toList_print_binary]
  have hsign := (skips_operator hop).append (hr.mono (fun _ _ => trivial) fun _ h => h)
  exact Skips.append hl hsign

theorem Firm.calm_binary (hl : Firm d l) (hr : Calm d r)
    (hop : d = 0 → op ≠ .and ∧ op ≠ .or ∧ op ≠ .orElse) : Calm d (.binary op l r) :=
  skips_binary hl hr hop

theorem Firm.binary (hl : Firm d l) (hr : Firm d r)
    (hop : d = 0 → op ≠ .and ∧ op ≠ .or ∧ op ≠ .orElse) : Firm d (.binary op l r) :=
  skips_binary hl hr hop

theorem Calm.invoke (h : Calm d f) (hn : n.toList.all isPlain = true) (ha : Calm (d + 1) e) :
    Firm d (.invoke f n [e]) :=
  (h.member hn).call ha

theorem Calm.stringOf (h : Calm (d + 1) e) : Firm d (.stringOf e) :=
  (calm_name (by decide)).call h

theorem firm_sum {es : List Expr} (h : ∀ e ∈ es, Firm d e) : Firm d (.sum es) := by
  cases es with
  | nil => exact firm_text ""
  | cons e rest =>
    show Firm d (rest.foldl (Expr.binary .add) e)
    induction rest generalizing e with
    | nil => exact h e (List.mem_cons_self ..)
    | cons e' rest ih =>
      refine ih (.binary .add e e') fun x hx => ?_
      rcases List.mem_cons.1 hx with rfl | hx
      · exact (h e (by simp)).binary (h e' (by simp)) fun _ => by decide
      · exact h x (by simp [hx])

/-- Behind an expression that is passed over, code stands outside of quoted texts as before. -/
theorem Calm.quotingAfter (h : Calm d e) : quotingAfter e.print.toList = .outside := by
  obtain ⟨_, -, hrun⟩ := h ' ' trivial
  exact Scan.quoting_of_run hrun

theorem quotingAfter_text (s : String) : Code.quotingAfter (Expr.text s).print.toList = .outside :=
  (firm_text (d := 0) s).calm.quotingAfter

end

end Expr

/-! ## Code inside code -/

/-- Code stands in other code, outside of quoted texts. -/
def Occurs (part whole : List Char) : Prop :=
  ∃ front back, whole = front ++ (part ++ back) ∧ quotingAfter front = .outside

section
variable {part cs whole : List Char}

theorem Occurs.refl (cs : List Char) : Occurs cs cs :=
  ⟨[], [], by simp, rfl⟩

theorem Occurs.trans (h : Occurs part cs) (h' : Occurs cs whole) : Occurs part whole := by
  obtain ⟨front, back, rfl, hfront⟩ := h
  obtain ⟨front', back', rfl, hfront'⟩ := h'
  refine ⟨front' ++ front, back ++ back', by simp, ?_⟩
  rw [quotingAfter_append hfront', hfront]

namespace Expr

variable {d : Nat} {e f l r : Expr} {op : Operator}

theorem Calm.not_occurs_await (h : Calm d e) : ¬Occurs "await ".toList e.print.toList := by
  rintro ⟨front, back, hprint, hfront⟩
  obtain ⟨_, -, hrun⟩ := h ' ' trivial
  have hsplit : front ++ ("await ".toList ++ back) =
      (front ++ "awai".toList) ++ 't' :: ' ' :: back := by simp
  rw [hprint, hsplit] at hrun
  refine Scan.quoting_of_await hrun ?_
  show Code.quotingAfter (front ++ "awai".toList) = _
  rw [quotingAfter_append hfront]
  rfl

theorem occurs_paren (e : Expr) : Occurs e.print.toList (Expr.paren e).print.toList :=
  ⟨['('], [')'], toList_print_paren e, rfl⟩

theorem occurs_stringOf (e : Expr) : Occurs e.print.toList (Expr.stringOf e).print.toList := by
  refine ⟨"String(".toList, [')'], ?_, by decide⟩
  show ("String" ++ "(" ++ ", ".intercalate [e.print] ++ ")").toList = _
  simp [String.toList_append]

theorem occurs_left (op : Operator) (l r : Expr) :
    Occurs l.print.toList (Expr.binary op l r).print.toList :=
  ⟨[], _, toList_print_binary op l r, rfl⟩

theorem occurs_right (op : Operator) (hl : Code.quotingAfter l.print.toList = .outside) (r : Expr) :
    Occurs r.print.toList (Expr.binary op l r).print.toList := by
  refine ⟨l.print.toList ++ ' ' :: (op.text.toList ++ [' ']), [], ?_, ?_⟩
  · rw [toList_print_binary]
    simp
  · rw [quotingAfter_append hl]
    cases op <;> decide

theorem occurs_sum_head (e : Expr) (rest : List Expr) :
    Occurs e.print.toList (Expr.sum (e :: rest)).print.toList := by
  show Occurs _ (rest.foldl (Expr.binary .add) e).print.toList
  induction rest generalizing e with
  | nil => exact .refl _
  | cons x rest ih => exact (occurs_left .add e x).trans (ih (.binary .add e x))

/-- A summand stands in the sum, behind summands that are passed over. -/
theorem occurs_sum {front : List Expr} (h : ∀ x ∈ front, Firm 0 x) (e : Expr) (back : List Expr) :
    Occurs e.print.toList (Expr.sum (front ++ e :: back)).print.toList := by
  cases front with
  | nil => exact occurs_sum_head e back
  | cons x front =>
    have hsum : Expr.sum ((x :: front) ++ e :: back) =
        Expr.sum (.binary .add (.sum (x :: front)) e :: back) := by
      simp [Expr.sum, List.foldl_append]
    rw [hsum]
    exact (occurs_right .add (firm_sum h).calm.quotingAfter e).trans (occurs_sum_head _ back)

end Expr

end

/-- Code waits somewhere, outside of quoted texts, for the text of an element. -/
def AwaitsElement (cs : List Char) : Prop :=
  ∃ element : Expr,
    Occurs ("((await ".toList ++ (element.print.toList ++ ".textContent()) ?? '')".toList)) cs

theorem AwaitsElement.occurs_await {cs : List Char} (h : AwaitsElement cs) :
    Occurs "await ".toList cs := by
  obtain ⟨element, h⟩ := h
  refine Occurs.trans ?_ h
  exact ⟨"((".toList, element.print.toList ++ ".textContent()) ?? '')".toList, by simp, by decide⟩

end UiScenario.Code
