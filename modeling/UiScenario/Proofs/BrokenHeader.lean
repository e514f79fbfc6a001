import UiScenario.Proofs.AgreementProgram
import UiScenario.Proofs.Composition
import UiScenario.Proofs.Openings

/-!
Tokens that open no declaration, in front of a declaration. Where such tokens are no beginning of an
opening, they cost one fault and nothing else. Where they break off in front of a name, the keyword
of the declaration is read as this name, and the declaration is lost with them. Where they break off
elsewhere, the keyword is at fault, and the declaration is lost as well.
-/

namespace UiScenario

namespace Grammar

open UiScenario.Grammar.Parser

/-! ## A declaration that is given up -/

section
variable {tokens rest : List Token} {e : SyntaxError}

theorem programRound_of_error {s s' : State} (hne : s.ahead ≠ [])
    (hf : s.unclosedReported = false) (h : declaration s = .error e s') :
    programRound s = .ok (some none)
      { s' with ahead := skipDeclaration s'.ahead, errors := s'.errors ++ [e] } := by
  have hs : { s with unclosedReported := false } = s := by rw [← hf]
  refine programRound_eq_some.2 ⟨hne, ?_⟩
  show (attempt declaration >>= _) { s with unclosedReported := false } = _
  rw [hs, attempt_bind_of_error h]
  rfl

/-- A fault in the first declaration is noted. -/
theorem errors_ne_nil_of_error {s : State} (hne : (State.ofTokens tokens).ahead ≠ [])
    (h : declaration (.ofTokens tokens) = .error e s) : (parse tokens).errors ≠ [] := by
  have hround := parallel_programRound (N := (State.ofTokens tokens).ahead.length + 1)
  have hfits : Fits _ (State.ofTokens tokens) := ⟨Nat.lt_succ_self _, last_ofTokens tokens⟩
  obtain ⟨xs, u, hx, hu⟩ := exists_repeats tokens
  rw [parse_of_repeats hx hu]
  cases hx with
  | nil => exact absurd hu hne
  | cons hp hx =>
    have hs₁ := hfits.onward (hround.onward_ok hfits hp)
    have hnoted := (onward_repeats hround advances_programRound hs₁ hx).1.errors
    cases (programRound_of_error hne rfl h).symm.trans hp
    intro he
    have hnil : u.errors = [] := he
    rw [hnil, List.prefix_nil] at hnoted
    simp at hnoted

/-- Where reading stands as at the start of a script, the script is read, whatever was noted
    before. -/
theorem exists_repeats_of_alike {s : State} (h : Alike .same 0 (.ofTokens rest) s) :
    ∃ xs s', Repeats programRound s xs s' ∧ s'.ahead = [] ∧ programOf xs = (parse rest).program ∧
      s'.errors = s.errors ++ (parse rest).errors := by
  obtain ⟨ys, u, hy, hu⟩ := exists_repeats rest
  have hagree := agrees_many agrees_programRound (.ofTokens rest) s h
  have hzero := parse_down_zero rest
  rw [many_of_repeats (last_ofTokens rest) hy hu] at hagree
  rw [parse_of_repeats hy hu] at hzero ⊢
  cases hx : many programRound s with
  | error e' s' =>
    rw [hx] at hagree
    cases hagree
  | ok xs s' =>
    rw [hx] at hagree
    cases hagree with
    | ok hxs hst hn =>
      have hfits : Fits (s.ahead.length + 1) s :=
        ⟨Nat.lt_succ_self _, h.last.kind.symm.trans (last_ofTokens rest)⟩
      obtain ⟨s₁, hx, hnone⟩ := (many_eq_ok parallel_programRound advances_programRound hfits).1 hx
      obtain ⟨hnil, rfl⟩ := programRound_eq_none.1 hnone
      obtain ⟨es, es', hes, hes', he⟩ := hn
      have hp : ((programOf ys).down 0).reword .same = (programOf xs).reword .same :=
        programOf_alike hxs
      rw [hzero, Program.reword_same, Program.reword_same] at hp
      rw [Likeness.Like] at he
      dsimp only at he
      rw [SyntaxError.down_zero, SyntaxError.reword_same, List.map_id, List.map_id,
        List.map_id] at he
      refine ⟨xs, s', hx, hnil, hp.symm, ?_⟩
      rw [hes, hes', he]
      rfl

/-- A faulty first declaration costs one fault, and what is left of the tokens is read as from the
    start. -/
theorem parse_of_error {stop : List Token} (hne : (State.ofTokens tokens).ahead ≠ [])
    (h : declaration (.ofTokens tokens) = .error e ((State.ofTokens tokens).leaving stop))
    (hskip : skipDeclaration stop = (State.ofTokens rest).ahead)
    (hlast : (State.ofTokens tokens).last = (State.ofTokens rest).last) :
    parse tokens = ⟨(parse rest).program, e :: (parse rest).errors⟩ := by
  have hp := programRound_of_error hne rfl h
  obtain ⟨xs, s', hx, hnil, hprogram, herrors⟩ := exists_repeats_of_alike
    (s := { State.ofTokens tokens with ahead := skipDeclaration stop, errors := [e] })
    ⟨congrArg (List.map (Token.reword .same)) ((List.map_id _).trans hskip.symm),
      congrArg (Token.reword .same) hlast.symm, rfl, rfl⟩
  rw [parse_of_repeats (.cons hp hx) hnil, ← hprogram, herrors]
  rfl

end

/-! ## Tokens -/

section
variable {g ds rest : List Token} {k : Token}

theorem ne_of_startsDeclaration (hk : k.kind.startsDeclaration = true) :
    k.kind ≠ .comment ∧ k.kind ≠ .eof := by
  constructor <;> intro h <;> rw [h] at hk <;> cases hk

theorem ahead_ofTokens_cons (hk : k.kind.startsDeclaration = true) :
    (State.ofTokens (k :: ds)).ahead = k :: (readable ds).takeWhile (·.kind != .eof) := by
  obtain ⟨hc, he⟩ := ne_of_startsDeclaration hk
  show ((k :: ds).filter (·.kind != .comment)).takeWhile (·.kind != .eof) = _
  rw [List.filter_cons_of_pos (by simpa using hc), List.takeWhile_cons_of_pos (by simpa using he)]
  rfl

theorem skipDeclaration_append {t : Token} {xs behind : List Token}
    (hxs : ∀ u ∈ xs, u.kind.startsDeclaration = false)
    (hb : ∀ u ∈ behind.head?, u.kind.startsDeclaration = true) :
    skipDeclaration (t :: (xs ++ behind)) = behind := by
  rw [skipDeclaration, List.drop_one, List.tail_cons,
    List.dropWhile_append_of_pos (by simpa using hxs)]
  cases behind with
  | nil => rfl
  | cons u behind => rw [List.dropWhile_cons_of_neg (by simpa using hb u rfl)]

theorem pos_unexpected {s : State} (h : s.opened = none) (expected : String) :
    (s.unexpected expected).pos = s.current.pos := by
  simp [State.unexpected, h]

/-- The fault is at a token behind which no declaration starts until the rest does. -/
theorem exists_error_of_stopped {tokens front stop xs : List Token} {t : Token} {expected : String}
    (hahead : (State.ofTokens tokens).ahead = front ++ stop)
    (hstop : stop = t :: (xs ++ (State.ofTokens rest).ahead))
    (hxs : ∀ u ∈ xs, u.kind.startsDeclaration = false)
    (hb : ∀ u ∈ (State.ofTokens rest).ahead.head?, u.kind.startsDeclaration = true)
    (hlast : (State.ofTokens tokens).last = (State.ofTokens rest).last)
    (h : declaration (.ofTokens tokens) =
      .error (((State.ofTokens tokens).leaving stop).unexpected expected)
        ((State.ofTokens tokens).leaving stop)) :
    ∃ e : SyntaxError, e.pos = t.pos ∧
      parse tokens = ⟨(parse rest).program, e :: (parse rest).errors⟩ := by
  subst hstop
  have hne : (State.ofTokens tokens).ahead ≠ [] := by simp [hahead]
  exact ⟨_, pos_unexpected rfl expected,
    parse_of_error hne h (skipDeclaration_append hxs hb) hlast⟩

end

end Grammar

open Grammar

/-- Tokens that may stand for a declaration but do not open it. -/
structure Unopened (g : List Token) : Prop where
  ne_nil : g ≠ []
  plain : ∀ t ∈ g, t.kind ∉ [.lbrace, .rbrace, .comment, .eof]
  /-- Only the first one may be the keyword of a declaration. -/
  inner : ∀ t ∈ g.tail, t.kind.startsDeclaration = false

section
variable {g ds rest : List Token} {k : Token}

theorem Unopened.ofTokens_append (hg : Unopened g) (hrest : readable rest ≠ []) :
    State.ofTokens (g ++ rest) =
      { State.ofTokens rest with ahead := g ++ (State.ofTokens rest).ahead } := by
  refine Grammar.ofTokens_append (fun t ht => ?_) hrest
  have hp := hg.plain t ht
  simp only [List.mem_cons, not_or] at hp
  exact ⟨hp.2.2.1, hp.2.2.2.1⟩

theorem Unopened.lbrace (hg : Unopened g) : ∀ t ∈ g, t.kind ≠ .lbrace := by
  intro t ht hb
  exact hg.plain t ht (by simp [hb])

/-- No opening starts so, and one token is at fault. -/
theorem parse_of_not_viable (hg : Unopened g) (hk : k.kind.startsDeclaration = true)
    (hv : ¬Viable opening g) : ∃ e : SyntaxError, e.pos ∈ g.map Token.pos ∧
      parse (g ++ k :: ds) = ⟨(parse (k :: ds)).program, e :: (parse (k :: ds)).errors⟩ := by
  have hready : readable (k :: ds) ≠ [] := by simp [readable, (ne_of_startsDeclaration hk).1]
  have hsplit := hg.ofTokens_append hready
  have hahead : (State.ofTokens (g ++ k :: ds)).ahead = g ++ (State.ofTokens (k :: ds)).ahead := by
    rw [hsplit]
  have hdecl : ∀ u ∈ (State.ofTokens (k :: ds)).ahead.head?, u.kind.startsDeclaration = true := by
    simp [ahead_ofTokens_cons hk, hk]
  cases expects_declaration.keepsTo (.ofTokens (g ++ k :: ds)) (last_ofTokens _) with
  | @through h behind ha hm =>
    rw [hahead] at ha
    obtain ⟨vs, b, rfl, hb, -⟩ := exists_concat_of_mem_opening hm
    rcases List.append_eq_append_iff.1 ha with ⟨c, hc, -⟩ | ⟨c, rfl, -⟩
    · exact absurd ⟨c, hc ▸ hm⟩ hv
    · exact absurd hb (hg.lbrace b (by simp))
  | @stopped front stop expected ha hfront hstop hr =>
    rw [hahead] at ha
    rcases List.append_eq_append_iff.1 ha with ⟨c, rfl, -⟩ | ⟨c, rfl, rfl⟩
    · exact absurd (viable_of_append hfront) hv
    · cases c with
      | nil => exact absurd (by simpa using hfront) hv
      | cons t xs =>
        have hxs : ∀ u ∈ xs, u.kind.startsDeclaration = false := by
          intro u hu
          refine hg.inner u ?_
          cases front <;> simp [hu]
        obtain ⟨e, he, hparse⟩ := exists_error_of_stopped (hahead.trans ha) rfl hxs hdecl
          (by rw [hsplit]) hr
        exact ⟨e, by simp [he], hparse⟩

/-- A declaration without faults has an opening. -/
theorem exists_opening (hk : k.kind.startsDeclaration = true) (hds : ∀ t ∈ ds, t.kind ≠ .eof)
    (h : (parse (k :: ds)).errors = []) :
    ∃ ts behind, readable ds = ts ++ behind ∧ k :: ts ∈ opening := by
  have hahead : (State.ofTokens (k :: ds)).ahead = k :: readable ds := by
    rw [ahead_ofTokens_cons hk, List.takeWhile_eq_self_iff.2]
    intro t ht
    exact bne_iff_ne.2 (hds t (List.mem_of_mem_filter ht))
  cases expects_declaration.keepsTo (.ofTokens (k :: ds)) (last_ofTokens _) with
  | @through ts behind ha hm =>
    obtain ⟨k', n, us, rfl, -⟩ := exists_of_mem_opening hm
    rw [hahead] at ha
    obtain ⟨rfl, hts⟩ := List.cons.inj ha
    exact ⟨n :: us, behind, hts, hm⟩
  | stopped ha hfront hstop hr =>
    exact absurd h (errors_ne_nil_of_error (by simp [hahead]) hr)

/-- What starts an opening is passed. -/
theorem exists_append_of_stopped {whole x front stop : List Token} (hv : Viable opening whole)
    (he : whole ++ x = front ++ stop) (hstop : ∀ t ∈ stop.head?, ¬Viable opening (front ++ [t])) :
    ∃ c, front = whole ++ c ∧ x = c ++ stop := by
  rcases List.append_eq_append_iff.1 he with h | ⟨c, rfl, rfl⟩
  · exact h
  · cases c with
    | nil => exact ⟨[], by simp, rfl⟩
    | cons t c =>
      have hv' : Viable opening (front ++ [t] ++ c) := by simpa using hv
      exact absurd (viable_of_append hv') (hstop t rfl)

/-- If the keyword of a declaration goes on with an opening, no opening is complete before the
    declaration's own one, and reading stops inside that. -/
theorem exists_suffix_of_stopped {ts front stop y : List Token} (hg : Unopened g)
    (hv : Viable opening (g ++ [k])) (hm : k :: ts ∈ opening)
    (he : g ++ k :: ts ++ y = front ++ stop) (hfront : Viable opening front)
    (hstop : ∀ t ∈ stop.head?, ¬Viable opening (front ++ [t])) :
    ∃ t xs, t :: xs <:+ ts ∧ stop = t :: (xs ++ y) := by
  have hno : ∀ {us x z}, us ∈ opening → us ++ x ≠ g ++ k :: ts ++ z :=
    append_ne_of_mem_opening hg.ne_nil hg.lbrace hm
  obtain ⟨more, hmore⟩ := hfront
  obtain ⟨c, rfl, hc⟩ := exists_append_of_stopped hv (x := ts ++ y) (by simpa using he) hstop
  rcases List.append_eq_append_iff.1 hc with ⟨x, rfl, -⟩ | ⟨x, rfl, rfl⟩
  · exact absurd (by simp) (hno (x := []) (z := x ++ more) hmore)
  · cases x with
    | nil => exact absurd (by simp) (hno (x := []) (z := more) hmore)
    | cons t xs => exact ⟨t, xs, List.suffix_append .., rfl⟩

/-- Tokens in front of a declaration, and what follows it, comments aside. -/
theorem Unopened.ofTokens_declaration (hg : Unopened g) (hk : k.kind.startsDeclaration = true)
    (hds : ∀ t ∈ ds, t.kind ≠ .eof ∧ t.kind.startsDeclaration = false)
    (hrest : ∃ t us, rest = t :: us ∧ (t.kind = .eof ∨ t.kind.startsDeclaration = true)) :
    State.ofTokens (g ++ k :: ds ++ rest) = { State.ofTokens rest with
      ahead := g ++ k :: (readable ds ++ (State.ofTokens rest).ahead) } ∧
    ∀ u ∈ (State.ofTokens rest).ahead.head?, u.kind.startsDeclaration = true := by
  obtain ⟨hready, hhead⟩ : readable rest ≠ [] ∧
      ∀ u ∈ (State.ofTokens rest).ahead.head?, u.kind.startsDeclaration = true := by
    obtain ⟨t, us, rfl, ht | ht⟩ := hrest
    · simp [readable, State.ofTokens, ht]
    · simp [readable, ahead_ofTokens_cons ht, (ne_of_startsDeclaration ht).1, ht]
  refine ⟨?_, hhead⟩
  obtain ⟨hc, he⟩ := ne_of_startsDeclaration hk
  have hkds : readable (k :: ds) = k :: readable ds :=
    List.filter_cons_of_pos (by simpa using hc)
  rw [List.append_assoc, hg.ofTokens_append (by simp [readable, hc]),
    ofTokens_append_readable (List.forall_mem_cons.2 ⟨he, fun t ht => (hds t ht).1⟩) hready, hkds]
  rfl

/-- The keyword goes on with an opening, and the declaration is not read. -/
theorem parse_of_viable (hg : Unopened g) (hk : k.kind.startsDeclaration = true)
    (hv : Viable opening (g ++ [k]))
    (hds : ∀ t ∈ ds, t.kind ≠ .eof ∧ t.kind.startsDeclaration = false)
    (herrors : (parse (k :: ds)).errors = [])
    (hrest : ∃ t us, rest = t :: us ∧ (t.kind = .eof ∨ t.kind.startsDeclaration = true)) :
    ∃ e : SyntaxError, e.pos ∈ (k :: ds).map Token.pos ∧
      parse (g ++ k :: ds ++ rest) = ⟨(parse rest).program, e :: (parse rest).errors⟩ := by
  obtain ⟨ts, behind, hts, hm⟩ := exists_opening hk (fun t ht => (hds t ht).1) herrors
  have hmem : ∀ t ∈ ts ++ behind, t ∈ ds := fun t ht =>
    List.mem_of_mem_filter (hts ▸ ht : t ∈ readable ds)
  obtain ⟨hsplit, hhead⟩ := hg.ofTokens_declaration hk hds hrest
  have hahead : (State.ofTokens (g ++ k :: ds ++ rest)).ahead =
      g ++ k :: ts ++ (behind ++ (State.ofTokens rest).ahead) := by
    rw [hsplit, hts]
    simp
  cases expects_declaration.keepsTo (.ofTokens (g ++ k :: ds ++ rest)) (last_ofTokens _) with
  | through ha hm' =>
    exact absurd (ha.symm.trans hahead) (append_ne_of_mem_opening hg.ne_nil hg.lbrace hm hm')
  | stopped ha hfront hstop hr =>
    obtain ⟨t, xs, hxs, hcut⟩ :=
      exists_suffix_of_stopped hg hv hm (hahead.symm.trans ha) hfront hstop
    rw [← List.append_assoc] at hcut
    have hsub : ∀ u ∈ t :: (xs ++ behind), u ∈ ds := by
      intro u hu
      refine hmem u ?_
      rw [← List.cons_append, List.mem_append] at hu
      exact List.mem_append.2 (hu.imp_left fun hu => hxs.subset hu)
    obtain ⟨e, he, hparse⟩ := exists_error_of_stopped ha hcut
      (fun u hu => (hds u (hsub u (List.mem_cons_of_mem _ hu))).2) hhead (by rw [hsplit]) hr
    refine ⟨e, ?_, hparse⟩
    rw [he]
    exact List.mem_map_of_mem (List.mem_cons_of_mem _ (hsub t List.mem_cons_self))

/-- What starts an opening breaks off in front of the keyword, which is at fault. The declaration is
    skipped with it. -/
theorem parse_of_broken_off (hg : Unopened g) (hk : k.kind.startsDeclaration = true)
    (hv : Viable opening g) (hno : ¬Viable opening (g ++ [k]))
    (hds : ∀ t ∈ ds, t.kind ≠ .eof ∧ t.kind.startsDeclaration = false)
    (hrest : ∃ t us, rest = t :: us ∧ (t.kind = .eof ∨ t.kind.startsDeclaration = true)) :
    ∃ e : SyntaxError, e.pos = k.pos ∧
      parse (g ++ k :: ds ++ rest) = ⟨(parse rest).program, e :: (parse rest).errors⟩ := by
  obtain ⟨hsplit, hhead⟩ := hg.ofTokens_declaration hk hds hrest
  have hahead : (State.ofTokens (g ++ k :: ds ++ rest)).ahead =
      g ++ k :: (readable ds ++ (State.ofTokens rest).ahead) := by rw [hsplit]
  cases expects_declaration.keepsTo (.ofTokens (g ++ k :: ds ++ rest)) (last_ofTokens _) with
  | @through ts behind ha hm =>
    obtain ⟨vs, b, rfl, hb, -⟩ := exists_concat_of_mem_opening hm
    rcases List.append_eq_append_iff.1 (hahead.symm.trans ha) with ⟨c, hc, hk'⟩ | ⟨c, rfl, -⟩
    · cases c with
      | nil =>
        rw [List.append_nil] at hc
        exact absurd hb (hg.lbrace b (by simp [← hc]))
      | cons t c =>
        cases (List.cons.inj hk').1
        exact absurd ⟨c, by simpa [hc] using hm⟩ hno
    · exact absurd hb (hg.lbrace b (by simp))
  | stopped ha hfront hstop hr =>
    obtain ⟨c, rfl, hc⟩ := exists_append_of_stopped hv (hahead.symm.trans ha) hstop
    cases c with
    | nil =>
      exact exists_error_of_stopped ha hc.symm
        (fun u hu => (hds u (List.mem_of_mem_filter hu)).2) hhead (by rw [hsplit]) hr
    | cons t c =>
      cases (List.cons.inj hc).1
      rw [List.append_cons] at hfront
      exact absurd (viable_of_append hfront) hno

/-- **Broken headers.** Tokens that open no declaration stand in front of one. If no opening starts
    with them, one of them is at fault, and all that follows is read as on its own. If the keyword
    of the declaration goes on with an opening, it is read as a name: the fault is in the
    declaration, which is lost, and all that follows it is read as on its own. If an opening starts
    with the tokens and does not go on with the keyword, the keyword is at fault, and the declaration
    is lost, too, whether or not it has faults. -/
theorem parse_of_unopened (hg : Unopened g) (hk : k.kind.startsDeclaration = true) :
    (¬Viable opening g → ∀ ds, ∃ e : SyntaxError, e.pos ∈ g.map Token.pos ∧
      parse (g ++ k :: ds) = ⟨(parse (k :: ds)).program, e :: (parse (k :: ds)).errors⟩) ∧
    (Viable opening (g ++ [k]) → ∀ ds rest,
      (∀ t ∈ ds, t.kind ≠ .eof ∧ t.kind.startsDeclaration = false) →
      (parse (k :: ds)).errors = [] →
      (∃ t us, rest = t :: us ∧ (t.kind = .eof ∨ t.kind.startsDeclaration = true)) →
      ∃ e : SyntaxError, e.pos ∈ (k :: ds).map Token.pos ∧
        parse (g ++ k :: ds ++ rest) = ⟨(parse rest).program, e :: (parse rest).errors⟩) ∧
    (Viable opening g → ¬Viable opening (g ++ [k]) → ∀ ds rest,
      (∀ t ∈ ds, t.kind ≠ .eof ∧ t.kind.startsDeclaration = false) →
      (∃ t us, rest = t :: us ∧ (t.kind = .eof ∨ t.kind.startsDeclaration = true)) →
      ∃ e : SyntaxError, e.pos = k.pos ∧
        parse (g ++ k :: ds ++ rest) = ⟨(parse rest).program, e :: (parse rest).errors⟩) :=
  ⟨fun hv _ => parse_of_not_viable hg hk hv,
    fun hv _ _ hds herrors hrest => parse_of_viable hg hk hv hds herrors hrest,
    fun hv hno _ _ hds hrest => parse_of_broken_off hg hk hv hno hds hrest⟩

end

/-- `PAGE` in the first line, without a name. -/
def nameless : List Token :=
  [⟨.keyword .page, "PAGE", ⟨1, 1⟩⟩]

/-- `PAGE` in the first line, with a quoted text in place of its name. -/
def misnamed : List Token :=
  nameless ++ [⟨.text, "Cart", ⟨1, 6⟩⟩]

/-- `PAGE` in the given line. -/
def pageWord (line : Nat) : Token :=
  ⟨.keyword .page, "PAGE", ⟨line, 1⟩⟩

/-- The name of a page, and a block without members. -/
def pageBody (name : String) (line : Nat) : List Token :=
  [⟨.identifier, name, ⟨line, 6⟩⟩, ⟨.lbrace, "\x7b", ⟨line, 11⟩⟩, ⟨.rbrace, "\x7d", ⟨line, 13⟩⟩]

theorem unopened_nameless : Unopened nameless :=
  ⟨by decide, by decide, by decide⟩

-- the page below is taken for the name of the first one
theorem lost_below_nameless : ¬∀ (g : List Token) (k : Token) (ds : List Token), Unopened g →
    k.kind.startsDeclaration = true → (∀ t ∈ g, t.line < k.line) → (parse (k :: ds)).errors = [] →
    (parse (g ++ k :: ds)).errors.length = 1 ∧
      (parse (g ++ k :: ds)).program = (parse (k :: ds)).program := by
  intro h
  have hkept := (h nameless (pageWord 2) (pageBody "Home" 2) unopened_nameless rfl (by decide)
    (by decide +kernel)).2
  have hpages : (parse (nameless ++ pageWord 2 :: pageBody "Home" 2)).program.pages.length = 0 ∧
      (parse (pageWord 2 :: pageBody "Home" 2)).program.pages.length = 1 := by
    decide +kernel
  rw [hkept] at hpages
  omega

theorem parse_of_unopened_pages :
    (∃ e : SyntaxError, e.pos ∈ misnamed.map Token.pos ∧
      parse (misnamed ++ pageWord 2 :: pageBody "Home" 2) =
        ⟨(parse (pageWord 2 :: pageBody "Home" 2)).program, [e]⟩) ∧
    (parse (pageWord 2 :: pageBody "Home" 2)).program.pages.map (·.name) = ["Home"] ∧
    (∃ e : SyntaxError, e.pos ∈ (pageWord 2 :: pageBody "Home" 2).map Token.pos ∧
      parse (nameless ++ pageWord 2 :: pageBody "Home" 2 ++ pageWord 3 :: pageBody "Bill" 3) =
        ⟨(parse (pageWord 3 :: pageBody "Bill" 3)).program, [e]⟩) ∧
    (parse (pageWord 3 :: pageBody "Bill" 3)).program.pages.map (·.name) = ["Bill"] := by
  obtain ⟨hhome, hbill, hhomes, hbills⟩ : (parse (pageWord 2 :: pageBody "Home" 2)).errors = [] ∧
      (parse (pageWord 3 :: pageBody "Bill" 3)).errors = [] ∧
      (parse (pageWord 2 :: pageBody "Home" 2)).program.pages.map (·.name) = ["Home"] ∧
      (parse (pageWord 3 :: pageBody "Bill" 3)).program.pages.map (·.name) = ["Bill"] := by
    decide +kernel
  have hmisnamed : ¬Viable opening misnamed := by
    rintro ⟨more, hm⟩
    rcases kind_of_cons_mem_opening.1 hm with ⟨-, h⟩ | ⟨h, -⟩ | ⟨h, -⟩
    · rw [pageOpening_eq, cons_mem_single_mul] at h
      cases (cons_mem_single_mul.1 h.2).1
    · cases h
    · cases h
  have hnameless : Viable opening (nameless ++ [pageWord 2]) :=
    ⟨[⟨.lbrace, "\x7b", ⟨2, 6⟩⟩], page_mem_opening rfl rfl rfl⟩
  obtain ⟨e, he, hkept⟩ := (parse_of_unopened (g := misnamed) (k := pageWord 2)
    ⟨by decide, by decide, by decide⟩ rfl).1 hmisnamed (pageBody "Home" 2)
  obtain ⟨e', he', hlost⟩ := (parse_of_unopened (k := pageWord 2) unopened_nameless rfl).2.1
    hnameless (pageBody "Home" 2) (pageWord 3 :: pageBody "Bill" 3) (by decide) hhome
    ⟨_, _, rfl, .inr rfl⟩
  rw [hhome] at hkept
  rw [hbill] at hlost
  exact ⟨⟨e, he, hkept⟩, hhomes, ⟨e', he', hlost⟩, hbills⟩

end UiScenario
