import UiScenario.Proofs.Objects
import UiScenario.Proofs.WellScoped

/-!
Every object that generated code reads is defined in its file, with one exception: what only the
first value of a page's variable mentions is not looked for.
-/

namespace UiScenario

/-- The bodies of the functions in a file, each with the parameters of its function. -/
def Code.File.bodies (f : Code.File) : List (List String × List Code.Statement) :=
  (f.fixtures.flatMap fun x => x.methods.map fun m => (m.parameters, m.body)) ++
    f.suites.flatMap fun s =>
      (s.hooks.map fun h => ([], h.body)) ++ s.tests.map fun t => ([], t.body)

theorem Code.File.mem_bodies {f : Code.File} {x : List String × List Code.Statement} :
    x ∈ f.bodies ↔ (∃ y ∈ f.fixtures, ∃ m ∈ y.methods, (m.parameters, m.body) = x) ∨
      ∃ y ∈ f.suites, (∃ k ∈ y.hooks, ([], k.body) = x) ∨ ∃ t ∈ y.tests, ([], t.body) = x := by
  simp only [bodies, List.mem_append, List.mem_flatMap, List.mem_map]

namespace Generate

/-- The statement lists that a file is generated from: the actions of the pages and libraries that
    are needed, and the hooks and selected scenarios of features with selected scenarios. -/
def writtenBodies (all : Project) (r : Request) (p : Program) : List (List Statement) :=
  ((neededPages all p).flatMap (·.actions)).map (·.body) ++
    ((neededLibraries all p).flatMap (·.actions)).map (·.body) ++
    (selectedScenarios r.selection p.features).flatMap fun x =>
      x.1.hooks.map (·.body) ++ x.2.map (·.body)

/-- Where the statement lists of a file come from. -/
theorem forall_writtenBodies {all : Project} {r : Request} {p : Program}
    {M : List Statement → Prop} : (∀ body ∈ writtenBodies all r p, M body) ↔
      (∀ page ∈ neededPages all p, ∀ a ∈ page.actions, M a.body) ∧
      (∀ l ∈ neededLibraries all p, ∀ a ∈ l.actions, M a.body) ∧
      ∀ x ∈ selectedScenarios r.selection p.features,
        (∀ k ∈ x.1.hooks, M k.body) ∧ ∀ t ∈ x.2, M t.body := by
  simp only [writtenBodies, List.forall_mem_append, List.forall_mem_map, List.forall_mem_flatMap,
    and_assoc]

/-! ## Bodies -/

section
variable {all : Project} {ms scope : List String}

theorem accounted_declareLine (all : Project) (ms scope names : List String) (d : Nat)
    (visible : List String) :
    Accounted all ms scope (Code.visitAll d visible (declareLine names)) ∧
    setsOf (Code.visitAll d visible (declareLine names)) = [] := by
  unfold declareLine
  split
  · exact ⟨trivial, rfl⟩
  · exact ⟨⟨nofun, trivial⟩, rfl⟩

theorem accounted_body {o : BodyOwner} {bound : List String} {body : List Statement}
    {code : List Code.Statement} (d : Nat) (visible : List String)
    (ho : ∀ q ∈ o.defaultPage.toList ++ o.uses, q ∈ ms)
    (hw : ∀ s ∈ Statement.flattenAll body, s.Within ms) (hs : bound ⊆ scope)
    (h : Generate.body all o bound body = .ok code) :
    Accounted all ms scope (Code.visitAll d visible code) := by
  obtain ⟨core, q, hcore, rfl⟩ := body_cases h
  obtain ⟨hline, hsets⟩ := accounted_declareLine all ms scope
    ((hoistedNames bound body).filter (!bound.contains ·)) d visible
  rw [Code.visitAll_append, accounted_append, hsets, List.append_nil]
  exact ⟨hline, ((lays_statements body hcore).accounted ho d _ (Or.inl rfl) hs hw).1.1⟩

mutual

theorem objects_parameterCode : ∀ v : ParamValue, (parameterCode v).objects = []
  | .null | .flag _ | .number _ | .text _ => rfl
  | .list items => objects_parameterCodes items

theorem objects_parameterCodes :
    ∀ vs : List ParamValue, Code.Expr.objectsAll (parameterCodes vs) = []
  | [] => rfl
  | v :: rest => by
    rw [parameterCodes, Code.Expr.objectsAll, objects_parameterCode v, objects_parameterCodes rest]
    rfl

end

theorem accounted_bindings (all : Project) (ms scope hoisted : List String)
    (values : List (String × ParamValue)) (d : Nat) (visible : List String) :
    Accounted all ms scope (Code.visitAll d visible (bindings hoisted values)) ∧
    setsOf (Code.visitAll d visible (bindings hoisted values)) = values.map (·.1) := by
  induction values generalizing visible scope with
  | nil => exact ⟨trivial, rfl⟩
  | cons v values ih =>
    have hvalue : ∀ n ∈ (parameterCode v.2).objects,
        ∃ root, IsRoot root ∧ Readable all root scope ms n := by
      simp [objects_parameterCode]
    rw [bindings, List.map_cons, ← bindings]
    dsimp only
    split
    · obtain ⟨hacc, hsets⟩ := ih (scope ++ [v.1]) (visible ++ [v.1])
      exact ⟨⟨hvalue, hacc⟩, congrArg (v.1 :: ·) hsets⟩
    · obtain ⟨hacc, hsets⟩ := ih (scope ++ [v.1]) (visible ++ [v.1])
      exact ⟨⟨hvalue, hacc⟩, congrArg (v.1 :: ·) hsets⟩

theorem accounted_method {page : Option String} {a : Action} {m : Code.Method}
    (ho : ∀ q ∈ page, q ∈ ms) (hw : ∀ s ∈ Statement.flattenAll a.body, s.Within ms)
    (h : method all page a = .ok m) :
    Accounted all ms m.parameters (Code.visitAll 0 [] m.body) := by
  obtain ⟨code, hc, h⟩ := bind_eq_ok.1 h
  cases h
  refine accounted_body 0 [] (fun q hq => ?_) hw (List.Subset.refl _) hc
  rw [List.append_nil, Option.mem_toList] at hq
  exact ho q hq

theorem accounted_hook {uses : List String} {k : Hook} {c : Code.Hook} (ho : ∀ q ∈ uses, q ∈ ms)
    (hw : ∀ s ∈ Statement.flattenAll k.body, s.Within ms) (h : hook all uses k = .ok c) :
    Accounted all ms [] (Code.visitAll 0 [] c.body) := by
  obtain ⟨code, hc, h⟩ := bind_eq_ok.1 h
  have hbody : ∀ visible scope, Accounted all ms scope (Code.visitAll 0 visible code) :=
    fun visible scope => accounted_body (o := ⟨none, uses⟩) 0 visible ho hw (List.nil_subset _) hc
  have hcases : c.body = code ∨ c.body = withOwnPage code := by
    cases h
    cases k.kind with
    | beforeEach | afterEach => exact Or.inl rfl
    | beforeAll | afterAll => exact Or.inr rfl
  rcases hcases with hcode | hcode
  · rw [hcode]
    exact hbody [] []
  · -- a page is opened in front of the code and closed behind it
    rw [hcode, withOwnPage, Code.visitAll, Code.inside, List.nil_append, Code.visitAll_append]
    have hruntime : ∀ {names : List String}, names ⊆ runtimeNames → ∀ scope, ∀ n ∈ names,
        ∃ root, IsRoot root ∧ Readable all root scope ms n := fun hn _ n hm =>
      ⟨"page", Or.inl rfl, .runtime (hn hm)⟩
    have hopen : ["browser"] ⊆ runtimeNames := by decide
    have hclose : ["page"] ⊆ runtimeNames := by decide
    refine ⟨hruntime hopen _, accounted_append.2 ⟨hbody _ _, ?_⟩⟩
    exact ⟨hruntime hclose _, trivial⟩

theorem accounted_testBody {uses : List String} {s : Scenario}
    {values : List (String × ParamValue)} {code : List Code.Statement} (ho : ∀ q ∈ uses, q ∈ ms)
    (hw : ∀ t ∈ Statement.flattenAll s.body, t.Within ms)
    (h : testBody all uses s values = .ok code) :
    Accounted all ms [] (Code.visitAll 0 [] code) := by
  obtain ⟨core, hc, h⟩ := bind_eq_ok.1 h
  cases h
  obtain ⟨hb, hsets⟩ := accounted_bindings all ms [] (hoistedNames (values.map (·.1)) s.body)
    values 0 []
  rw [Code.visitAll_append, accounted_append, hsets]
  exact ⟨hb, accounted_body (o := ⟨none, uses⟩) 0 _ ho hw (List.subset_append_right ..) hc⟩

end

/-! ## What is written is needed -/

section
variable {all : Project} {p : Program} {n : String}

theorem mem_neededNames_of_successors {m : String} (hm : m ∈ neededNames all p)
    (h : n ∈ successors all m) : n ∈ neededNames all p :=
  mem_reachable_iff.2 (.mentioned (mem_reachable_iff.1 hm) h)

theorem needed_of_forPage {l : Library} (hl : l ∈ neededLibraries all p)
    (hn : l.forPage = some n) : n ∈ neededNames all p := by
  obtain ⟨hname, hlibrary⟩ := mem_neededLibraries_iff.1 hl
  refine mem_neededNames_of_successors hname (List.mem_append_right _ ?_)
  rw [hlibrary]
  exact List.mem_append_left _ (Option.mem_toList.2 hn)

theorem needed_of_feature {f : Feature} (hf : f ∈ p.features) (hn : n ∈ featureReferences f) :
    n ∈ neededNames all p :=
  mem_reachable_iff.2 (.given (List.mem_append_right _ (List.mem_flatMap.2 ⟨f, hf, hn⟩)))

theorem needed_of_use {f : Feature} (hf : f ∈ p.features) (hn : n ∈ f.uses.map (·.name)) :
    n ∈ neededNames all p :=
  needed_of_feature hf (List.mem_append_left _ (List.mem_append_left _ hn))

theorem mem_of_mem_selectedScenarios {selection : Option Selection} {features : List Feature}
    {x : Feature × List Scenario} (h : x ∈ selectedScenarios selection features) :
    x.1 ∈ features ∧ ∀ s ∈ x.2, s ∈ x.1.scenarios := by
  obtain ⟨f, hf, rfl⟩ := List.mem_map.1 (List.mem_filter.1 h).1
  exact ⟨hf, fun s hs => (List.mem_filter.1 hs).1⟩

theorem needed_of_writtenBodies {r : Request} : ∀ body ∈ writtenBodies all r p,
    ∀ s ∈ Statement.flattenAll body, ∀ n ∈ s.owners, n ∈ neededNames all p := by
  have hbody : ∀ {body : List Statement} {s : Statement} {n : String},
      s ∈ Statement.flattenAll body → n ∈ s.owners → n ∈ references body :=
    fun hs hn => List.mem_flatMap.2 ⟨_, hs, hn⟩
  refine forall_writtenBodies.2 ⟨fun page hp a ha s hs n hn => ?_, fun l hl a ha s hs n hn => ?_,
    fun x hx => ?_⟩
  · obtain ⟨hname, hpage⟩ := mem_neededPages_iff.1 hp
    refine mem_neededNames_of_successors hname (List.mem_append_left _ ?_)
    rw [hpage]
    exact List.mem_flatMap.2 ⟨a, ha, hbody hs hn⟩
  · obtain ⟨hname, hlibrary⟩ := mem_neededLibraries_iff.1 hl
    refine mem_neededNames_of_successors hname (List.mem_append_right _ ?_)
    rw [hlibrary]
    exact List.mem_append_right _ (List.mem_flatMap.2 ⟨a, ha, hbody hs hn⟩)
  · obtain ⟨hf, hscenarios⟩ := mem_of_mem_selectedScenarios hx
    refine ⟨fun k hk s hs n hn => needed_of_feature hf ?_,
      fun t ht s hs n hn => needed_of_feature hf ?_⟩
    · refine List.mem_append_left _ (List.mem_append_right _ ?_)
      exact List.mem_flatMap.2 ⟨k, hk, hbody hs hn⟩
    · exact List.mem_append_right _ (List.mem_flatMap.2 ⟨t, hscenarios t ht, hbody hs hn⟩)

end

/-! ## Files -/

/-- How the functions of a file come about: from the actions that are needed, and from the hooks and
    scenarios that are selected. -/
inductive WrittenAs (all : Project) (r : Request) (p : Program) :
    List Statement → List String × List Code.Statement → Prop
  | page {page : Page} {a : Action} {m : Code.Method} (hp : page ∈ neededPages all p)
    (ha : a ∈ page.actions) (h : method all (some page.name) a = .ok m) :
    WrittenAs all r p a.body (m.parameters, m.body)
  | library {l : Library} {a : Action} {m : Code.Method} (hl : l ∈ neededLibraries all p)
    (ha : a ∈ l.actions) (h : method all l.forPage a = .ok m) :
    WrittenAs all r p a.body (m.parameters, m.body)
  | hook {x : Feature × List Scenario} {k : Hook} {c : Code.Hook}
    (hx : x ∈ selectedScenarios r.selection p.features) (hk : k ∈ x.1.hooks)
    (h : hook all (x.1.uses.map (·.name)) k = .ok c) : WrittenAs all r p k.body ([], c.body)
  | test {x : Feature × List Scenario} {s : Scenario} {values : List (String × ParamValue)}
    {code : List Code.Statement} (hx : x ∈ selectedScenarios r.selection p.features)
    (hs : s ∈ x.2) (h : testBody all (x.1.uses.map (·.name)) s values = .ok code) :
    WrittenAs all r p s.body ([], code)

theorem WrittenAs.mem {all : Project} {r : Request} {p : Program} {body : List Statement}
    {x : List String × List Code.Statement} (h : WrittenAs all r p body x) :
    body ∈ writtenBodies all r p := by
  obtain ⟨hpages, hlibraries, hscenarios⟩ := forall_writtenBodies.1 fun body hb => hb
  cases h with
  | page hp ha => exact hpages _ hp _ ha
  | library hl ha => exact hlibraries _ hl _ ha
  | hook hx hk => exact (hscenarios _ hx).1 _ hk
  | test hx hs => exact (hscenarios _ hx).2 _ hs

theorem variants_ne_nil (cs : List Combination) : variants cs ≠ [] := by
  cases cs <;> simp [variants, labelsFrom]

section
variable {context : Project} {r : Request} {p : Program} {g : Generated}
  (hg : generate context r p = .ok g)
include hg

theorem exists_written {x : List String × List Code.Statement} (hx : x ∈ g.file.bodies) :
    ∃ body, WrittenAs (context.extend p) r p body x := by
  rcases Code.File.mem_bodies.1 hx with ⟨y, hy, m, hm, rfl⟩ | ⟨y, hy, hx⟩
  · rcases (mem_fixtures_iff hg).1 hy with ⟨page, hp, -, hfix⟩ | ⟨l, hl, hfix⟩
    · obtain ⟨methods, hmethods, ⟨⟩⟩ := bind_eq_ok.1 hfix
      obtain ⟨a, ha, hmethod⟩ := exists_of_mem_mapM hmethods hm
      exact ⟨_, .page hp ha hmethod⟩
    · obtain ⟨methods, hmethods, ⟨⟩⟩ := bind_eq_ok.1 hfix
      obtain ⟨a, ha, hmethod⟩ := exists_of_mem_mapM hmethods hm
      exact ⟨_, .library hl ha hmethod⟩
  · obtain ⟨_, _, suites, -, -, hsuites, -, hfile, -⟩ := generate_cases hg
    rw [hfile] at hy
    obtain ⟨made, hmade, rfl⟩ := List.mem_map.1 hy
    obtain ⟨chosen, hchosen, hsuite⟩ := exists_of_mem_mapM hsuites hmade
    obtain ⟨hooks, hhooks, hsuite⟩ := bind_eq_ok.1 hsuite
    obtain ⟨groups, hgroups, ⟨⟩⟩ := bind_eq_ok.1 hsuite
    rcases hx with ⟨c, hc, rfl⟩ | ⟨t, ht, rfl⟩
    · obtain ⟨k, hk, hcode⟩ := exists_of_mem_mapM hhooks hc
      exact ⟨_, .hook hchosen hk hcode⟩
    · obtain ⟨y, hy, rfl⟩ := List.mem_map.1 ht
      obtain ⟨group, hgroup, hy⟩ := List.mem_flatten.1 hy
      obtain ⟨s, hs, htests⟩ := exists_of_mem_mapM hgroups hgroup
      obtain ⟨v, -, htest⟩ := exists_of_mem_mapM htests hy
      obtain ⟨code, hcode, ⟨⟩⟩ := bind_eq_ok.1 htest
      exact ⟨_, .test hchosen hs hcode⟩

theorem exists_of_writtenBodies : ∀ body ∈ writtenBodies (context.extend p) r p,
    ∃ x ∈ g.file.bodies, WrittenAs (context.extend p) r p body x := by
  obtain ⟨pageObjects, libraryObjects, suites, hpages, hlibraries, hsuites, hfixtures, hfile, -⟩ :=
    generate_cases hg
  simp only [Code.File.mem_bodies, hfixtures, hfile]
  refine forall_writtenBodies.2 ⟨fun page hp a ha => ?_, fun l hl a ha => ?_, fun x hx => ?_⟩
  · -- a page with an action has an object
    have hne : page.actions ≠ [] := List.ne_nil_of_mem ha
    obtain ⟨y, hy, hfix⟩ := exists_mem_of_mapM hpages
      (List.mem_filter.2 ⟨hp, by simp [hasObject, hne]⟩)
    obtain ⟨methods, hms, ⟨⟩⟩ := bind_eq_ok.1 hfix
    obtain ⟨m, hm, hmethod⟩ := exists_mem_of_mapM hms ha
    exact ⟨_, .inl ⟨_, List.mem_append_left _ hy, m, hm, rfl⟩, .page hp ha hmethod⟩
  · obtain ⟨y, hy, hfix⟩ := exists_mem_of_mapM hlibraries hl
    obtain ⟨methods, hms, ⟨⟩⟩ := bind_eq_ok.1 hfix
    obtain ⟨m, hm, hmethod⟩ := exists_mem_of_mapM hms ha
    exact ⟨_, .inl ⟨_, List.mem_append_right _ hy, m, hm, rfl⟩, .library hl ha hmethod⟩
  · obtain ⟨made, hmade, hsuite⟩ := exists_mem_of_mapM hsuites hx
    have hy := List.mem_map_of_mem (f := (·.1)) hmade
    obtain ⟨hooks, hhooks, hsuite⟩ := bind_eq_ok.1 hsuite
    obtain ⟨groups, hgroups, ⟨⟩⟩ := bind_eq_ok.1 hsuite
    refine ⟨fun k hk => ?_, fun s hs => ?_⟩
    · obtain ⟨c, hc, hcode⟩ := exists_mem_of_mapM hhooks hk
      exact ⟨_, .inr ⟨_, hy, .inl ⟨c, hc, rfl⟩⟩, .hook hx hk hcode⟩
    · obtain ⟨group, hgroup, htests⟩ := exists_mem_of_mapM hgroups hs
      obtain ⟨v, hv⟩ := List.exists_mem_of_ne_nil _ (variants_ne_nil r.combinations)
      obtain ⟨t, ht, htest⟩ := exists_mem_of_mapM htests hv
      obtain ⟨code, hcode, ⟨⟩⟩ := bind_eq_ok.1 htest
      have ht := List.mem_map_of_mem (f := (·.1)) (List.mem_flatten.2 ⟨group, hgroup, ht⟩)
      exact ⟨_, .inr ⟨_, hy, .inr ⟨_, ht, rfl⟩⟩, .test hx hs hcode⟩

theorem accounted_bodies (hw : ∀ body ∈ writtenBodies (context.extend p) r p,
    ∀ s ∈ Statement.flattenAll body, s.Within (neededNames (context.extend p) p)) :
    ∀ x ∈ g.file.bodies, Accounted (context.extend p) (neededNames (context.extend p) p) x.1
      (Code.visitAll 0 [] x.2) := by
  intro x hx
  obtain ⟨body, hwritten⟩ := exists_written hg hx
  have hbody := hw body hwritten.mem
  have huse : ∀ {x}, x ∈ selectedScenarios r.selection p.features →
      ∀ q ∈ x.1.uses.map (·.name), q ∈ neededNames (context.extend p) p :=
    fun hx _ hq => needed_of_use (mem_of_mem_selectedScenarios hx).1 hq
  cases hwritten with
  | page hp ha h =>
    refine accounted_method ?_ hbody h
    rintro _ ⟨⟩
    exact (mem_neededPages_iff.1 hp).1
  | library hl ha h => exact accounted_method (fun q hq => needed_of_forPage hl hq) hbody h
  | hook hf hk h => exact accounted_hook (huse hf) hbody h
  | test hf hs h => exact accounted_testBody (huse hf) hbody h

end

/-- The first value of a page's variable reads members of what the test runner gives, and of names
    that have an object if they have a definition. -/
theorem readable_of_properties {all : Project} {page : Page} {x : Code.Fixture}
    (h : pageFixture all page = .ok x) {v : String × Code.Expr} (hv : v ∈ x.properties) {n : String}
    (hn : n ∈ v.2.objects) : n ∈ runtimeNames ∨ (n ∈ all.definedNames → HasObject all n) := by
  obtain ⟨methods, -, h⟩ := bind_eq_ok.1 h
  cases h
  rcases List.mem_append.1 hv with hv | hv
  · obtain ⟨url, -, rfl⟩ := Option.map_eq_some_iff.1 (Option.mem_toList.1 hv)
    cases hn
  · obtain ⟨pv, -, rfl⟩ := List.mem_map.1 hv
    have hread : Reads ⟨all, some page.name, [], []⟩ (.start [])
        (page.name :: pv.value.qualifiers)
        (expression ⟨all, some page.name, [], []⟩ (.start []) pv.value) :=
      reads_expression (by simp) fun q hq => List.mem_cons_of_mem _ hq
    cases hread n hn with
    | runtime h => exact Or.inl h
    | root => exact Or.inl (by decide)
    | inScope h => cases h
    | object _ ho => exact Or.inr ho

theorem resolved_of_writtenBodies {context : Project} {r : Request} {p : Program} {g : Generated}
    (hg : generate context r p = .ok g) : ∀ body ∈ writtenBodies (context.extend p) r p,
    ∃ scope, ResolvedBody (context.extend p) scope body := by
  obtain ⟨hpages, hlibraries, htests⟩ := succeeds_generate.1 ⟨g, hg⟩
  obtain ⟨v, hv⟩ := List.exists_mem_of_ne_nil _ (variants_ne_nil r.combinations)
  exact forall_writtenBodies.2 ⟨fun page hp a ha => ⟨_, hpages page hp a ha⟩,
    fun l hl a ha => ⟨_, hlibraries l hl a ha⟩,
    fun x hx => ⟨fun k hk => ⟨_, (htests x hx).1 k hk⟩, fun s hs => ⟨_, (htests x hx).2 s hs v hv⟩⟩⟩

end Generate

open Generate

variable {context : Project} {r : Request} {p : Program} {g : Generated} {x : Code.Fixture}
  {m : Code.Method}

/-- What generated code reads is defined in its file. -/
structure ReadsDefined (all : Project) (r : Request) (p : Program) (file : Code.File) : Prop where
  /-- A page or library whose action is performed has an object, and it is defined. -/
  performed : ∀ body ∈ writtenBodies all r p, ∀ line owner action arguments,
    .step line (.perform owner action arguments) ∈ Statement.flattenAll body →
    HasObject all owner ∧ Defined all file owner
  /-- What a statement names in values and elements is defined if it has an object. -/
  named : ∀ body ∈ writtenBodies all r p, ∀ s ∈ Statement.flattenAll body, ∀ n ∈ s.owners,
    HasObject all n → Defined all file n
  /-- The code of a function reads members of nothing but what the test runner gives, frames, its
      parameters, variables that were set in front of it, and objects that are defined. -/
  read : ∀ x ∈ file.bodies, ∀ front v behind, Code.visitAll 0 [] x.2 = front ++ v :: behind →
    ∀ n ∈ v.statement.objects, n ∈ runtimeNames ∨ (∃ k, n = frameName k) ∨
      n ∈ x.1 ++ setsOf front ∨ (n ∈ all.definedNames → HasObject all n ∧ Defined all file n)
  /-- The first value of a page's variable reads members of names that have an object, too, and
      this is defined exactly if it can be reached without the first values. -/
  initial : ∀ x ∈ file.fixtures, ∀ v ∈ x.properties, ∀ n ∈ v.2.objects, n ∈ runtimeNames ∨
    (n ∈ all.definedNames →
      HasObject all n ∧ (Defined all file n ↔ Reached all (programReferences p) n))

theorem readsDefined_of_generate (hg : generate context r p = .ok g)
    (ht : ∀ body ∈ writtenBodies (context.extend p) r p, ∀ s ∈ Statement.flattenAll body,
      ∀ t ∈ s.targets, t.Plain) : ReadsDefined (context.extend p) r p g.file := by
  have hdefined : ∀ {n}, n ∈ neededNames (context.extend p) p → HasObject (context.extend p) n →
      Defined (context.extend p) g.file n := fun hn ho =>
    (defined_iff_reached hg ho).2 (mem_reachable_iff.1 hn)
  have hwithin : ∀ body ∈ writtenBodies (context.extend p) r p,
      ∀ s ∈ Statement.flattenAll body, s.Within (neededNames (context.extend p) p) :=
    fun body hb s hs => ⟨ht body hb s hs, needed_of_writtenBodies body hb s hs⟩
  constructor
  · intro body hb line owner action arguments hs
    obtain ⟨scope, hresolved⟩ := resolved_of_writtenBodies hg body hb
    obtain ⟨front, behind, heq⟩ := List.append_of_mem hs
    have hcall := (hresolved front _ behind heq).calls line owner action arguments rfl
    have ho := hasObject_of_performable hcall
    exact ⟨ho, hdefined (needed_of_writtenBodies body hb _ hs owner
      (List.mem_append_right _ (List.mem_singleton.2 rfl))) ho⟩
  · intro body hb s hs n hn ho
    exact hdefined (needed_of_writtenBodies body hb s hs n hn) ho
  · intro x hx front v behind heq n hn
    obtain ⟨root, hroot, hread⟩ := (accounted_bodies hg hwithin x hx).at heq n hn
    cases hread with
    | runtime h => exact Or.inl h
    | root =>
      rcases hroot with rfl | hframe
      · exact Or.inl (by decide)
      · exact Or.inr (Or.inl hframe)
    | inScope h => exact Or.inr (Or.inr (Or.inl h))
    | object h ho => exact Or.inr (Or.inr (Or.inr fun hd => ⟨ho hd, hdefined h (ho hd)⟩))
  · intro x hx v hv n hn
    rcases (mem_fixtures_iff hg).1 hx with ⟨page, -, -, hfix⟩ | ⟨l, -, hfix⟩
    · rcases readable_of_properties hfix hv hn with h | ho
      · exact Or.inl h
      · exact Or.inr fun hd => ⟨ho hd, defined_iff_reached hg (ho hd)⟩
    · obtain ⟨methods, -, hfix⟩ := bind_eq_ok.1 hfix
      cases hfix
      cases hv

/-! ## Scripts -/

theorem compile_eq_success {source : String} {warnings : List Problem}
    (h : compile context r source = .ok (.success g warnings)) :
    generate context r (parseText source).program = .ok g := by
  unfold compile analyze at h
  cases hs : parseSource source with
  | error errors => simp [hs] at h
  | ok parsing =>
    obtain ⟨p, errors⟩ := parsing
    rw [← eq_parseText_of_parseSource hs]
    cases errors with
    | cons e es => simp [hs] at h
    | nil =>
      cases hv : (Report.ofProblems (validate context p)).valid with
      | false => simp [hs, hv] at h
      | true =>
        simp only [hs, hv] at h
        obtain ⟨g', hg, h⟩ := bind_eq_ok.1 h
        cases h
        exact hg

theorem plain_of_spelled {N B : String → Prop}
    (hpages : ∀ page ∈ context.pages, ∀ a ∈ page.actions, a.Spelled N B)
    (hlibraries : ∀ l ∈ context.libraries, ∀ a ∈ l.actions, a.Spelled N B) (hsp : p.Spelled N B)
    (r : Request) :
    ∀ body ∈ writtenBodies (context.extend p) r p,
    ∀ s ∈ Statement.flattenAll body, ∀ t ∈ s.targets, t.Plain := by
  refine forall_writtenBodies.2 ⟨fun page hp a ha s hs => ?_, fun l hl a ha s hs => ?_,
    fun x hx => ?_⟩
  · rcases List.mem_append.1 (mem_of_mem_neededPages hp) with hp | hp
    · exact (hpages page hp a ha).body s hs |>.targets
    · exact ((hsp.pages page hp).2 a ha).body s hs |>.targets
  · rcases List.mem_append.1 (mem_of_mem_neededLibraries hl) with hl | hl
    · exact (hlibraries l hl a ha).body s hs |>.targets
    · exact ((hsp.libraries l hl).2 a ha).body s hs |>.targets
  · obtain ⟨hf, hscenarios⟩ := mem_of_mem_selectedScenarios hx
    exact ⟨fun k hk s hs => (hsp.hooks x.1 hf k hk s hs).targets,
      fun t ht s hs => (hsp.scenarios x.1 hf t (hscenarios t ht) s hs).targets⟩

theorem plain_of_parse (sources : List String) (r : Request) (tokens : List Token) :
    ∀ body ∈ writtenBodies ((parseProject sources).extend (parse tokens).program) r
      (parse tokens).program,
    ∀ s ∈ Statement.flattenAll body, ∀ t ∈ s.targets, t.Plain := by
  have hsp : ∀ ts, (parse ts).program.Spelled (fun _ => True) (fun _ => True) :=
    fun ts => spelled_parse fun _ _ => ⟨fun _ => trivial, fun _ => trivial⟩
  refine plain_of_spelled (fun page hp => ?_) (fun l hl => ?_) (hsp tokens) r
  · obtain ⟨_, hq, hp⟩ := List.mem_flatMap.1 hp
    obtain ⟨other, -, rfl⟩ := List.mem_map.1 hq
    exact ((hsp _).pages page hp).2
  · obtain ⟨_, hq, hl⟩ := List.mem_flatMap.1 hl
    obtain ⟨other, -, rfl⟩ := List.mem_map.1 hq
    exact ((hsp _).libraries l hl).2

theorem plain_of_writtenBodies (sources : List String) (r : Request) (source : String) :
    ∀ body ∈ writtenBodies ((parseProject sources).extend (parseText source).program) r
      (parseText source).program,
    ∀ s ∈ Statement.flattenAll body, ∀ t ∈ s.targets, t.Plain :=
  plain_of_parse sources r _

/-- **Objects**: what the code for a script reads is defined in its file, for all scripts around it
    and whatever is asked for. Only what the first value of a page's variable reads has to be
    reached in another way. -/
theorem readsDefined_of_compile (sources : List String) (r : Request) (source : String)
    (g : Generated) (warnings : List Problem)
    (h : compile (parseProject sources) r source = .ok (.success g warnings)) :
    ReadsDefined ((parseProject sources).extend (parseText source).program) r
      (parseText source).program g.file :=
  readsDefined_of_generate (compile_eq_success h) (plain_of_writtenBodies sources r source)

/-- A script with a page whose variable starts with the value of another page's variable. -/
def greetingScript : String :=
  "PAGE Home \x7b TEXT greeting = Config.base \x7d
  FEATURE F \x7b SCENARIO \"s\" \x7b REFRESH \x7d \x7d"

/-- The page around it that only this first value mentions. -/
def configSources : List String :=
  ["PAGE Config \x7b TEXT base = \"x\" \x7d"]

theorem readsDefined_of_compile_greeting : ∃ g warnings,
    compile (parseProject configSources) ⟨none, []⟩ greetingScript = .ok (.success g warnings) ∧
    (∃ x ∈ g.file.fixtures, ∃ v ∈ x.properties, "Config" ∈ v.2.objects) ∧
    HasObject ((parseProject configSources).extend (parseText greetingScript).program) "Config" ∧
    ¬Defined ((parseProject configSources).extend (parseText greetingScript).program) g.file
      "Config" := by
  have hrun : (match compile (parseProject configSources) ⟨none, []⟩ greetingScript with
      | .ok (.success g _) => g.file.fixtures.any fun x => x.properties.any fun v =>
          v.2.objects.contains "Config"
      | _ => false) = true := by
    decide +kernel
  split at hrun
  · next g warnings hg =>
    simp only [List.any_eq_true, List.contains_iff_mem] at hrun
    obtain ⟨x, hx, v, hv, hn⟩ := hrun
    have hread := (readsDefined_of_compile configSources ⟨none, []⟩ greetingScript g warnings
      hg).initial x hx v hv "Config" hn
    obtain ⟨ho, hreached⟩ := hread.resolve_left (by decide) (by decide +kernel)
    refine ⟨g, warnings, hg, ⟨x, hx, v, hv, hn⟩, ho, fun hd => ?_⟩
    have hneeded := mem_reachable_iff.2 (hreached.1 hd)
    exact absurd hneeded (by decide +kernel)
  · cases hrun

end UiScenario
