import UiScenario.Proofs.DataImport
import UiScenario.Proofs.Labels

/-!
Files for selected scenarios. What is generated for a scenario does not depend on the scenarios
around it, so a selection only leaves things out: the tests of scenarios that are not selected, and
the whole suite of a feature without selected scenarios.
-/

namespace UiScenario

open Generate

/-- The scenarios of a program with their features, in the order of the script. -/
def Program.placedScenarios (p : Program) : List (Feature × Scenario) :=
  p.features.flatMap fun f => f.scenarios.map fun s => (f, s)

theorem eq_ok_of_mem_zip {ε α β : Type} {f : α → Except ε β} {xs : List α} {ys : List β}
    (h : xs.mapM f = .ok ys) {z : α × β} (hz : z ∈ xs.zip ys) : f z.1 = .ok z.2 := by
  have heq := mapM_eq_ok.1 h
  clear h
  induction xs generalizing ys with
  | nil => cases hz
  | cons x xs ih =>
    cases ys with
    | nil => cases hz
    | cons y ys =>
      rw [List.map_cons, List.map_cons, List.cons.injEq] at heq
      rcases List.mem_cons.1 hz with rfl | hz
      · exact heq.1
      · exact ih hz heq.2

/-! ## Features in files -/

/-- A feature in a file: its hooks, and the tests of each of its scenarios. -/
structure FeatureBlock where
  feature : Feature
  hooks : List Code.Hook
  scenarios : List (Scenario × List (Code.Test × TestCase))

namespace FeatureBlock

def chosen (x : FeatureBlock) : Feature × List Scenario :=
  (x.feature, x.scenarios.map (·.1))

def tests (x : FeatureBlock) : List (Code.Test × TestCase) :=
  x.scenarios.flatMap (·.2)

def suite (x : FeatureBlock) : Code.Suite :=
  ⟨x.feature.name, x.hooks, x.tests.map (·.1)⟩

/-- The lines of the suite: those of the hooks, and those of the tests of each scenario. -/
def lines (x : FeatureBlock) : List String :=
  ("test.describe(" ++ Code.quote x.feature.name ++ ", () => \x7b") ::
    (x.hooks.flatMap Code.Hook.lines ++
      x.scenarios.flatMap (fun y => y.2.flatMap fun t => t.1.lines) ++ ["\x7d);", ""])

/-- The block without the tests of some scenarios, and nothing if none is left. -/
def keep? (keep : Feature → Scenario → Bool) (x : FeatureBlock) : Option FeatureBlock :=
  let kept := x.scenarios.filter fun y => keep x.feature y.1
  if kept.isEmpty then none else some { x with scenarios := kept }

/-- A block is what is generated for its feature and its scenarios. -/
structure Made (all : Project) (cs : List Combination) (x : FeatureBlock) : Prop where
  hooks : x.feature.hooks.mapM (hook all (x.feature.uses.map (·.name))) = .ok x.hooks
  tests : ∀ y ∈ x.scenarios, Generate.tests all x.feature cs y.1 = .ok y.2

theorem lines_suite (x : FeatureBlock) : x.suite.lines = x.lines := by
  simp only [suite, Code.Suite.lines, lines, tests, List.map_flatMap, List.flatMap_assoc,
    List.flatMap_map]

section
variable {all : Project} {cs : List Combination}

theorem suite_of_made {x : FeatureBlock} (h : x.Made all cs) :
    Generate.suite all cs x.chosen.1 x.chosen.2 = .ok (x.suite, x.tests.map (·.2)) := by
  have htests : x.chosen.2.mapM (Generate.tests all x.feature cs) =
      .ok (x.scenarios.map (·.2)) := by
    rw [mapM_eq_ok, chosen, List.map_map, List.map_map]
    exact List.map_congr_left h.tests
  refine bind_eq_ok.2 ⟨_, h.hooks, bind_eq_ok.2 ⟨_, htests, ?_⟩⟩
  rw [← List.flatMap_def]
  rfl

theorem made_of_suite {f : Feature} {scenarios : List Scenario}
    {made : Code.Suite × List TestCase} (h : Generate.suite all cs f scenarios = .ok made) :
    ∃ x : FeatureBlock, x.Made all cs ∧ x.chosen = (f, scenarios) := by
  obtain ⟨hooks, hhooks, h⟩ := bind_eq_ok.1 h
  obtain ⟨groups, hgroups, -⟩ := bind_eq_ok.1 h
  have hlength : scenarios.length = groups.length := by
    simpa using congrArg List.length (mapM_eq_ok.1 hgroups)
  refine ⟨⟨f, hooks, scenarios.zip groups⟩, ⟨hhooks, fun y hy => ?_⟩, ?_⟩
  · exact eq_ok_of_mem_zip hgroups hy
  · rw [chosen, List.map_fst_zip (Nat.le_of_eq hlength)]

theorem Made.of_keep? {keep : Feature → Scenario → Bool} {x y : FeatureBlock}
    (h : x.Made all cs) (hk : x.keep? keep = some y) : y.Made all cs := by
  unfold keep? at hk
  dsimp only at hk
  split at hk
  · cases hk
  · cases hk
    exact ⟨h.hooks, fun z hz => h.tests z (List.mem_filter.1 hz).1⟩

/-- The account of a scenario's tests, and their names. -/
theorem Made.cases {x : FeatureBlock} (h : x.Made all cs)
    {y : Scenario × List (Code.Test × TestCase)} (hy : y ∈ x.scenarios) :
    y.2.map (·.2) = scenarioCases cs x.feature y.1 ∧ ∀ t ∈ y.2, t.1.name = t.2.name := by
  have htest : ∀ (v : Option String × List (String × ParamValue)) t,
      test all x.feature y.1 v.1 v.2 = .ok t →
      t.2 = ⟨x.feature.name, y.1.name, v.1, testName y.1 v.1⟩ ∧ t.1.name = t.2.name := by
    intro v t ht
    obtain ⟨code, -, ht⟩ := bind_eq_ok.1 ht
    cases ht
    exact ⟨rfl, rfl⟩
  have hmade := h.tests y hy
  refine ⟨map_of_mapM_eq_ok (fun v t ht => (htest v t ht).1) hmade, fun t ht => ?_⟩
  obtain ⟨v, -, hv⟩ := exists_of_mem_mapM hmade ht
  exact (htest v t hv).2

/-- The suites of a file are those of blocks. -/
theorem exists_blocks {chosen : List (Feature × List Scenario)}
    {suites : List (Code.Suite × List TestCase)}
    (h : (chosen.mapM fun c => Generate.suite all cs c.1 c.2) = .ok suites) :
    ∃ blocks : List FeatureBlock, (∀ x ∈ blocks, x.Made all cs) ∧
      blocks.map FeatureBlock.chosen = chosen := by
  have hall : ∀ c ∈ chosen, ∃ x : FeatureBlock, x.Made all cs ∧ x.chosen = c := by
    intro c hc
    obtain ⟨made, -, hmade⟩ := exists_mem_of_mapM h hc
    exact made_of_suite hmade
  clear h
  induction chosen with
  | nil => exact ⟨[], List.forall_mem_nil _, rfl⟩
  | cons c chosen ih =>
    obtain ⟨x, hx, rfl⟩ := hall c (List.mem_cons_self ..)
    obtain ⟨blocks, hblocks, rfl⟩ := ih fun c' hc' => hall c' (List.mem_cons_of_mem _ hc')
    exact ⟨x :: blocks, List.forall_mem_cons.2 ⟨hx, hblocks⟩, rfl⟩

theorem suites_of_made {blocks : List FeatureBlock} (h : ∀ x ∈ blocks, x.Made all cs) :
    ((blocks.map FeatureBlock.chosen).mapM fun c => Generate.suite all cs c.1 c.2) =
      .ok (blocks.map fun x => (x.suite, x.tests.map (·.2))) := by
  rw [mapM_eq_ok, List.map_map, List.map_map]
  exact List.map_congr_left fun x hx => suite_of_made (h x hx)

end

end FeatureBlock

/-! ## Selections -/

section
variable (keep : Feature → Scenario → Bool)

/-- Some of the chosen scenarios of a feature, and nothing if there are none. -/
def keepScenarios? (c : Feature × List Scenario) : Option (Feature × List Scenario) :=
  let kept := c.2.filter (keep c.1)
  if kept.isEmpty then none else some (c.1, kept)

theorem chosen_keep? (x : FeatureBlock) :
    (x.keep? keep).map FeatureBlock.chosen = keepScenarios? keep x.chosen := by
  have hkept : (x.scenarios.filter fun y => keep x.feature y.1).map (·.1) =
      (x.scenarios.map (·.1)).filter (keep x.feature) := by
    rw [List.filter_map]
    rfl
  unfold FeatureBlock.keep? keepScenarios? FeatureBlock.chosen
  dsimp only
  rw [← hkept, List.isEmpty_map]
  split <;> rfl

theorem chosen_filterMap (blocks : List FeatureBlock) :
    (blocks.filterMap (·.keep? keep)).map FeatureBlock.chosen =
      (blocks.map FeatureBlock.chosen).filterMap (keepScenarios? keep) := by
  rw [List.map_filterMap, List.filterMap_map]
  exact List.filterMap_congr fun x _ => chosen_keep? keep x

end

theorem selectedScenarios_none (features : List Feature) :
    selectedScenarios none features =
      (features.filter fun f => !f.scenarios.isEmpty).map fun f => (f, f.scenarios) := by
  unfold selectedScenarios
  rw [List.filter_map]
  simp [Function.comp_def]

theorem selectedScenarios_some (selection : Selection) (features : List Feature) :
    selectedScenarios (some selection) features =
      (selectedScenarios none features).filterMap (keepScenarios? selection.matches_) := by
  rw [selectedScenarios_none, List.filterMap_map, List.filterMap_filter, selectedScenarios,
    ← List.filterMap_eq_filter, List.filterMap_map]
  refine List.filterMap_congr fun f _ => ?_
  -- without scenarios, nothing is kept
  cases hs : f.scenarios with
  | nil => simp [hs]
  | cons s rest =>
    cases hk : ((s :: rest).filter (selection.matches_ f)).isEmpty <;>
      simp [Option.guard, keepScenarios?, hs, hk]

/-! ## Calls of tests -/

namespace Code

def isTestCall (line : String) : Bool :=
  (lineAt 1 "test(").toList.isPrefixOf line.toList

/-- A line calls the test with a name. -/
def CallsTest (line name : String) : Prop :=
  ∃ rest, line = lineAt 1 ("test(" ++ quote name ++ ", " ++ rest)

theorem toList_lineAt (level : Nat) (text : String) :
    (lineAt level text).toList = List.replicate (2 * level) ' ' ++ text.toList := by
  simp [lineAt]

mutual

theorem Statement.indented_lines (level : Nat) :
    ∀ s : Statement, ∀ line ∈ s.lines level, ∃ l text, level ≤ l ∧ line = lineAt l text
  | .eval _ | .declare _ | .let_ _ _ | .const _ _ | .assign _ _ => fun line hl =>
    ⟨level, _, Nat.le_refl _, List.mem_singleton.1 hl⟩
  | .branch _ body | .count _ _ body | .forOf _ _ body => fun line hl => by
    rcases List.mem_cons.1 hl with rfl | hl
    · exact ⟨level, _, Nat.le_refl _, rfl⟩
    · rcases List.mem_append.1 hl with hl | hl
      · obtain ⟨l, text, hlevel, rfl⟩ := Statement.indented_blockLines (level + 1) body line hl
        exact ⟨l, text, Nat.le_of_succ_le hlevel, rfl⟩
      · exact ⟨level, _, Nat.le_refl _, List.mem_singleton.1 hl⟩
  | .choice _ thenBody elseBody => fun line hl => by
    rcases List.mem_cons.1 hl with rfl | hl
    · exact ⟨level, _, Nat.le_refl _, rfl⟩
    · rcases List.mem_append.1 hl with hl | hl
      · obtain ⟨l, text, hlevel, rfl⟩ := Statement.indented_blockLines (level + 1) thenBody line hl
        exact ⟨l, text, Nat.le_of_succ_le hlevel, rfl⟩
      · rcases List.mem_cons.1 hl with rfl | hl
        · exact ⟨level, _, Nat.le_refl _, rfl⟩
        · rcases List.mem_append.1 hl with hl | hl
          · obtain ⟨l, text, hlevel, rfl⟩ :=
              Statement.indented_blockLines (level + 1) elseBody line hl
            exact ⟨l, text, Nat.le_of_succ_le hlevel, rfl⟩
          · exact ⟨level, _, Nat.le_refl _, List.mem_singleton.1 hl⟩

/-- The lines of a block are indented at least as far as the block. -/
theorem Statement.indented_blockLines (level : Nat) :
    ∀ body : List Statement, ∀ line ∈ Statement.blockLines level body,
      ∃ l text, level ≤ l ∧ line = lineAt l text
  | [] => fun _ hl => by cases hl
  | s :: rest => fun line hl => by
    rcases List.mem_append.1 hl with hl | hl
    · exact Statement.indented_lines level s line hl
    · exact Statement.indented_blockLines level rest line hl

end

theorem not_isTestCall_lineAt {level : Nat} {text : String} (h : 2 ≤ level) :
    isTestCall (lineAt level text) = false := by
  obtain ⟨n, rfl⟩ := Nat.exists_eq_add_of_le h
  have hspaces : List.replicate (2 * (2 + n)) ' ' =
      ' ' :: ' ' :: ' ' :: List.replicate (2 * n + 1) ' ' := by
    rw [show 2 * (2 + n) = 2 * n + 1 + 1 + 1 + 1 by omega]
    rfl
  rw [isTestCall, toList_lineAt, toList_lineAt, hspaces]
  simp [List.isPrefixOf]

theorem filter_blockLines (body : List Statement) :
    (Statement.blockLines 2 body).filter isTestCall = [] := by
  rw [List.filter_eq_nil_iff]
  intro line hl
  obtain ⟨l, text, hlevel, rfl⟩ := Statement.indented_blockLines 2 body line hl
  rw [not_isTestCall_lineAt hlevel]
  exact Bool.false_ne_true

/-- Of the lines of a hook or a test, only the first may call a test. -/
theorem filter_callbackLines (head argument : String) (body : List Statement) :
    (callbackLines head argument body).filter isTestCall =
      [lineAt 1 (head ++ "async (\x7b " ++ argument ++ " \x7d) => \x7b")].filter isTestCall := by
  have hend : [lineAt 1 "\x7d);", ""].filter isTestCall = [] := by decide +kernel
  rw [callbackLines, ← List.singleton_append, List.filter_append, List.filter_append,
    filter_blockLines, hend, List.append_nil, List.append_nil]

theorem filter_hook (h : Hook) : h.lines.filter isTestCall = [] := by
  rw [Hook.lines, filter_callbackLines, List.filter_eq_nil_iff]
  intro line hl
  rw [List.mem_singleton.1 hl, isTestCall, toList_lineAt, toList_lineAt]
  simp [List.isPrefixOf]

def Test.callLine (t : Test) : String :=
  lineAt 1 (t.head ++ "async (\x7b " ++ "page" ++ " \x7d) => \x7b")

theorem Test.callsTest (t : Test) : CallsTest t.callLine t.name := by
  obtain ⟨details, hd⟩ : ∃ details, t.head = "test(" ++ quote t.name ++ ", " ++ details := ⟨_, rfl⟩
  refine ⟨details ++ ("async (\x7b " ++ ("page" ++ " \x7d) => \x7b")), ?_⟩
  rw [callLine, hd, String.append_assoc, String.append_assoc, String.append_assoc]

theorem isTestCall_of_callsTest {line name : String} (h : CallsTest line name) :
    isTestCall line = true := by
  obtain ⟨rest, rfl⟩ := h
  rw [isTestCall, List.isPrefixOf_iff_prefix, toList_lineAt, toList_lineAt]
  exact ⟨(quote name ++ ", " ++ rest).toList, by simp⟩

theorem filter_test (t : Test) : t.lines.filter isTestCall = [t.callLine] := by
  have hcall := isTestCall_of_callsTest t.callsTest
  exact (filter_callbackLines ..).trans (List.filter_cons_of_pos hcall)

/-- Behind a property's name stands a colon, so only in the name could a test be called. -/
theorem not_isTestCall_property {name rest : String} (h : '(' ∉ name.toList) :
    isTestCall (lineAt 1 (name ++ ": " ++ rest)) = false := by
  rw [isTestCall, toList_lineAt, toList_lineAt, String.toList_append, String.toList_append]
  revert h
  rcases name.toList with _ | ⟨a, _ | ⟨b, _ | ⟨c, _ | ⟨d, _ | ⟨e, l⟩⟩⟩⟩⟩
  all_goals simp +contextual [List.isPrefixOf]

theorem filter_method (m : Method) : m.lines.filter isTestCall = [] := by
  have hhead : ∀ text, isTestCall (lineAt 1 ("async " ++ text)) = false := by
    intro text
    rw [isTestCall, toList_lineAt, toList_lineAt]
    simp [List.isPrefixOf]
  have hend : [lineAt 1 "\x7d,"].filter isTestCall = [] := by decide +kernel
  unfold Method.lines
  dsimp only
  rw [String.append_assoc, String.append_assoc, String.append_assoc,
    List.filter_cons_of_neg (by rw [hhead]; exact Bool.false_ne_true), List.filter_append,
    filter_blockLines, hend, List.append_nil]

theorem filter_fixture {f : Fixture} (h : ∀ q ∈ f.properties, '(' ∉ q.1.toList) :
    f.lines.filter isTestCall = [] := by
  have hend : ["\x7d;", ""].filter isTestCall = [] := by decide +kernel
  rw [List.filter_eq_nil_iff, Fixture.lines]
  intro line hl
  rcases List.mem_cons.1 hl with rfl | hl
  · rw [isTestCall, toList_lineAt]
    simp [List.isPrefixOf]
  · rcases List.mem_append.1 hl with hl | hl
    · rcases List.mem_append.1 hl with hl | hl
      · obtain ⟨⟨name, value⟩, hq, rfl⟩ := List.mem_map.1 hl
        dsimp only
        rw [String.append_assoc, not_isTestCall_property (h _ hq)]
        exact Bool.false_ne_true
      · obtain ⟨m, -, hm⟩ := List.mem_flatMap.1 hl
        exact List.filter_eq_nil_iff.1 (filter_method m) line hm
    · exact List.filter_eq_nil_iff.1 hend line hl

theorem filter_header (f : File) : f.header.filter isTestCall = [] := by
  have hheader : ∀ usesData, (File.header ⟨usesData, [], []⟩).filter isTestCall = [] := by
    decide +kernel
  exact hheader f.usesData

/-- Tests are called in suites only, unless the name of a property looks like a call. -/
theorem File.filter_lines {f : File}
    (h : ∀ x ∈ f.fixtures, ∀ q ∈ x.properties, '(' ∉ q.1.toList) :
    f.lines.filter isTestCall = (f.suites.flatMap Suite.lines).filter isTestCall := by
  have hfixtures : (f.fixtures.flatMap Fixture.lines).filter isTestCall = [] := by
    rw [List.filter_flatMap, List.flatMap_eq_nil_iff]
    exact fun x hx => filter_fixture (h x hx)
  rw [File.lines, List.filter_append, List.filter_append, filter_header, hfixtures,
    List.nil_append, List.nil_append]

end Code

/-- In the lines of a suite the tests are called one after the other. -/
theorem FeatureBlock.filter_lines (x : FeatureBlock) :
    x.lines.filter Code.isTestCall = x.tests.map fun t => t.1.callLine := by
  have hhead : Code.isTestCall ("test.describe(" ++ Code.quote x.feature.name ++ ", () => \x7b") =
      false := by
    rw [Code.isTestCall, Code.toList_lineAt]
    simp [List.isPrefixOf]
  have hend : ["\x7d);", ""].filter Code.isTestCall = [] := by decide +kernel
  have hhooks : (x.hooks.flatMap Code.Hook.lines).filter Code.isTestCall = [] := by
    simp [List.filter_flatMap, Code.filter_hook]
  have htests : (x.scenarios.flatMap fun y => y.2.flatMap fun t => t.1.lines).filter
      Code.isTestCall = x.tests.map fun t => t.1.callLine := by
    simp only [FeatureBlock.tests, List.filter_flatMap, Code.filter_test, List.map_eq_flatMap,
      List.flatMap_assoc]
  rw [FeatureBlock.lines, List.filter_cons_of_neg (by simp [hhead]), List.filter_append,
    List.filter_append, hhooks, htests, hend, List.nil_append, List.append_nil]

/-! ## Files -/

/-- The text of a file with the given objects and blocks. -/
def fileCode (usesData : Bool) (fixtures : List Code.Fixture) (blocks : List FeatureBlock) :
    String :=
  String.join ((Code.File.header ⟨usesData, fixtures, []⟩ ++ fixtures.flatMap Code.Fixture.lines ++
    blocks.flatMap FeatureBlock.lines).map (· ++ "\n"))

theorem flatMap_suite (blocks : List FeatureBlock) :
    (blocks.map FeatureBlock.suite).flatMap Code.Suite.lines =
      blocks.flatMap FeatureBlock.lines := by
  simp only [List.flatMap_map, FeatureBlock.lines_suite]

theorem text_eq_fileCode (usesData : Bool) (fixtures : List Code.Fixture)
    (blocks : List FeatureBlock) :
    Code.File.text ⟨usesData, fixtures, blocks.map FeatureBlock.suite⟩ =
      fileCode usesData fixtures blocks := by
  unfold Code.File.text Code.File.lines fileCode
  dsimp only
  rw [flatMap_suite]
  rfl

theorem calls_blocks {all : Project} {cs : List Combination} {blocks : List FeatureBlock}
    (h : ∀ x ∈ blocks, x.Made all cs) :
    List.Forall₂ (fun line (c : TestCase) => Code.CallsTest line c.name)
      (((blocks.map FeatureBlock.suite).flatMap Code.Suite.lines).filter Code.isTestCall)
      (blocks.flatMap fun x => x.tests.map (·.2)) := by
  have hnames : ∀ x ∈ blocks, ∀ t ∈ x.tests, t.1.name = t.2.name := by
    intro x hx t ht
    obtain ⟨y, hy, ht⟩ := List.mem_flatMap.1 ht
    exact ((h x hx).cases hy).2 t ht
  rw [flatMap_suite, List.filter_flatMap]
  simp only [FeatureBlock.filter_lines, ← List.map_flatMap, List.forall₂_map_left_iff,
    List.forall₂_map_right_iff, List.forall₂_same, List.mem_flatMap]
  rintro t ⟨x, hx, ht⟩
  rw [← hnames x hx t ht]
  exact t.1.callsTest

/-- A file consists of the blocks of what was chosen. -/
theorem generate_blocks {context : Project} {r : Request} {p : Program} {g : Generated}
    (h : generate context r p = .ok g) {blocks : List FeatureBlock}
    (hm : ∀ x ∈ blocks, x.Made (context.extend p) r.combinations)
    (hc : blocks.map FeatureBlock.chosen = selectedScenarios r.selection p.features) :
    g.file.suites = blocks.map FeatureBlock.suite ∧
      g.code = fileCode g.file.usesData g.file.fixtures blocks ∧
      g.cases = blocks.flatMap fun x => x.tests.map (·.2) := by
  obtain ⟨_, _, suites, -, -, hsuites, -, hfile, hcases⟩ := generate_cases h
  rw [← hc, FeatureBlock.suites_of_made hm] at hsuites
  cases hsuites
  rw [List.map_map] at hfile
  refine ⟨hfile, ?_, by rw [hcases, List.flatMap_map]⟩
  have htext : g.file = ⟨g.file.usesData, g.file.fixtures, blocks.map FeatureBlock.suite⟩ :=
    congrArg (Code.File.mk g.file.usesData g.file.fixtures) hfile
  rw [Generated.code, htext]
  exact text_eq_fileCode _ _ _

/-- The scenarios that are chosen, in the order of the script. -/
theorem placed_selectedScenarios (selection : Option Selection) (features : List Feature) :
    ((selectedScenarios selection features).flatMap fun c => c.2.map fun s => (c.1, s)) =
      (features.flatMap fun f => f.scenarios.map fun s => (f, s)).filter
        fun x => selection.all (·.matches_ x.1 x.2) := by
  have hempty : ∀ cs : List (Feature × List Scenario),
      ((cs.filter (!·.2.isEmpty)).flatMap fun c => c.2.map fun s => (c.1, s)) =
        cs.flatMap fun c => c.2.map fun s => (c.1, s) := by
    intro cs
    induction cs with
    | nil => rfl
    | cons c cs ih =>
      obtain ⟨f, scenarios⟩ := c
      cases scenarios <;> simp [ih]
  rw [selectedScenarios, hempty, List.flatMap_map, List.filter_flatMap]
  refine List.flatMap_congr fun f _ => ?_
  rw [List.filter_map]
  rfl

section
variable {context : Project} {r : Request} {p : Program} {g : Generated}
  (h : generate context r p = .ok g)
include h

theorem account_placed :
    g.total = p.placedScenarios.length ∧
    g.selected =
      (p.placedScenarios.filter fun x => r.selection.all (·.matches_ x.1 x.2)).length ∧
    g.cases = (p.placedScenarios.filter fun x => r.selection.all (·.matches_ x.1 x.2)).flatMap
      fun x => scenarioCases r.combinations x.1 x.2 := by
  obtain ⟨-, htotal, hselected⟩ := generate_account h
  have hplaced := placed_selectedScenarios r.selection p.features
  unfold Program.placedScenarios
  rw [← hplaced]
  refine ⟨?_, ?_, ?_⟩
  · simp [htotal, List.length_flatMap]
  · simp [hselected, List.length_flatMap]
  · simp [cases_generate h, List.flatMap_assoc, List.flatMap_map]

end

/-- How the file for a selection comes from the file for all scenarios of a program. -/
structure Restricts (all : Project) (p : Program) (cs : List Combination) (selection : Selection)
    (whole part : Generated) : Prop where
  total : whole.total = p.placedScenarios.length ∧ part.total = p.placedScenarios.length
  selected : part.selected = (p.placedScenarios.filter fun x => selection.matches_ x.1 x.2).length
  /-- A scenario has one case for each combination, or one if there are none. -/
  combinations : ∀ f s, (scenarioCases cs f s).map (·.combination) =
    if cs = [] then [none] else (labels cs).map some
  cases : whole.cases = (p.placedScenarios.flatMap fun x => scenarioCases cs x.1 x.2) ∧
    part.cases = (p.placedScenarios.filter fun x => selection.matches_ x.1 x.2).flatMap
      fun x => scenarioCases cs x.1 x.2
  /-- Behind the imports, the tests of scenarios that are not selected are left out, and so are
      features without selected scenarios. -/
  code : ∃ fixtures blocks, (∀ x ∈ blocks, x.Made all cs) ∧
    blocks.map FeatureBlock.chosen =
      ((p.features.filter fun f => !f.scenarios.isEmpty).map fun f => (f, f.scenarios)) ∧
    whole.code = fileCode whole.file.usesData fixtures blocks ∧
    part.code = fileCode part.file.usesData fixtures
      (blocks.filterMap (·.keep? selection.matches_))
  imports : part.file.usesData = true ↔ part.file.AsksData
  /-- The suites call the tests of the cases in order. Nothing else in the file calls a test, unless
      the name of a property looks like a call. -/
  calls : List.Forall₂ (fun line c => Code.CallsTest line c.name)
      ((part.file.suites.flatMap Code.Suite.lines).filter Code.isTestCall) part.cases ∧
    ((∀ x ∈ part.file.fixtures, ∀ q ∈ x.properties, '(' ∉ q.1.toList) →
      part.file.lines.filter Code.isTestCall =
        (part.file.suites.flatMap Code.Suite.lines).filter Code.isTestCall)

theorem combination_scenarioCases (cs : List Combination) (f : Feature) (s : Scenario) :
    (scenarioCases cs f s).map (·.combination) =
      if cs = [] then [none] else (labels cs).map some := by
  by_cases hcs : cs = []
  · subst hcs
    rfl
  · simp [scenarioCases, variants, labels, hcs]

/-- **Selections**: if code is generated for a program, then it is for every selection of its
    scenarios, and the file for the selection is the file for all scenarios with nothing but the
    other scenarios left out. -/
theorem restricts_generate (context : Project) (p : Program) (cs : List Combination)
    (selection : Selection) (whole : Generated) (h : generate context ⟨none, cs⟩ p = .ok whole) :
    ∃ part, generate context ⟨some selection, cs⟩ p = .ok part ∧
      Restricts (context.extend p) p cs selection whole part := by
  obtain ⟨pageObjects, libraryObjects, suites, hpages, hlibraries, hsuites, hfixtures, -, -⟩ :=
    generate_cases h
  obtain ⟨blocks, hmade, hchosen⟩ := FeatureBlock.exists_blocks hsuites
  -- what is kept of the blocks is what is generated for the selection
  have hmade' : ∀ x ∈ blocks.filterMap (·.keep? selection.matches_),
      x.Made (context.extend p) cs := by
    intro x hx
    obtain ⟨y, hy, hk⟩ := List.mem_filterMap.1 hx
    exact (hmade y hy).of_keep? hk
  have hchosen' : (blocks.filterMap (·.keep? selection.matches_)).map FeatureBlock.chosen =
      selectedScenarios (some selection) p.features := by
    rw [chosen_filterMap, hchosen, selectedScenarios_some]
  have hsuites' := FeatureBlock.suites_of_made hmade'
  rw [hchosen'] at hsuites'
  obtain ⟨part, hpart⟩ : ∃ part, generate context ⟨some selection, cs⟩ p = .ok part :=
    ⟨_, bind_eq_ok.2 ⟨_, hpages, bind_eq_ok.2 ⟨_, hlibraries, bind_eq_ok.2 ⟨_, hsuites', rfl⟩⟩⟩⟩
  have hsame : part.file.fixtures = whole.file.fixtures := by
    obtain ⟨_, _, _, hpages', hlibraries', -, hfixtures', -, -⟩ := generate_cases hpart
    cases hpages.symm.trans hpages'
    cases hlibraries.symm.trans hlibraries'
    rw [hfixtures, hfixtures']
  obtain ⟨-, hcode, -⟩ := generate_blocks h hmade hchosen
  obtain ⟨hfile', hcode', hcases'⟩ := generate_blocks hpart hmade' hchosen'
  obtain ⟨htotal, -, hwhole⟩ := account_placed h
  obtain ⟨htotal', hselected, hpartCases⟩ := account_placed hpart
  refine ⟨part, hpart, ⟨htotal, htotal'⟩, hselected, combination_scenarioCases cs,
    ⟨by simpa using hwhole, hpartCases⟩, ⟨whole.file.fixtures, blocks, hmade, ?_, hcode, ?_⟩,
    usesData_iff hpart, ?_, Code.File.filter_lines⟩
  · rw [hchosen, selectedScenarios_none]
  · rw [← hsame]
    exact hcode'
  · rw [hfile', hcases']
    exact calls_blocks hmade'

/-- A program whose first feature loads data for its tests. -/
def stockAndShop : Program :=
  (parseText "FEATURE Stock \x7b BEFORE ALL \x7b LOAD items FROM Items \x7d
    SCENARIO \"counts\" \x7b REFRESH \x7d \x7d
    FEATURE Shop \x7b SCENARIO \"pays\" \x7b REFRESH \x7d
    SCENARIO \"returns\" \x7b REFRESH \x7d \x7d").program

def currencies : List Combination :=
  [⟨some "EUR", [("currency", .text "EUR")]⟩, ⟨some "USD", [("currency", .text "USD")]⟩]

-- without the first feature no data is imported
theorem restricts_generate_pays : ∃ whole part,
    generate .empty ⟨none, currencies⟩ stockAndShop = .ok whole ∧
    generate .empty ⟨some (Selection.none.withScenario "pays"), currencies⟩ stockAndShop =
      .ok part ∧
    Restricts (Project.empty.extend stockAndShop) stockAndShop currencies
      (Selection.none.withScenario "pays") whole part ∧
    whole.cases.length = 6 ∧ whole.file.usesData = true ∧
    part.cases.map (·.name) = ["pays [EUR]", "pays [USD]"] ∧ part.file.usesData = false := by
  have hrun : (generate .empty ⟨none, currencies⟩ stockAndShop).toOption.any
      (fun g => g.cases.length == 6 && g.file.usesData) = true ∧
      (generate .empty ⟨some (Selection.none.withScenario "pays"), currencies⟩
        stockAndShop).toOption.any (fun g =>
          g.cases.map (·.name) == ["pays [EUR]", "pays [USD]"] && !g.file.usesData) = true := by
    decide +kernel
  obtain ⟨whole, hw, hwhole⟩ := (Option.any_eq_true _ _).1 hrun.1
  obtain ⟨part, hp, hpart⟩ := (Option.any_eq_true _ _).1 hrun.2
  have hok := toOption_eq_some.1 hw
  obtain ⟨_, hp', hrestricts⟩ := restricts_generate .empty stockAndShop currencies
    (Selection.none.withScenario "pays") whole hok
  cases (toOption_eq_some.1 hp).symm.trans hp'
  simp only [Bool.and_eq_true, beq_iff_eq, Bool.not_eq_true'] at hwhole hpart
  exact ⟨whole, part, hok, hp', hrestricts, hwhole.1, hwhole.2, hpart.1, hpart.2⟩

end UiScenario
