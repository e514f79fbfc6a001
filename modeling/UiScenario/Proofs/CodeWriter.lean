import UiScenario.Proofs.Selecting
import UiScenario.Proofs.Splitting

/-!
Files as they are written, line by line. A `Writer` knows how many blocks are open: it indents each
line by that level, goes one level in behind a line that opens a block, and one level out in front
of a line that closes it. At level zero it would stay there, so one closing line too many would go
unnoticed. This never happens: the calls for a file close what they open (`File.balanced_calls`).
-/

namespace UiScenario.Code

/-! ## Calls -/

inductive Call where
  | line (text : String)
  /-- An empty line, unless there is one already. -/
  | blank
  | opening (head : String)
  | closing (foot : String)
  /-- A line between two blocks. -/
  | reopening (text : String)
deriving DecidableEq

namespace Call

/-- Whether a call goes out of a block, in front of its line. -/
def leaves : Call → Bool
  | closing _ | reopening _ => true
  | _ => false

/-- Whether a call goes into a block, behind its line. -/
def enters : Call → Bool
  | opening _ | reopening _ => true
  | _ => false

def text : Call → String
  | line t | opening t | closing t | reopening t => t
  | blank => ""

/-- The level of the line of a call that is made at a level. -/
def place (c : Call) (level : Nat) : Nat :=
  if c.leaves then level - 1 else level

def next (c : Call) (level : Nat) : Nat :=
  if c.enters then c.place level + 1 else c.place level

/-- The line of a call that is made at a level. An empty one is not indented. -/
def lineFrom (c : Call) (level : Nat) : String :=
  if c.text = "" then "" else lineAt (c.place level) c.text

/-- A call that goes out of open blocks only leaves as many open as it should. -/
theorem next_add {c : Call} {level : Nat} (h : c.leaves = true → 1 ≤ level) :
    c.next level + (if c.leaves then 1 else 0) = level + (if c.enters then 1 else 0) := by
  unfold next place
  by_cases hl : c.leaves = true
  · have hopen := h hl
    simp only [hl, if_true]
    split <;> omega
  · simp only [hl, if_false, Bool.false_eq_true]
    split <;> rfl

theorem newline_lineFrom {c : Call} {level : Nat} :
    '\n' ∈ (c.lineFrom level).toList ↔ '\n' ∈ c.text.toList := by
  unfold lineFrom
  split
  · next he => rw [he]
  · simp [toList_lineAt]

end Call

/-- What is written so far, and how many blocks are open. -/
structure Writer where
  output : String
  level : Nat

namespace Writer

def start : Writer :=
  ⟨"", 0⟩

def call (w : Writer) (c : Call) : Writer where
  output :=
    if c = .blank ∧ (w.output = "" ∨ "\n\n".toList <:+ w.output.toList) then w.output
    else w.output ++ c.lineFrom w.level ++ "\n"
  level := c.next w.level

def run (w : Writer) (calls : List Call) : Writer :=
  calls.foldl call w

end Writer

/-! ## Calls for files -/

/-- The calls for a block. -/
def blockOf (head : String) (calls : List Call) (foot : String) : List Call :=
  .opening head :: (calls ++ [.closing foot])

namespace Statement

mutual

def calls : Statement → List Call
  | eval e => [.line (e.print ++ ";")]
  | declare names => [.line ("let " ++ ", ".intercalate names ++ ";")]
  | let_ name e => [.line ("let " ++ name ++ " = " ++ e.print ++ ";")]
  | const name e => [.line ("const " ++ name ++ " = " ++ e.print ++ ";")]
  | assign name e => [.line (name ++ " = " ++ e.print ++ ";")]
  | branch condition thenBody =>
    blockOf ("if (" ++ condition.print ++ ") \x7b") (blockCalls thenBody) "\x7d"
  | choice condition thenBody elseBody =>
    blockOf ("if (" ++ condition.print ++ ") \x7b")
      (blockCalls thenBody ++ .reopening "\x7d else \x7b" :: blockCalls elseBody) "\x7d"
  | count counter bound body => blockOf (countHead counter bound) (blockCalls body) "\x7d"
  | forOf item collection body =>
    blockOf ("for (" ++ item ++ " of " ++ collection ++ ") \x7b") (blockCalls body) "\x7d"

def blockCalls : List Statement → List Call
  | [] => []
  | s :: rest => calls s ++ blockCalls rest

end

end Statement

def Method.head (m : Method) : String :=
  let parameters := "page: Page" :: m.parameters.map (· ++ ": any")
  "async " ++ m.name ++ "(" ++ ", ".intercalate parameters ++ ") \x7b"

def Method.calls (m : Method) : List Call :=
  blockOf m.head (Statement.blockCalls m.body) "\x7d,"

def propertyText (x : String × Expr) : String :=
  x.1 ++ ": " ++ x.2.print ++ ","

def Fixture.calls (f : Fixture) : List Call :=
  blockOf ("const " ++ f.name ++ " = \x7b")
    (f.properties.map (.line <| propertyText ·) ++ f.methods.flatMap Method.calls) "\x7d;" ++
  [.blank]

/-- The calls for a function as the last argument of another. -/
def callbackCalls (head argument : String) (body : List Statement) : List Call :=
  blockOf (head ++ "async (\x7b " ++ argument ++ " \x7d) => \x7b") (Statement.blockCalls body)
    "\x7d);" ++ [.blank]

def Hook.calls (h : Hook) : List Call :=
  callbackCalls ("test." ++ h.event.name ++ "(") h.event.argument h.body

def Test.calls (t : Test) : List Call :=
  callbackCalls t.head "page" t.body

def Suite.calls (s : Suite) : List Call :=
  blockOf ("test.describe(" ++ quote s.name ++ ", () => \x7b")
    (s.hooks.flatMap Hook.calls ++ s.tests.flatMap Test.calls) "\x7d);" ++ [.blank]

/-- The calls for what stands in a file behind its first lines. -/
def File.calls (f : File) : List Call :=
  f.fixtures.flatMap Fixture.calls ++ f.suites.flatMap Suite.calls

/-! ## Writing all lines -/

theorem linesText_cons (l : String) (ls : List String) :
    linesText (l :: ls) = l ++ "\n" ++ linesText ls :=
  String.join_cons ..

/-- Calls that lead from one writer to another, where each goes out of open blocks only and writes
    its line. -/
inductive Writes : Writer → List Call → List String → Writer → Prop
  | nil {w : Writer} : Writes w [] [] w
  | cons {w v : Writer} {c : Call} {rest : List Call} {ls : List String}
      (hopen : c.leaves = true → 1 ≤ w.level)
      (hout : (w.call c).output = w.output ++ c.lineFrom w.level ++ "\n")
      (hrest : Writes (w.call c) rest ls v) :
      Writes w (c :: rest) (c.lineFrom w.level :: ls) v

namespace Writes

variable {u v w : Writer} {xs ys : List Call} {ls ls' : List String}

theorem append (hx : Writes w xs ls v) (hy : Writes v ys ls' u) :
    Writes w (xs ++ ys) (ls ++ ls') u := by
  induction hx with
  | nil => exact hy
  | cons hopen hout _ ih => exact .cons hopen hout (ih hy)

theorem run_eq (h : Writes w xs ls v) : w.run xs = v := by
  induction h with
  | nil => rfl
  | cons _ _ _ ih => exact ih

theorem output_eq (h : Writes w xs ls v) : v.output = w.output ++ linesText ls := by
  induction h with
  | nil => exact String.append_empty.symm
  | cons _ hout _ ih => simp only [ih, hout, linesText_cons, String.append_assoc]

theorem newline_iff (h : Writes w xs ls v) :
    (∀ l ∈ ls, '\n' ∉ l.toList) ↔ ∀ c ∈ xs, '\n' ∉ c.text.toList := by
  induction h with
  | nil => simp
  | cons _ _ _ ih => rw [List.forall_mem_cons, List.forall_mem_cons, ih, Call.newline_lineFrom]

/-- At each call the level counts the open blocks, one of them is open where the call goes out of
    one, and the call writes its line. -/
theorem at_call (h : Writes w xs ls v) {before after : List Call} {c : Call}
    (hc : xs = before ++ c :: after) :
    (c.leaves = true → 1 ≤ (w.run before).level) ∧
    (w.run before).level + before.countP Call.leaves = w.level + before.countP Call.enters ∧
    ((w.run before).call c).output =
      (w.run before).output ++ c.lineFrom (w.run before).level ++ "\n" := by
  induction h generalizing before with
  | nil => simp at hc
  | @cons w _ x _ _ hopen hout _ ih =>
    cases before with
    | nil =>
      obtain ⟨rfl, -⟩ := List.cons_eq_cons.1 hc
      exact ⟨hopen, rfl, hout⟩
    | cons y before =>
      obtain ⟨rfl, hrest⟩ := List.cons_eq_cons.1 hc
      obtain ⟨hleaves, hcount, hline⟩ := ih hrest
      refine ⟨hleaves, ?_, hline⟩
      have hnext : (w.call x).level + _ = _ := Call.next_add hopen
      have hrun : w.run (x :: before) = (w.call x).run before := rfl
      rw [List.countP_cons, List.countP_cons, hrun]
      omega

end Writes

/-! ## Balanced calls -/

/-- Calls that lead from one level to another and write the given lines. -/
def Leads (a b : Nat) (calls : List Call) (lines : List String) : Prop :=
  ∀ w : Writer, w.level = a → ∃ v : Writer, v.level = b ∧ Writes w calls lines v

/-- Calls that lead back to their level, and write the given lines. -/
abbrev Balanced (level : Nat) (calls : List Call) (lines : List String) : Prop :=
  Leads level level calls lines

namespace Leads

variable {a b c : Nat} {xs ys : List Call} {ls ls' : List String} {α : Type}
  {head foot : String}

theorem nil : Balanced a [] [] := fun w hw => ⟨w, hw, .nil⟩

theorem append (hx : Leads a b xs ls) (hy : Leads b c ys ls') :
    Leads a c (xs ++ ys) (ls ++ ls') := by
  intro w hw
  obtain ⟨v, hv, hx⟩ := hx w hw
  obtain ⟨u, hu, hy⟩ := hy v hv
  exact ⟨u, hu, hx.append hy⟩

theorem level_run (h : Leads a b xs ls) {w : Writer} (hw : w.level = a) :
    (w.run xs).level = b := by
  obtain ⟨v, hv, h⟩ := h w hw
  rw [h.run_eq, hv]

theorem call {x : Call} (hx : x.text ≠ "") (hopen : x.leaves = true → 1 ≤ a) :
    Leads a (x.next a) [x] [lineAt (x.place a) x.text] := by
  rintro w rfl
  have hblank : x ≠ .blank := by
    rintro rfl
    exact hx rfl
  have hline : x.lineFrom w.level = lineAt (x.place w.level) x.text := if_neg hx
  exact ⟨w.call x, rfl, hline ▸ .cons hopen (if_neg fun h => hblank h.1) .nil⟩

theorem line {text : String} (ht : text ≠ "") : Balanced a [.line text] [lineAt a text] :=
  call (x := .line text) ht Bool.noConfusion

theorem flatMap {calls : α → List Call} {lines : α → List String}
    (h : ∀ x, Balanced a (calls x) (lines x)) (items : List α) :
    Balanced a (items.flatMap calls) (items.flatMap lines) := by
  induction items with
  | nil => exact nil
  | cons x rest ih => exact (h x).append ih

theorem block (hhead : head ≠ "") (h : Balanced (a + 1) xs ls) (hfoot : foot ≠ "") :
    Balanced a (blockOf head xs foot) (lineAt a head :: (ls ++ [lineAt a foot])) :=
  (call (x := .opening head) hhead Bool.noConfusion).append
    (h.append (call (x := .closing foot) hfoot fun _ => Nat.le_add_left ..))

/-- A block that ends with a semicolon, and an empty line behind it. -/
theorem blockBlank (hhead : head ≠ "") (h : Balanced (a + 1) xs ls)
    (hfoot : ∃ s, foot = s ++ ";") :
    Balanced a (blockOf head xs foot ++ [.blank])
      (lineAt a head :: (ls ++ [lineAt a foot, ""])) := by
  intro w hw
  obtain ⟨s, rfl⟩ := hfoot
  have hne : s ++ ";" ≠ "" := by simp
  obtain ⟨v, hv, hblock⟩ := block hhead h hne w hw
  have hwrites : ¬(v.output = "" ∨ "\n\n".toList <:+ v.output.toList) := by
    have hout : v.output.toList = (w.output ++ linesText (lineAt a head :: ls) ++
        lineAt a s).toList ++ [';', '\n'] := by
      rw [hblock.output_eq]
      simp [linesText, lineAt]
    rw [← String.toList_inj, hout]
    rintro (hempty | ⟨out, hends⟩)
    · simp at hempty
    · have hchars := (List.append_inj' hends rfl).2
      simp at hchars
  have hout : (v.call .blank).output = v.output ++ Call.blank.lineFrom v.level ++ "\n" :=
    if_neg fun h => hwrites h.2
  have hblank : Writes v [.blank] [""] (v.call .blank) := .cons Bool.noConfusion hout .nil
  exact ⟨v.call .blank, hv, by simpa using hblock.append hblank⟩

end Leads

/-! ## The calls of a file are balanced -/

mutual

theorem Statement.balanced_calls (level : Nat) :
    ∀ s : Statement, Balanced level s.calls (s.lines level)
  | .eval _ | .declare _ | .let_ _ _ | .const _ _ | .assign _ _ => .line (by simp)
  | .branch _ body | .forOf _ _ body =>
    .block (by simp) (Statement.balanced_blockCalls (level + 1) body) (by simp)
  | .count _ _ body =>
    .block (by unfold countHead; simp) (Statement.balanced_blockCalls (level + 1) body) (by simp)
  | .choice _ thenBody elseBody => by
    have hbetween : Leads (level + 1) (level + 1) [.reopening "\x7d else \x7b"]
        [lineAt level "\x7d else \x7b"] :=
      Leads.call (x := .reopening "\x7d else \x7b") (by simp [Call.text]) fun _ =>
        Nat.le_add_left ..
    have hbodies := (Statement.balanced_blockCalls (level + 1) thenBody).append
      (hbetween.append (Statement.balanced_blockCalls (level + 1) elseBody))
    simpa [lines, calls] using Leads.block (by simp) hbodies (by simp)

/-- The calls for statements, by their blocks. -/
theorem Statement.balanced_blockCalls (level : Nat) :
    ∀ body : List Statement, Balanced level (blockCalls body) (blockLines level body)
  | [] => .nil
  | s :: rest =>
    (Statement.balanced_calls level s).append (Statement.balanced_blockCalls level rest)

end

variable (level : Nat)

-- the lines at any level; those of the model are at the level where they stand in a file
def Method.linesAt (m : Method) : List String :=
  lineAt level m.head :: (Statement.blockLines (level + 1) m.body ++ [lineAt level "\x7d,"])

def Fixture.linesAt (f : Fixture) : List String :=
  lineAt level ("const " ++ f.name ++ " = \x7b") ::
    (f.properties.map (lineAt (level + 1) <| propertyText ·) ++
      f.methods.flatMap (Method.linesAt (level + 1)) ++ [lineAt level "\x7d;", ""])

def callbackLinesAt (head argument : String) (body : List Statement) : List String :=
  lineAt level (head ++ "async (\x7b " ++ argument ++ " \x7d) => \x7b") ::
    (Statement.blockLines (level + 1) body ++ [lineAt level "\x7d);", ""])

def Hook.linesAt (h : Hook) : List String :=
  callbackLinesAt level ("test." ++ h.event.name ++ "(") h.event.argument h.body

def Test.linesAt (t : Test) : List String :=
  callbackLinesAt level t.head "page" t.body

def Suite.linesAt (s : Suite) : List String :=
  lineAt level ("test.describe(" ++ quote s.name ++ ", () => \x7b") ::
    (s.hooks.flatMap (Hook.linesAt (level + 1)) ++ s.tests.flatMap (Test.linesAt (level + 1)) ++
      [lineAt level "\x7d);", ""])

theorem Method.balanced_calls (m : Method) : Balanced level m.calls (m.linesAt level) :=
  .block (by simp [Method.head]) (Statement.balanced_blockCalls _ _) (by simp)

theorem Fixture.balanced_calls (f : Fixture) : Balanced level f.calls (f.linesAt level) := by
  have hne : ∀ x, propertyText x ≠ "" := by simp [propertyText]
  have hproperties := Leads.flatMap (fun x => .line (a := level + 1) (hne x)) f.properties
  have hmethods := Leads.flatMap (Method.balanced_calls (level + 1)) f.methods
  simp only [← List.map_eq_flatMap] at hproperties
  exact .blockBlank (by simp) (hproperties.append hmethods) ⟨"\x7d", rfl⟩

theorem balanced_callbackCalls (head argument : String) (body : List Statement) :
    Balanced level (callbackCalls head argument body)
      (callbackLinesAt level head argument body) :=
  .blockBlank (by simp) (Statement.balanced_blockCalls _ _) ⟨"\x7d)", rfl⟩

theorem Hook.balanced_calls (h : Hook) : Balanced level h.calls (h.linesAt level) :=
  balanced_callbackCalls level _ _ _

theorem Test.balanced_calls (t : Test) : Balanced level t.calls (t.linesAt level) :=
  balanced_callbackCalls level _ _ _

theorem Suite.balanced_calls (s : Suite) : Balanced level s.calls (s.linesAt level) := by
  have hhooks := Leads.flatMap (Hook.balanced_calls (level + 1)) s.hooks
  have htests := Leads.flatMap (Test.balanced_calls (level + 1)) s.tests
  exact .blockBlank (by simp) (hhooks.append htests) ⟨"\x7d)", rfl⟩

/-- The lines of a file behind its first lines are written by balanced calls. -/
theorem File.balanced_calls (f : File) :
    Balanced 0 f.calls (f.fixtures.flatMap Fixture.lines ++ f.suites.flatMap Suite.lines) := by
  have hzero : ∀ text, lineAt 0 text = text := by simp [lineAt]
  have hfixture : Fixture.linesAt 0 = Fixture.lines := by
    funext f
    simp only [Fixture.linesAt, hzero]
    rfl
  have hsuite : Suite.linesAt 0 = Suite.lines := by
    funext s
    simp only [Suite.linesAt, hzero]
    rfl
  rw [← hfixture, ← hsuite]
  exact (Leads.flatMap (Fixture.balanced_calls 0) _).append
    (Leads.flatMap (Suite.balanced_calls 0) _)

/-! ## Lines of texts -/

/-- The lines of a text. What follows the last line feed is a line, too. -/
def physicalLines (s : String) : List String :=
  (s.toList.splitOn '\n').map String.ofList

theorem physicalLines_of_oneLine {s : String} (h : '\n' ∉ s.toList) : physicalLines s = [s] := by
  rw [physicalLines, List.splitOn_eq_singleton h]
  simp

/-- Joined lines are split where they were joined, and where they have line feeds. -/
theorem physicalLines_linesText (ls : List String) :
    physicalLines (linesText ls) = ls.flatMap physicalLines ++ [""] := by
  induction ls with
  | nil => rfl
  | cons l ls ih =>
    have hchars : (linesText (l :: ls)).toList = l.toList ++ '\n' :: (linesText ls).toList := by
      simp [linesText_cons]
    rw [List.flatMap_cons, List.append_assoc, ← ih, physicalLines, hchars,
      List.splitOn_append_cons_self, List.map_append]
    rfl

theorem newline_splitOn (cs : List Char) : ∀ piece ∈ cs.splitOn '\n', '\n' ∉ piece := by
  induction cs with
  | nil => simp
  | cons c cs ih =>
    rw [List.splitOn_cons_eq_if_modifyHead]
    split
    · simpa using ih
    · next hc =>
      cases hpieces : cs.splitOn '\n' with
      | nil => simp
      | cons piece rest =>
        rw [hpieces] at ih
        simpa [Ne.symm (by simpa using hc)] using ih

/-- Lines that are joined are the lines of their text exactly if none has a line feed. -/
theorem physicalLines_linesText_iff {ls : List String} :
    physicalLines (linesText ls) = ls ++ [""] ↔ ∀ l ∈ ls, '\n' ∉ l.toList := by
  rw [physicalLines_linesText, List.append_left_inj]
  constructor
  · intro h l hl
    rw [← h, List.mem_flatMap] at hl
    obtain ⟨_, -, hl⟩ := hl
    obtain ⟨piece, hpiece, rfl⟩ := List.mem_map.1 hl
    rw [String.toList_ofList]
    exact newline_splitOn _ piece hpiece
  · intro h
    have hlines : ls.flatMap physicalLines = ls.flatMap fun l => [l] :=
      List.flatMap_congr fun l hl => physicalLines_of_oneLine (h l hl)
    rw [hlines, List.flatMap_singleton']

theorem File.newline_header (f : File) : ∀ l ∈ f.header, '\n' ∉ l.toList := by
  unfold header
  split <;> simp

end Code

open Code (Writer Call Expr physicalLines)

/-! ## Line feeds -/

namespace Generate

/-- A check that an address or a title contains a text, and its name in code. -/
inductive Contains (value : String) : Assertion → String → Prop
  | url : Contains value (.url .contains (.ofPrimary (.text value))) "toHaveURL"
  | title : Contains value (.title true (.ofPrimary (.text value))) "toHaveTitle"

/-- The call for such a check. -/
def containsCall (value matcher : String) : Call :=
  let subject := Expr.call (.name "expect") [page]
  .line ((Expr.await (.invoke subject matcher [.containing value])).print ++ ";")

section
variable {value matcher : String} {a : Assertion} {line : Nat} {body : List Statement}
  {code : List Code.Statement} {c : Call}

theorem newline_containsCall (h : Contains value a matcher) :
    '\n' ∈ (containsCall value matcher).text.toList ↔ '\n' ∈ value.toList := by
  have hchars : '\n' ∈ Code.regexChars value.toList ↔ '\n' ∈ value.toList := by
    rw [Code.regexChars, List.mem_flatMap]
    constructor
    · rintro ⟨c, hc, h⟩
      split at h
      · simp only [List.mem_cons, Char.reduceEq, List.not_mem_nil, or_false, false_or] at h
        exact h ▸ hc
      · rw [List.mem_singleton.1 h]
        exact hc
    · intro h
      exact ⟨_, h, by decide⟩
  cases h <;> simp [containsCall, Call.text, Expr.print, Expr.invoke, Expr.printAll, page,
    Code.regexLiteral, hchars]

theorem mem_blockCalls_append {xs ys : List Code.Statement} :
    c ∈ Code.Statement.blockCalls (xs ++ ys) ↔
      c ∈ Code.Statement.blockCalls xs ∨ c ∈ Code.Statement.blockCalls ys := by
  induction xs with
  | nil => simp [Code.Statement.blockCalls]
  | cons x xs ih => simp [Code.Statement.blockCalls, ih, or_assoc]

theorem Lays.containsCall_mem {b : Setting} {depth : Nat} {p q : Progress}
    (h : Lays b depth body p code q) (ha : Contains value a matcher)
    (hs : .step line (.verify a) ∈ Statement.flattenAll body) :
    containsCall value matcher ∈ Code.Statement.blockCalls code := by
  induction h with
  | nil => cases hs
  | cons _ _ ih ihrest =>
    rw [Statement.flattenAll, List.mem_append] at hs
    rw [mem_blockCalls_append]
    exact hs.imp (fun hs => ih (by simpa [Statement.flattenAll] using hs)) ihrest
  | step h =>
    obtain ⟨rfl, rfl⟩ : _ = _ ∧ _ = _ := by simpa [Statement.flattenAll, Statement.flatten] using hs
    cases ha <;> cases h <;> exact List.mem_cons_self
  | branch _ _ ih | repeat_ _ ih | forEach _ ih =>
    have hs := ih (by simpa [Statement.flattenAll, Statement.flatten] using hs)
    simp [Code.Statement.blockCalls, Code.Statement.calls, Code.blockOf, hs]
  | choice _ _ _ ih ihelse =>
    simp only [Statement.flattenAll, Statement.flatten, List.append_nil, List.mem_cons,
      reduceCtorEq, List.mem_append, false_or] at hs
    rcases hs.imp ih ihelse with hs | hs <;>
      simp [Code.Statement.blockCalls, Code.Statement.calls, Code.blockOf, hs]

variable {all : Project} {r : Request} {p : Program} {x : List String × List Code.Statement}
  (ha : Contains value a matcher) (hs : .step line (.verify a) ∈ Statement.flattenAll body)

include ha hs in
theorem containsCall_mem_body {o : BodyOwner} {bound : List String}
    (h : Generate.body all o bound body = .ok code) :
    containsCall value matcher ∈ Code.Statement.blockCalls code := by
  obtain ⟨core, q, hcore, rfl⟩ := body_cases h
  exact mem_blockCalls_append.2 (.inr ((lays_statements body hcore).containsCall_mem ha hs))

include ha hs in
theorem containsCall_mem_of_writtenAs (h : WrittenAs all r p body x) :
    containsCall value matcher ∈ Code.Statement.blockCalls x.2 := by
  cases h with
  | page _ _ h | library _ _ h =>
    obtain ⟨code, hcode, ⟨⟩⟩ := bind_eq_ok.1 h
    exact containsCall_mem_body ha hs hcode
  | @hook _ k _ _ _ h =>
    obtain ⟨code, hcode, ⟨⟩⟩ := bind_eq_ok.1 h
    have hc := containsCall_mem_body ha hs hcode
    have hown : containsCall value matcher ∈ Code.Statement.blockCalls (withOwnPage code) :=
      List.mem_append_right _ (mem_blockCalls_append.2 (.inl hc))
    cases k.kind with
    | beforeAll | afterAll => exact hown
    | beforeEach | afterEach => exact hc
  | test _ _ h =>
    obtain ⟨code, hcode, ⟨⟩⟩ := bind_eq_ok.1 h
    exact mem_blockCalls_append.2 (.inr (containsCall_mem_body ha hs hcode))

theorem mem_calls_of_bodies {f : Code.File} (hx : x ∈ f.bodies)
    (hc : c ∈ Code.Statement.blockCalls x.2) : c ∈ f.calls := by
  have hblock : ∀ {head foot : String} {cs : List Call}, c ∈ cs → c ∈ Code.blockOf head cs foot :=
    fun h => List.mem_cons_of_mem _ (List.mem_append_left _ h)
  rcases Code.File.mem_bodies.1 hx with ⟨y, hy, m, hm, rfl⟩ | ⟨y, hy, hx⟩
  · refine List.mem_append_left _ (List.mem_flatMap.2 ⟨y, hy, List.mem_append_left _ (hblock ?_)⟩)
    exact List.mem_append_right _ (List.mem_flatMap.2 ⟨m, hm, hblock hc⟩)
  · refine List.mem_append_right _ (List.mem_flatMap.2 ⟨y, hy, List.mem_append_left _ (hblock ?_)⟩)
    rcases hx with ⟨k, hk, rfl⟩ | ⟨t, ht, rfl⟩
    · exact List.mem_append_left _ (List.mem_flatMap.2 ⟨k, hk, List.mem_append_left _ (hblock hc)⟩)
    · exact List.mem_append_right _ (List.mem_flatMap.2 ⟨t, ht, List.mem_append_left _ (hblock hc)⟩)

include ha hs in
/-- The check of a text, at any depth of what is written, has a call of its own. The call has a line
    feed if and only if the text has one. -/
theorem calls_of_contains {context : Project} {g : Generated} (h : generate context r p = .ok g)
    (hb : body ∈ writtenBodies (context.extend p) r p) :
    containsCall value matcher ∈ g.file.calls ∧
      ('\n' ∈ (containsCall value matcher).text.toList ↔ '\n' ∈ value.toList) := by
  obtain ⟨x, hx, hw⟩ := exists_of_writtenBodies h body hb
  exact ⟨mem_calls_of_bodies hx (containsCall_mem_of_writtenAs ha hs hw), newline_containsCall ha⟩

end

end Generate

/-! ## Generated files -/

/-- Generated blocks are balanced, and lines are indented by their blocks. The text of a file is
    what a writer gives that is called for line after line:

    * it starts and ends with no block open; at each call its level is the number of blocks that
      were entered and not left, a block is open wherever one is left, and the call writes its
      line, with two blanks for each block it is in (`Call.lineFrom`);
    * statements, methods, hooks, tests, objects and suites lead back to the level they start at;
    * these lines are the lines of the text if and only if none of them has a line feed. -/
theorem blocks_of_generated (g : Generated) :
    (g.code = Code.linesText g.file.header ++ (Writer.start.run g.file.calls).output ∧
      (Writer.start.run g.file.calls).level = 0) ∧
    (∀ before c after, g.file.calls = before ++ c :: after →
      (c.leaves = true → 1 ≤ (Writer.start.run before).level) ∧
      (Writer.start.run before).level + before.countP Call.leaves = before.countP Call.enters ∧
      ((Writer.start.run before).call c).output = (Writer.start.run before).output ++
        c.lineFrom (Writer.start.run before).level ++ "\n") ∧
    (∀ w : Writer, (∀ body, (w.run (Code.Statement.blockCalls body)).level = w.level) ∧
      (∀ m : Code.Method, (w.run m.calls).level = w.level) ∧
      (∀ k : Code.Hook, (w.run k.calls).level = w.level) ∧
      (∀ t : Code.Test, (w.run t.calls).level = w.level) ∧
      (∀ f : Code.Fixture, (w.run f.calls).level = w.level) ∧
      ∀ s : Code.Suite, (w.run s.calls).level = w.level) ∧
    (physicalLines g.code = g.file.lines ++ [""] ↔ ∀ c ∈ g.file.calls, '\n' ∉ c.text.toList) := by
  obtain ⟨v, hlevel, hwrites⟩ := g.file.balanced_calls .start rfl
  have hlines : g.file.lines = g.file.header ++ (g.file.fixtures.flatMap Code.Fixture.lines ++
      g.file.suites.flatMap Code.Suite.lines) := List.append_assoc ..
  have htext : g.code = Code.linesText g.file.lines := rfl
  refine ⟨⟨?_, ?_⟩, fun before c after hc => ?_,
    fun w => ⟨fun body => (Code.Statement.balanced_blockCalls _ body).level_run rfl,
      fun m => (m.balanced_calls _).level_run rfl, fun k => (k.balanced_calls _).level_run rfl,
      fun t => (t.balanced_calls _).level_run rfl, fun f => (f.balanced_calls _).level_run rfl,
      fun s => (s.balanced_calls _).level_run rfl⟩, ?_⟩
  · rw [htext, hlines, Code.linesText_append, hwrites.run_eq, hwrites.output_eq]
    exact congrArg _ String.empty_append.symm
  · rw [hwrites.run_eq, hlevel]
  · have hat := hwrites.at_call hc
    rwa [show Writer.start.level = 0 from rfl, Nat.zero_add] at hat
  · rw [htext, Code.physicalLines_linesText_iff, hlines, List.forall_mem_append,
      and_iff_right g.file.newline_header, hwrites.newline_iff]

/-- A script that looks for a title with a line feed. -/
def brokenTitle : String :=
  "FEATURE F \x7b SCENARIO \"s\" \x7b VERIFY TITLE CONTAINS \"a\\nb\" \x7d \x7d"

-- the second part of the title is on a line of its own, which no call indents
theorem blocks_of_generated_brokenTitle : ∃ g,
    generate (parseProject []) ⟨none, []⟩ (parseText brokenTitle).program = .ok g ∧
    (Writer.start.run g.file.calls).level = 0 ∧
    physicalLines g.code ≠ g.file.lines ++ [""] ∧ "b/);" ∈ physicalLines g.code := by
  have hrun : (generate (parseProject []) ⟨none, []⟩ (parseText brokenTitle).program).toOption.any
      (fun g => decide ("b/);" ∈ g.file.lines.flatMap physicalLines) &&
        g.file.calls.any (·.text.toList.contains '\n')) = true := by
    decide +kernel
  obtain ⟨g, hg, hbroken⟩ := (Option.any_eq_true _ _).1 hrun
  simp only [Bool.and_eq_true, decide_eq_true_eq, List.any_eq_true, List.contains_iff_mem]
    at hbroken
  obtain ⟨hline, c, hc, hnewline⟩ := hbroken
  obtain ⟨⟨-, hlevel⟩, -, -, hiff⟩ := blocks_of_generated g
  have hcode : physicalLines g.code = _ := Code.physicalLines_linesText g.file.lines
  refine ⟨g, toOption_eq_some.1 hg, hlevel, fun heq => hiff.1 heq c hc hnewline, ?_⟩
  exact hcode ▸ List.mem_append_left _ hline

end UiScenario
