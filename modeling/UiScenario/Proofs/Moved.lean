import UiScenario.Grammar.Program
import UiScenario.Proofs.Lines

/-!
Programs and faults of a script that stands some lines further down: only the lines they carry
change.
-/

namespace UiScenario

variable (n : Nat)

def SyntaxError.down (e : SyntaxError) : SyntaxError :=
  { e with pos := e.pos.down n }

namespace Statement

mutual

def down : Statement → Statement
  | step line s => step (line + n) s
  | branch line condition thenBody elseBody =>
    branch (line + n) condition (downAll thenBody) (downAll elseBody)
  | repeat_ line times body => repeat_ (line + n) times (downAll body)
  | forEach line item collection body => forEach (line + n) item collection (downAll body)

def downAll : List Statement → List Statement
  | [] => []
  | s :: rest => down s :: downAll rest

end

theorem downAll_eq_map (body : List Statement) : downAll n body = body.map (down n) := by
  induction body with
  | nil => rfl
  | cons s rest ih => rw [downAll, ih, List.map_cons]

end Statement

def Field.down (f : Field) : Field :=
  { f with line := f.line + n }

def PageVariable.down (v : PageVariable) : PageVariable :=
  { v with line := v.line + n }

def Action.down (a : Action) : Action :=
  { a with body := Statement.downAll n a.body, line := a.line + n }

def Page.down (p : Page) : Page :=
  { p with
    fields := p.fields.map (Field.down n)
    pageVariables := p.pageVariables.map (PageVariable.down n)
    actions := p.actions.map (Action.down n)
    line := p.line + n }

def Library.down (l : Library) : Library :=
  { l with actions := l.actions.map (Action.down n), line := l.line + n }

def Use.down (u : Use) : Use :=
  { u with line := u.line + n }

def Hook.down (h : Hook) : Hook :=
  { h with body := Statement.downAll n h.body, line := h.line + n }

def Scenario.down (s : Scenario) : Scenario :=
  { s with body := Statement.downAll n s.body, line := s.line + n }

def Feature.down (f : Feature) : Feature :=
  { f with
    uses := f.uses.map (Use.down n)
    hooks := f.hooks.map (Hook.down n)
    scenarios := f.scenarios.map (Scenario.down n)
    line := f.line + n }

def Program.down (p : Program) : Program where
  pages := p.pages.map (Page.down n)
  libraries := p.libraries.map (Library.down n)
  features := p.features.map (Feature.down n)

end UiScenario
