import UiScenario.Pattern.Escape
import UiScenario.Text.Numeric

/-!
Reading regular expressions in which case does not count, unless they say otherwise. Patterns that
are malformed, or too large when their repetitions are written out, are refused.
-/

namespace UiScenario.Pattern

/-! ## Groups -/

/-- Reads the letters of flags up to a colon or a closing parenthesis, which is left. `seen` holds
the signs so far, and `dangling` tells whether the last one was a hyphen. -/
def readFlags? (f : Flags) (seen : List Char) (dangling : Bool) : List Char →
    Option (Flags × List Char)
  | [] => none
  | c :: cs =>
    if c == ':' || c == ')' then
      if dangling || (c == ')' && seen.isEmpty) then none else some (f, c :: cs)
    else if seen.contains c then none
    else if c == '-' then readFlags? f (c :: seen) true cs
    else (f.set? c (!seen.contains '-')).bind fun f => readFlags? f (c :: seen) false cs

inductive GroupHead where
  /-- A group that only sets flags. -/
  | flags (f : Flags)
  /-- A group with contents, read with these flags, and perhaps with a name. -/
  | contents (f : Flags) (name : Option String)

/-- Whether a name of a group may start with a character. -/
def isNameStart (c : Char) : Bool :=
  c == '_' || Text.isAlphabetic c

/-- Whether a name of a group may go on with a character. -/
def isNameChar (c : Char) : Bool :=
  c == '_' || c == '.' || c == '[' || c == ']' || Text.isAlphanumeric c

/-- Reads the name of a group up to its closing angle bracket. -/
def readName? (cs : List Char) : Option (String × List Char) := do
  let (name, rest) ← cutAt? ['>'] cs
  match name with
  | [] => none
  | c :: more =>
    if isNameStart c && more.all isNameChar then some (String.ofList name, rest) else none

/-- Reads the start of a group behind its parenthesis. Conditions on what stands around a match are
not part of the language. -/
def readGroupHead? (f : Flags) : List Char → Option (GroupHead × List Char)
  | '?' :: 'P' :: '<' :: cs =>
    (readName? cs).map fun (name, rest) => (.contents f (some name), rest)
  | '?' :: '<' :: '=' :: _ | '?' :: '<' :: '!' :: _ => none
  | '?' :: '<' :: cs => (readName? cs).map fun (name, rest) => (.contents f (some name), rest)
  | '?' :: cs =>
    match readFlags? f [] false cs with
    | some (f', ':' :: rest) => some (.contents f' none, rest)
    | some (f', ')' :: rest) => some (.flags f', rest)
    | _ => none
  | cs => some (.contents f none, cs)

/-! ## Repetitions -/

/-- The bound of counts, `2 ^ 32`. -/
abbrev countBound : Nat := 4294967296

/-- Reads digits; `seen` tells whether there was one. -/
def readCountDigits (verbose : Bool) (n : Nat) (seen : Bool) : List Char → Nat × Bool × List Char
  | [] => (n, seen, [])
  | c :: cs =>
    if c.isDigit then readCountDigits verbose (10 * n + (c.toNat - '0'.toNat)) true cs
    else if verbose && seen && Text.isBlank c then readCountDigits verbose n seen cs
    else (n, seen, c :: cs)

/-- Reads a count of repetitions with blanks around it; it is not given if there are no digits. -/
def readCount? (f : Flags) (cs : List Char) : Option (Option Nat × List Char) :=
  let (n, seen, rest) := readCountDigits f.verbose 0 false (cs.dropWhile Text.isBlank)
  let rest := skip f (rest.dropWhile Text.isBlank)
  if n ≥ countBound then none else some (if seen then some n else none, rest)

/-- Reads counts of repetitions behind the opening brace. -/
def readCounts? (f : Flags) (cs : List Char) : Option (Nat × Option Nat × List Char) := do
  let (least, rest) ← readCount? f (skip f cs)
  match rest with
  | '\x7d' :: rest => return (← least, least, rest)
  | ',' :: rest =>
    match skip f rest with
    | '\x7d' :: rest => return (← least, none, rest)
    | rest => do
      let least ← least
      match ← readCount? f rest with
      | (some most, '\x7d' :: rest) => if most < least then none else some (least, some most, rest)
      | _ => none
  | _ => none

/-- Behind a repetition, a question mark that only says which of several matches is wanted. -/
def dropLazy : List Char → List Char
  | '?' :: cs => cs
  | cs => cs

/-! ## Expressions -/

/-- The parts of a group that are read so far: the alternatives that are complete, and the items of
the one that is not, the last one first. Settings of flags are items that cannot be repeated. -/
structure Branches where
  complete : List Regex
  items : List (Option Regex)

namespace Branches

def none : Branches :=
  ⟨[], []⟩

def push (b : Branches) (item : Option Regex) : Branches :=
  { b with items := item :: b.items }

def sequence (b : Branches) : Regex :=
  b.items.foldl (fun rest item => match item, rest with
    | .none, rest => rest
    | some r, .empty => r
    | some r, rest => .seq r rest) .empty

def alternate (b : Branches) : Branches :=
  ⟨b.sequence :: b.complete, []⟩

def close (b : Branches) : Regex :=
  b.complete.foldl (fun rest r => .alt r rest) b.sequence

def repeat? (b : Branches) (least : Nat) (most : Option Nat) : Option Branches :=
  match b.items with
  | some r :: items => some { b with items := some (.repeat_ r least most) :: items }
  | _ => .none

end Branches

def dot? (f : Flags) : Option CharSet :=
  if !f.unicode then none
  else if f.dotAll then some .all
  else some (CharSet.ofList (if f.returns then ['\r', '\n'] else ['\n'])).negate

def lineStart (f : Flags) : Look :=
  if !f.multiLine then .textStart else if f.returns then .returnStart else .lineStart

def lineEnd (f : Flags) : Look :=
  if !f.multiLine then .textEnd else if f.returns then .returnEnd else .lineEnd

def Escape.regex (f : Flags) : Escape → Regex
  | .literal c => .set (f.literal c)
  | .set s => .set s
  | .look l => .look l

/-- Reads a single item other than groups and repetitions. -/
def readItem? (f : Flags) (c : Char) (cs : List Char) : Option (Regex × List Char) :=
  match c with
  | '[' => (readBrackets? f cs).map fun (s, rest) => (.set s, rest)
  | '\\' => (readEscape? f cs).map fun (e, rest) => (e.regex f, rest)
  | '.' => (dot? f).map fun s => (.set s, cs)
  | '^' => some (.look (lineStart f), cs)
  | '$' => some (.look (lineEnd f), cs)
  | _ => some (.set (f.literal c), cs)

/-- Reads the contents of a group up to its closing parenthesis, which is left, or to the end of the
pattern. `names` holds the names of groups so far, which must differ; `fuel` bounds the number of
items. -/
def readGroup? : (fuel : Nat) → Flags → List String → Branches → List Char →
    Option (Regex × List String × List Char)
  | 0, _, _, _, _ => none
  | fuel + 1, f, names, b, cs =>
    match skip f cs with
    | [] => some (b.close, names, [])
    | ')' :: rest => some (b.close, names, ')' :: rest)
    | '|' :: rest => readGroup? fuel f names b.alternate rest
    | '?' :: rest => do readGroup? fuel f names (← b.repeat? 0 (some 1)) (dropLazy rest)
    | '*' :: rest => do readGroup? fuel f names (← b.repeat? 0 none) (dropLazy rest)
    | '+' :: rest => do readGroup? fuel f names (← b.repeat? 1 none) (dropLazy rest)
    | '\x7b' :: rest => do
      let (least, most, rest) ← readCounts? f rest
      readGroup? fuel f names (← b.repeat? least most) (dropLazy (skip f rest))
    | '(' :: rest => do
      match ← readGroupHead? f (skip f rest) with
      | (.flags f', rest) => readGroup? fuel f' names (b.push none) rest
      | (.contents f' name, rest) =>
        if name.any names.contains then none
        else do
          match ← readGroup? fuel f' (name.toList ++ names) .none rest with
          | (r, names, ')' :: rest) => readGroup? fuel f names (b.push (some r)) rest
          | _ => none
    | c :: rest => do
      let (r, rest) ← readItem? f c rest
      readGroup? fuel f names (b.push (some r)) rest

def Regex.read? (pattern : String) : Option Regex := do
  let cs := pattern.toList
  let start : Flags := ⟨true, false, false, false, true, false⟩
  match ← readGroup? (cs.length + 1) start [] .none cs with
  | (r, _, []) => if r.size > Regex.sizeLimit then none else some r
  | _ => none

end UiScenario.Pattern
