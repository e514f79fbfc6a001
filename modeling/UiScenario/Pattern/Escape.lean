import UiScenario.Pattern.Property
import UiScenario.Pattern.Regex

/-!
The smallest parts of patterns: flags, literals, escapes and classes in brackets. Readers answer
with the rest of the pattern, or with nothing if the pattern is malformed.
-/

namespace UiScenario.Pattern

structure Flags where
  ignoreCase : Bool
  /-- `^` and `$` match at every line. -/
  multiLine : Bool
  /-- `.` matches line feeds, too. -/
  dotAll : Bool
  /-- A carriage return ends lines, too. -/
  returns : Bool
  /-- Classes and case variants are not those of ASCII only. -/
  unicode : Bool
  /-- Blanks and comments in the pattern do not count. -/
  verbose : Bool

namespace Flags

def set? (f : Flags) (letter : Char) (value : Bool) : Option Flags :=
  match letter with
  | 'i' => some { f with ignoreCase := value }
  | 'm' => some { f with multiLine := value }
  | 's' => some { f with dotAll := value }
  | 'R' => some { f with returns := value }
  | 'u' => some { f with unicode := value }
  | 'x' => some { f with verbose := value }
  | 'U' => some f
  | _ => none

def literal (f : Flags) (c : Char) : CharSet :=
  if !f.ignoreCase then .ofList [c]
  else if f.unicode then .ofList (Text.caseVariants c)
  else .ofList [c.toLower, c.toUpper].eraseDups

/-- The set with all case variants, if case does not count. -/
def fold (f : Flags) (s : CharSet) : CharSet :=
  if !f.ignoreCase then s else if f.unicode then s.foldCase else s.foldAscii

/-- A set or what is not in it. Of ASCII sets only, what is not in them is no set of characters. -/
def negateIf (f : Flags) (negated : Bool) (s : CharSet) : Option CharSet :=
  if !negated then some s else if f.unicode then some s.negate else none

end Flags

/-- The rest of a pattern behind blanks and comments. -/
def skipVerbose (inComment : Bool) : List Char → List Char
  | [] => []
  | c :: cs =>
    if inComment then skipVerbose (c != '\n') cs
    else if Text.isBlank c then skipVerbose false cs
    else if c == '#' then skipVerbose true cs
    else c :: cs

/-- The rest of a pattern behind what does not count. -/
def skip (f : Flags) (cs : List Char) : List Char :=
  if f.verbose then skipVerbose false cs else cs

/-! ## Escapes -/

inductive Escape where
  | literal (c : Char)
  | set (s : CharSet)
  | look (l : Look)

def hexDigit? (c : Char) : Option Nat :=
  if c.isDigit then some (c.toNat - '0'.toNat)
  else if 'a' ≤ c && c ≤ 'f' then some (c.toNat - 'a'.toNat + 10)
  else if 'A' ≤ c && c ≤ 'F' then some (c.toNat - 'A'.toNat + 10)
  else none

def charOf? (n : Nat) : Option Char :=
  if n.isValidChar then some (Char.ofNat n) else none

def readHexDigits? (f : Flags) (n : Nat) : Nat → List Char → Option (Nat × List Char)
  | 0, cs => some (n, cs)
  | count + 1, cs =>
    match skip f cs with
    | [] => none
    | c :: cs => (hexDigit? c).bind fun d => readHexDigits? f (16 * n + d) count cs

/-- Reads hexadecimal digits up to a closing brace; `seen` tells whether there was one. -/
def readHexBrace? (verbose : Bool) (n : Nat) (seen : Bool) : List Char → Option (Nat × List Char)
  | [] => none
  | c :: cs =>
    if c == '\x7d' then if seen then some (n, cs) else none
    else if verbose && Text.isBlank c then readHexBrace? verbose n seen cs
    else (hexDigit? c).bind fun d => readHexBrace? verbose (16 * n + d) true cs

/-- Reads a character by its number, in braces or with a fixed number of digits. -/
def readHex? (f : Flags) (digits : Nat) (cs : List Char) : Option (Char × List Char) := do
  let (n, rest) ← match skip f cs with
    | '\x7b' :: cs => readHexBrace? f.verbose 0 false cs
    | cs => readHexDigits? f 0 digits cs
  return (← charOf? n, rest)

/-- Cuts a list in front of the first occurrence of a list, and behind it. -/
def cutAt? (mark : List Char) : List Char → Option (List Char × List Char)
  | [] => none
  | c :: cs =>
    if mark.isPrefixOf (c :: cs) then some ([], (c :: cs).drop mark.length)
    else (cutAt? mark cs).map fun (before, after) => (c :: before, after)

/-- The set that the text in the braces of a class names, and whether the text negates it. -/
def classOf? (text : List Char) : Option (CharSet × Bool) :=
  let valued (negated : Bool) (parts : List Char × List Char) : Option (CharSet × Bool) :=
    (valuedSet? (String.ofList parts.1) (String.ofList parts.2)).map (·, negated)
  match cutAt? ['!', '='] text, cutAt? [':'] text, cutAt? ['='] text with
  | some parts, _, _ => valued true parts
  | none, some parts, _ => valued false parts
  | none, none, some parts => valued false parts
  | none, none, none => (namedSet? (String.ofList text)).map (·, false)

/-- Reads the name of a class behind `\p` or `\P`: one letter, or a text in braces. -/
def readClassName? (f : Flags) (cs : List Char) : Option ((CharSet × Bool) × List Char) :=
  match skip f cs with
  | [] => none
  | '\x7b' :: cs => do
    let (text, rest) ← cutAt? ['\x7d'] cs
    let text := if f.verbose then text.filter (!Text.isBlank ·) else text
    let named ← classOf? text
    return (named, rest)
  | c :: cs => if c == '\\' then none else (namedSet? c.toString).map fun s => ((s, false), cs)

def readProperty? (f : Flags) (negated : Bool) (cs : List Char) : Option (CharSet × List Char) :=
  if !f.unicode then none
  else do
    let ((s, negated'), rest) ← readClassName? f cs
    return (← f.negateIf (negated != negated') (f.fold s), rest)

/-- The class of a letter: digits, blanks or characters of words; a capital letter negates it. -/
def letterClass? (f : Flags) (letter : Char) : Option CharSet :=
  let found := match letter.toLower, f.unicode with
    | 'd', true => some (ofCategories ["Nd"])
    | 's', true => some (.ofTable Text.blankRanges)
    | 'w', true => some ⟨770, isWordChar⟩
    | 'd', false => asciiSet? "digit"
    | 's', false => asciiSet? "space"
    | 'w', false => asciiSet? "word"
    | _, _ => none
  found.bind (f.negateIf letter.isUpper)

/-- The edges of words that can be named in braces. -/
def wordEdge? (name : List Char) : Option WordEdge :=
  match String.ofList name with
  | "start" => some .start
  | "end" => some .stop
  | "start-half" => some .startHalf
  | "end-half" => some .stopHalf
  | _ => none

/-- Reads the edge of a word behind `\b`. Braces that hold no name are left for a repetition. -/
def readWordEdge? (f : Flags) (cs : List Char) : Option (WordEdge × List Char) :=
  match cs with
  | '\x7b' :: inner =>
    match skip f inner with
    | [] => none
    | c :: inner =>
      if c.isAlpha || c == '-' then do
        let (name, rest) ← cutAt? ['\x7d'] (c :: inner)
        let name := if f.verbose then name.filter (!Text.isBlank ·) else name
        return (← wordEdge? name, rest)
      else some (.boundary, cs)
  | _ => some (.boundary, cs)

/-- Whether a character has a meaning of its own in patterns. -/
def isMeta (c : Char) : Bool :=
  ['\\', '.', '+', '*', '?', '(', ')', '|', '[', ']', '\x7b', '\x7d', '^', '$', '#', '&', '-',
    '~'].contains c

/-- Whether a backslash may stand in front of a character that stands for itself. -/
def isEscapable (c : Char) : Bool :=
  isMeta c || (c.toNat < 128 && !c.isAlphanum && c != '<' && c != '>')

def readEscape? (f : Flags) : List Char → Option (Escape × List Char)
  | [] => none
  | c :: cs =>
    let look (l : Look) : Option (Escape × List Char) := some (.look l, cs)
    let literal (c : Char) : Option (Escape × List Char) := some (.literal c, cs)
    if isEscapable c then literal c
    else match c with
      | 'x' => (readHex? f 2 cs).map fun (c, rest) => (.literal c, rest)
      | 'u' => (readHex? f 4 cs).map fun (c, rest) => (.literal c, rest)
      | 'U' => (readHex? f 8 cs).map fun (c, rest) => (.literal c, rest)
      | 'p' => (readProperty? f false cs).map fun (s, rest) => (.set s, rest)
      | 'P' => (readProperty? f true cs).map fun (s, rest) => (.set s, rest)
      | 'd' | 's' | 'w' | 'D' | 'S' | 'W' => (letterClass? f c).map fun s => (.set s, cs)
      | 'a' => literal '\x07'
      | 'f' => literal '\x0c'
      | 't' => literal '\t'
      | 'n' => literal '\n'
      | 'r' => literal '\r'
      | 'v' => literal '\x0b'
      | 'A' => look .textStart
      | 'z' => look .textEnd
      | 'b' => (readWordEdge? f cs).map fun (edge, rest) => (.look (.word (!f.unicode) edge), rest)
      | 'B' => look (.word (!f.unicode) .noBoundary)
      | '<' => look (.word (!f.unicode) .start)
      | '>' => look (.word (!f.unicode) .stop)
      | _ => none

/-! ## Classes in brackets -/

inductive SetOp where
  | inter | diff | symmDiff

def setOp? : List Char → Option (SetOp × List Char)
  | '&' :: '&' :: cs => some (.inter, cs)
  | '-' :: '-' :: cs => some (.diff, cs)
  | '~' :: '~' :: cs => some (.symmDiff, cs)
  | _ => none

/-- A class while it is read: the set so far, to which an operation with the set on its left is
still to be applied. -/
structure OpenClass where
  left : Option (CharSet × SetOp)
  here : CharSet

namespace OpenClass

def close (f : Flags) (c : OpenClass) : CharSet :=
  match c.left with
  | none => c.here
  | some (left, op) =>
    let left := f.fold left
    let right := f.fold c.here
    match op with
    | .inter => left.inter right
    | .diff => left.diff right
    | .symmDiff => left.symmDiff right

def add (c : OpenClass) (s : CharSet) : OpenClass :=
  { c with here := c.here.union s }

def apply (f : Flags) (c : OpenClass) (op : SetOp) : OpenClass :=
  ⟨some (c.close f, op), .empty⟩

end OpenClass

/-- Reads a named ASCII class behind its opening bracket. -/
def readAsciiClass? (f : Flags) : List Char → Option (Option CharSet × List Char)
  | ':' :: cs => do
    let (negated, cs) := match cs with
      | '^' :: cs => (true, cs)
      | cs => (false, cs)
    let name := cs.takeWhile (· != ':')
    match cs.drop name.length with
    | ':' :: ']' :: rest =>
      let s ← asciiSet? (String.ofList name)
      return (f.negateIf negated (f.fold s), rest)
    | _ => none
  | _ => none

/-- Reads a character or an escape inside brackets. -/
def readClassItem? (f : Flags) : List Char → Option (Escape × List Char)
  | [] => none
  | '\\' :: cs => readEscape? f cs
  | c :: cs => some (.literal c, cs)

/-- A character as the end of a range or the whole of it. Without Unicode only ASCII characters are.
-/
def classRange? (f : Flags) (lo hi : Char) : Option CharSet :=
  if hi < lo || (!f.unicode && hi.toNat ≥ 128) then none else some (.ofRange lo hi)

/-- Reads a character, an escape or a range inside brackets. -/
def readClassRange? (f : Flags) (cs : List Char) : Option (CharSet × List Char) := do
  let (first, rest) ← readClassItem? f cs
  let alone : Option (CharSet × List Char) := match first with
    | .literal c => (classRange? f c c).map (·, skip f rest)
    | .set s => some (s, skip f rest)
    | .look _ => none
  match skip f rest with
  | [] => none
  | '-' :: rest =>
    let behind := skip f rest
    if behind.head? == some ']' || behind.head? == some '-' then alone
    else do
      let (second, rest) ← readClassItem? f behind
      match first, second with
      | .literal lo, .literal hi => (classRange? f lo hi).map (·, rest)
      | _, _ => none
  | _ => alone

/-- Hyphens, or else one closing bracket, that stand for themselves at the start of a class. -/
def readClassStart (f : Flags) (hyphens : Bool) : List Char → CharSet × List Char
  | [] => (.empty, [])
  | c :: cs =>
    if c == '-' then
      let (_, rest) := readClassStart f true cs
      (.ofList ['-'], rest)
    else if f.verbose && Text.isBlank c then readClassStart f hyphens cs
    else if c == ']' && !hyphens then (.ofList [']'], cs)
    else (.empty, c :: cs)

/-- Reads the sign of negation at the start of a class. -/
def readNegation (f : Flags) (cs : List Char) : Bool × List Char :=
  match skip f cs with
  | '^' :: cs => (true, cs)
  | cs => (false, cs)

/-- Reads a class behind its opening bracket, up to the closing one. `fuel` bounds its parts, those
of inner classes included. -/
def readClass? (f : Flags) : (fuel : Nat) → Bool → OpenClass → List Char →
    Option (CharSet × List Char)
  | 0, _, _, _ => none
  | fuel + 1, negated, c, cs =>
    match skip f cs with
    | [] => none
    | ']' :: rest => (f.negateIf negated (f.fold (c.close f))).map (·, rest)
    | '[' :: rest =>
      match readAsciiClass? f rest with
      | some (none, _) => none
      | some (some s, rest) => readClass? f fuel negated (c.add s) rest
      | none => do
        let (innerNegated, start) := readNegation f rest
        let (first, start) := readClassStart f false start
        let (s, rest) ← readClass? f fuel innerNegated ⟨none, first⟩ start
        readClass? f fuel negated (c.add s) rest
    | cs =>
      match setOp? cs with
      | some (op, rest) => readClass? f fuel negated (c.apply f op) rest
      | none => do
        let (s, rest) ← readClassRange? f cs
        readClass? f fuel negated (c.add s) rest

def readBrackets? (f : Flags) (cs : List Char) : Option (CharSet × List Char) :=
  let (negated, start) := readNegation f cs
  let (first, start) := readClassStart f false start
  readClass? f (cs.length + 1) negated ⟨none, first⟩ start

end UiScenario.Pattern
