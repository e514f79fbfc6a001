import UiScenario.Json.Basic

/-!
Reading JSON text. Every reader takes the characters in front of it and answers with what it read
and the characters left over, or with `none`. Values may be nested `maxDepth` deep.

The digits of a number are gathered while they fit in 64 bits; digits that come later only count for
the size of the number. If there was a fraction, an exponent or a digit left out, the gathered
number is multiplied or divided by a power of ten as a binary number.
-/

namespace UiScenario.Json

/-- Numbers gather digits up to this bound, `2 ^ 64`. -/
abbrev wordBound : Nat := 18446744073709551616

/-- Exponents gather digits up to this bound, `2 ^ 31`. -/
abbrev exponentBound : Nat := 2147483648

/-- Integers below zero go down to this one, `2 ^ 63`. -/
abbrev leastBound : Nat := 9223372036854775808

/-- How deep arrays and objects may be nested. -/
abbrev maxDepth : Nat := 127

/-- Whether a character is skipped between the parts of a value. -/
def isSpace (c : Char) : Bool :=
  c = ' ' || c = '\n' || c = '\t' || c = '\r'

def skipSpaces (cs : List Char) : List Char :=
  cs.dropWhile isSpace

def afterWord? : List Char → List Char → Option (List Char)
  | [], cs => some cs
  | w :: ws, c :: cs => if w = c then afterWord? ws cs else none
  | _ :: _, [] => none

/-! ## Strings -/

def hexDigit? (c : Char) : Option Nat :=
  if '0' ≤ c ∧ c ≤ '9' then some (c.toNat - '0'.toNat)
  else if 'a' ≤ c ∧ c ≤ 'f' then some (c.toNat - 'a'.toNat + 10)
  else if 'A' ≤ c ∧ c ≤ 'F' then some (c.toNat - 'A'.toNat + 10)
  else none

def readHex4? : List Char → Option (Nat × List Char)
  | a :: b :: c :: d :: rest => do
    let a ← hexDigit? a
    let b ← hexDigit? b
    let c ← hexDigit? c
    let d ← hexDigit? d
    return (((a * 16 + b) * 16 + c) * 16 + d, rest)
  | _ => none

/-- Reads the code of an escaped character: one unit, or two that form a pair. -/
def readCode? (cs : List Char) : Option (Char × List Char) := do
  let (high, rest) ← readHex4? cs
  if 0xDC00 ≤ high ∧ high ≤ 0xDFFF then none
  else if 0xD800 ≤ high ∧ high ≤ 0xDBFF then
    let rest ← afterWord? ['\\', 'u'] rest
    let (low, rest) ← readHex4? rest
    if 0xDC00 ≤ low ∧ low ≤ 0xDFFF then
      return (Char.ofNat (0x10000 + (high - 0xD800) * 0x400 + (low - 0xDC00)), rest)
    else none
  else return (Char.ofNat high, rest)

/-- The character that a one letter escape stands for. -/
def escapeLetter? : Char → Option Char
  | '"' => some '"'
  | '\\' => some '\\'
  | '/' => some '/'
  | 'b' => some '\x08'
  | 'f' => some '\x0c'
  | 'n' => some '\n'
  | 'r' => some '\r'
  | 't' => some '\t'
  | _ => none

/-- Reads the inside of a string up to its closing quote. `fuel` bounds the characters to read. -/
def readChars? : (fuel : Nat) → List Char → Option (List Char × List Char)
  | 0, _ => none
  | _ + 1, [] => none
  | _ + 1, '"' :: rest => some ([], rest)
  | fuel + 1, '\\' :: 'u' :: rest => do
    let (c, rest) ← readCode? rest
    let (cs, rest) ← readChars? fuel rest
    return (c :: cs, rest)
  | fuel + 1, '\\' :: e :: rest => do
    let c ← escapeLetter? e
    let (cs, rest) ← readChars? fuel rest
    return (c :: cs, rest)
  | fuel + 1, c :: rest =>
    if c.toNat < 0x20 || c = '\\' then none
    else do
      let (cs, rest) ← readChars? fuel rest
      return (c :: cs, rest)

def readString? (cs : List Char) : Option (String × List Char) :=
  (readChars? (cs.length + 1) cs).map fun (text, rest) => (String.ofList text, rest)

/-! ## Numbers -/

def digit (c : Char) : Nat :=
  c.toNat - '0'.toNat

/-- Gathers digits while the number stays below `bound`: the number, how many digits it took, and
the text left over, which starts with a digit only if that digit did not fit. -/
def gather (bound : Nat) (n taken : Nat) : List Char → Nat × Nat × List Char
  | [] => (n, taken, [])
  | c :: rest =>
    if c.isDigit && n * 10 + digit c < bound then gather bound (n * 10 + digit c) (taken + 1) rest
    else (n, taken, c :: rest)

/-- A binary number divided by `1e308` until the power of ten is in the range of the type, and then
multiplied or divided by that power. A result that is too large gives no answer. -/
def applyExponent? : (fuel : Nat) → Binary64 → Int → Option Binary64
  | 0, x, _ => some x
  | fuel + 1, x, e =>
    if e.natAbs ≤ 308 then do
      let p ← Binary64.powTen? e.natAbs
      if 0 ≤ e then x.mul? p else x.div? p
    else if x.mantissa = 0 then some x
    else if 0 ≤ e then none
    else do
      let p ← Binary64.powTen? 308
      applyExponent? fuel (← x.div? p) (e + 308)

/-- The binary number of gathered digits and a power of ten. -/
def binary? (negative : Bool) (n : Nat) (e : Int) : Option Number := do
  let x ← Binary64.ofRatio? n 1
  return .binary negative (← applyExponent? 4 x (max e (-2000)))

/-- Reads an exponent behind its letter, for the gathered digits `n` with the power of ten `e`. -/
def readExponent? (negative : Bool) (n : Nat) (e : Int) (cs : List Char) :
    Option (Number × List Char) :=
  let (down, cs) := match cs with
    | '+' :: cs => (false, cs)
    | '-' :: cs => (true, cs)
    | cs => (false, cs)
  let (x, taken, rest) := gather exponentBound 0 0 cs
  if taken = 0 then none
  else if rest.head?.any Char.isDigit then
    if n ≠ 0 && !down then none
    else some (.binary negative Binary64.zero, rest.dropWhile Char.isDigit)
  else (binary? negative n (if down then e - x else e + x)).map (·, rest)

/-- Reads what may follow the digits of a number: an exponent or nothing. -/
def readTail? (negative : Bool) (n : Nat) (e : Int) : List Char → Option (Number × List Char)
  | 'e' :: rest | 'E' :: rest => readExponent? negative n e rest
  | rest => (binary? negative n e).map (·, rest)

/-- Reads the fraction of a number behind the point. -/
def readFraction? (negative : Bool) (n : Nat) (e : Int) (cs : List Char) :
    Option (Number × List Char) :=
  let (n, taken, rest) := gather wordBound n 0 cs
  if rest.head?.any Char.isDigit then
    readTail? negative n (e - taken) (rest.dropWhile Char.isDigit)
  else if taken = 0 then none
  else readTail? negative n (e - taken) rest

/-- An integer that was written without fraction and exponent. -/
def integer? (negative : Bool) (n : Nat) : Option Number :=
  if !negative then some (.integer n)
  else if n = 0 || n > leastBound then binary? true n 0
  else some (.integer (-(n : Int)))

def readUnsigned? (negative : Bool) (cs : List Char) : Option (Number × List Char) :=
  let (n, taken, rest) := gather wordBound 0 0 cs
  if taken = 0 || (cs.head? = some '0' && taken > 1) then none
  else
    let skipped := rest.takeWhile Char.isDigit
    match rest.drop skipped.length with
    | '.' :: rest => readFraction? negative n skipped.length rest
    | 'e' :: rest | 'E' :: rest => readExponent? negative n skipped.length rest
    | rest =>
      if skipped.isEmpty then (integer? negative n).map (·, rest)
      else (binary? negative n skipped.length).map (·, rest)

/-! ## Values -/

mutual

/-- Reads a value, with spaces in front, that is nested at most `depth` deep. `fuel` bounds the
number of its parts. -/
def readValue? (depth : Nat) : (fuel : Nat) → List Char → Option (Json × List Char)
  | 0, _ => none
  | fuel + 1, cs =>
    match skipSpaces cs with
    | 'n' :: rest => (afterWord? ['u', 'l', 'l'] rest).map (.null, ·)
    | 't' :: rest => (afterWord? ['r', 'u', 'e'] rest).map (.bool true, ·)
    | 'f' :: rest => (afterWord? ['a', 'l', 's', 'e'] rest).map (.bool false, ·)
    | '"' :: rest => (readString? rest).map fun (s, rest) => (.string s, rest)
    | '-' :: rest => (readUnsigned? true rest).map fun (n, rest) => (.number n, rest)
    | '[' :: rest =>
      if depth = 0 then none
      else match skipSpaces rest with
        | ']' :: rest => some (.array [], rest)
        | rest => (readItems? (depth - 1) fuel rest).map fun (xs, rest) => (.array xs, rest)
    | '\x7b' :: rest =>
      if depth = 0 then none
      else match skipSpaces rest with
        | '\x7d' :: rest => some (.object [], rest)
        | rest => (readMembers? (depth - 1) fuel [] rest).map fun (ms, rest) => (.object ms, rest)
    | cs => (readUnsigned? false cs).map fun (n, rest) => (.number n, rest)

/-- Reads the items of an array up to its closing bracket. -/
def readItems? (depth : Nat) : (fuel : Nat) → List Char → Option (List Json × List Char)
  | 0, _ => none
  | fuel + 1, cs => do
    let (x, rest) ← readValue? depth fuel cs
    match skipSpaces rest with
    | ',' :: rest => do
      let (xs, rest) ← readItems? depth fuel rest
      return (x :: xs, rest)
    | ']' :: rest => return ([x], rest)
    | _ => none

/-- Reads the members of an object up to its closing brace, after those already read. -/
def readMembers? (depth : Nat) :
    (fuel : Nat) → List (String × Json) → List Char → Option (List (String × Json) × List Char)
  | 0, _, _ => none
  | fuel + 1, members, cs =>
    match skipSpaces cs with
    | '"' :: rest => do
      let (name, rest) ← readString? rest
      match skipSpaces rest with
      | ':' :: rest => do
        let (value, rest) ← readValue? depth fuel rest
        let members := insertMember name value members
        match skipSpaces rest with
        | ',' :: rest => readMembers? depth fuel members rest
        | '\x7d' :: rest => return (members, rest)
        | _ => none
      | _ => none
    | _ => none

end

/-- Reads a text that holds one value and nothing else but spaces. -/
def read? (text : String) : Option Json := do
  let cs := text.toList
  let (value, rest) ← readValue? maxDepth (cs.length + 1) cs
  if (skipSpaces rest).isEmpty then return value else none

end UiScenario.Json
