import UiScenario.Position
import UiScenario.Token.Keyword

/-!
Tokens: the words, literals and signs of a script, each with its place.
-/

namespace UiScenario

inductive TokenKind where
  | keyword (word : Keyword)
  | identifier
  | text
  | number
  /-- A reference to the environment, between double braces. -/
  | env
  | tag
  | lbrace | rbrace | lparen | rparen | comma | dot | equals | eqEq | notEq | gt | lt | gtEq | ltEq
  | plus
  | comment
  | eof
deriving DecidableEq

namespace TokenKind

def name : TokenKind → String
  | keyword word => word.name
  | identifier => "Identifier"
  | text => "StringLiteral"
  | number => "NumberLiteral"
  | env => "EnvVar"
  | tag => "Tag"
  | lbrace => "LBrace"
  | rbrace => "RBrace"
  | lparen => "LParen"
  | rparen => "RParen"
  | comma => "Comma"
  | dot => "Dot"
  | equals => "Equals"
  | eqEq => "EqEq"
  | notEq => "NotEq"
  | gt => "Gt"
  | lt => "Lt"
  | gtEq => "GtEq"
  | ltEq => "LtEq"
  | plus => "Plus"
  | comment => "Comment"
  | eof => "Eof"

def signs : List TokenKind :=
  [identifier, text, number, env, tag, lbrace, rbrace, lparen, rparen, comma, dot, equals, eqEq,
    notEq, gt, lt, gtEq, ltEq, plus, comment, eof]

def all : List TokenKind :=
  Keyword.spellings.map (fun (_, word) => keyword word) ++ signs

def isKeyword : TokenKind → Bool
  | keyword _ => true
  | _ => false

/-- Whether tokens of this kind begin a statement. -/
def startsStatement : TokenKind → Bool
  | keyword word => word.startsStatement
  | _ => false

/-- Whether tokens of this kind begin a declaration. -/
def startsDeclaration : TokenKind → Bool
  | keyword word => word.startsDeclaration
  | _ => false

/-- Whether tokens of this kind are words: identifiers and keywords can both be names. -/
def isWord : TokenKind → Bool
  | keyword _ | identifier => true
  | _ => false

/-- Whether tokens of this kind can stand alone as the name of a variable or field. -/
def isBareName : TokenKind → Bool
  | keyword word => word.isBareName
  | identifier => true
  | _ => false

/-- What tokens of this kind are called in messages. -/
def describe : TokenKind → String
  | keyword _ => "a keyword"
  | identifier => "a name"
  | text => "a quoted string"
  | number => "a number"
  | env => "an environment reference"
  | tag => "a tag"
  | lbrace => "'\x7b'"
  | rbrace => "'\x7d'"
  | lparen => "'('"
  | rparen => "')'"
  | comma => "','"
  | dot => "'.'"
  | equals => "'='"
  | eqEq => "'=='"
  | notEq => "'!='"
  | gt => "'>'"
  | lt => "'<'"
  | gtEq => "'>='"
  | ltEq => "'<='"
  | plus => "'+'"
  | comment => "a comment"
  | eof => "end of file"

end TokenKind

/-- A token. Its value is the text it was written with, but for quoted texts what stands between the
quotes, for references the name, and for tags the name without its sign. -/
structure Token where
  kind : TokenKind
  value : String
  pos : Position
deriving DecidableEq

namespace Token

def line (t : Token) : Nat :=
  t.pos.line

def column (t : Token) : Nat :=
  t.pos.column

def isWord (t : Token) : Bool :=
  t.kind.isWord

def display (t : Token) : String :=
  match t.kind with
  | .eof => "end of file"
  | .text => "\"" ++ t.value ++ "\""
  | .env => "\x7b\x7b" ++ t.value ++ "\x7d\x7d"
  | .tag => "@" ++ t.value
  | _ => "'" ++ t.value ++ "'"

end Token

end UiScenario
