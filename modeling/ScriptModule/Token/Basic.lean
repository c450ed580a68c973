/-
  ScriptModule/Token/Basic.lean
  =============================
  **Tokens.**  A token is a stretch of the source with its kind and its place.
  Places count characters: offsets from 0, lines and columns from 1, and a line
  ends at a line feed only.
-/
import ScriptModule.Text.Casing

namespace ScriptModule

/-! ### Places -/

/-- A place in a source. -/
structure Position where
  offset : Nat
  line : Nat
  column : Nat
deriving DecidableEq, Repr

namespace Position

def start : Position := ⟨0, 1, 1⟩

def next (p : Position) (c : Char) : Position :=
  if c = '\n' then ⟨p.offset + 1, p.line + 1, 1⟩ else ⟨p.offset + 1, p.line, p.column + 1⟩

def advance (p : Position) (t : Text) : Position := t.foldl next p

end Position

/-! ### Kinds -/

/-- The kinds of tokens. -/
inductive TokenKind where
  | newline
  | comment           -- to the end of the line, or a block
  | word              -- a command, type or member name
  | variable          -- with its dollar sign, scope and braces
  | splat             -- a variable name behind an at sign
  | parameter         -- a name behind a dash
  | number
  | string            -- single, double or here-string
  | functionWord
  | classWord
  | enumWord
  | paramWord
  | usingWord
  | leftBrace
  | rightBrace
  | leftParen
  | rightParen
  | leftBracket
  | rightBracket
  | atParen
  | atBrace
  | dollarParen
  | comma
  | semicolon
  | equals
  | colon
  | doubleColon
  | dot
  | pipe
  | operator          -- any other character
deriving DecidableEq, Repr

namespace TokenKind

def label : TokenKind → Text
  | .newline => "NEWLINE"
  | .comment => "COMMENT"
  | .word => "WORD"
  | .variable => "VARIABLE"
  | .splat => "SPLAT"
  | .parameter => "PARAMETER"
  | .number => "NUMBER"
  | .string => "STRING"
  | .functionWord => "FUNCTION"
  | .classWord => "CLASS"
  | .enumWord => "ENUM"
  | .paramWord => "PARAM"
  | .usingWord => "USING"
  | .leftBrace => "LBRACE"
  | .rightBrace => "RBRACE"
  | .leftParen => "LPAREN"
  | .rightParen => "RPAREN"
  | .leftBracket => "LBRACKET"
  | .rightBracket => "RBRACKET"
  | .atParen => "AT_PAREN"
  | .atBrace => "AT_BRACE"
  | .dollarParen => "DOLLAR_PAREN"
  | .comma => "COMMA"
  | .semicolon => "SEMI"
  | .equals => "EQ"
  | .colon => "COLON"
  | .doubleColon => "DOUBLE_COLON"
  | .dot => "DOT"
  | .pipe => "PIPE"
  | .operator => "OPERATOR"

/-- The kind that closes a group opened by this one; nothing for other kinds. -/
def closer? : TokenKind → Option TokenKind
  | .leftBrace | .atBrace => some rightBrace
  | .leftParen | .atParen | .dollarParen => some rightParen
  | .leftBracket => some rightBracket
  | _ => none

def isOpener (k : TokenKind) : Bool := k.closer?.isSome

def isCloser (k : TokenKind) : Bool :=
  k == rightBrace || k == rightParen || k == rightBracket

/-- Kinds that may name a type, a member or a function; keywords may. -/
def isName : TokenKind → Bool
  | .word | .functionWord | .classWord | .enumWord | .paramWord | .usingWord => true
  | _ => false

/-- Kinds behind which a dash before a digit is a sign. -/
def precedesSign : TokenKind → Bool
  | .newline | .semicolon | .equals | .comma | .leftParen | .atParen | .leftBrace | .atBrace
  | .operator | .pipe => true
  | _ => false

end TokenKind

/-! ### Tokens -/

/-- A token: its text, where it starts and where it stops in the source, and the
    unquoted content of a string. -/
structure Token where
  kind : TokenKind
  text : Text
  start : Position
  stop : Position
  value : Option Text := none
deriving DecidableEq, Repr

namespace Token

/-- Whether the token is the given bare word, in any case. -/
def isWord (t : Token) (w : Text) : Bool := t.kind == .word && Text.sameName t.text w

/-- Whether the token is a comment that states a requirement. -/
def isRequirement (t : Token) : Bool :=
  t.kind == .comment && Text.fold (t.text.take 9) == "#requires".toList &&
    match t.text.drop 9 with
    | [] => true
    | c :: _ => Unicode.isBlank c

/-- A comment that states no requirement. -/
def isRemark (t : Token) : Bool := t.kind == .comment && !t.isRequirement

end Token
end ScriptModule
