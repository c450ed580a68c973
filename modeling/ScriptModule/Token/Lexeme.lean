/-
  ScriptModule/Token/Lexeme.lean
  ==============================
  **Lexemes.**  What one token is made of, given the characters at its start.
  A lexeme says how many characters it takes behind the first one; whatever
  follows is left to the next lexeme.
-/
import ScriptModule.Report.Problem
import ScriptModule.Token.Basic
import ScriptModule.Unicode.Digit

namespace ScriptModule

open Unicode

/-- The kind of a token, the number of its characters behind the first, and the
    unquoted content if it is a string. -/
structure Lexeme where
  kind : TokenKind
  extra : Nat
  value : Option Text := none
deriving DecidableEq, Repr

namespace Lexeme

/-! ### Blanks -/

/-- Characters skipped between tokens. -/
def isGap (c : Char) : Bool :=
  c = ' ' || c = '\t' || c = '\r' || c = '\x0c' || c = '\x0b' || c = '\ufeff' || c = '\u00a0'

/-- The number of characters skipped at the front of a text: one blank, or a
    backtick with the end of its line. -/
def gapLength : Text → Nat
  | '\x60' :: '\r' :: '\n' :: _ => 3
  | '\x60' :: '\r' :: _ => 2
  | '\x60' :: '\n' :: _ => 2
  | c :: _ => if isGap c then 1 else 0
  | [] => 0

/-! ### Runs of characters -/

def isNameChar (c : Char) : Bool := isAlphanumeric c || c = '_'

def isWordChar (c : Char) : Bool := isNameChar c || c = '-' || c = '.' || c = '\\'

def isParameterChar (c : Char) : Bool := isNameChar c || c = '-'

/-- Characters that start a bare word or a parameter name. -/
def startsWord (c : Char) : Bool := isLetter c || c = '_'

/-- The length of the longest run of `p`-characters at the front. -/
def runLength (p : Char → Bool) (t : Text) : Nat := (t.takeWhile p).length

/-- Whether the text starts with a character of a class. -/
def startsWith (p : Char → Bool) : Text → Bool
  | c :: _ => p c
  | [] => false

/-! ### Comments -/

/-- The length of a comment behind its number sign: to the end of the line, or to
    a null character. -/
def lineCommentLength (t : Text) : Nat := runLength (fun c => c ≠ '\n' && c ≠ '\x00') t

/-- The length of a block comment behind its opening mark. -/
def blockCommentLength? : Text → Option Nat
  | [] => none
  | '#' :: '>' :: _ => some 2
  | _ :: r => (blockCommentLength? r).map (· + 1)

/-! ### Strings -/

/-- Length and content of a single-quoted string behind its opening quote; a
    doubled quote stands for one. -/
def singleQuoted? : Text → Option (Nat × Text)
  | [] => none
  | '\'' :: '\'' :: r => (singleQuoted? r).map fun (n, v) => (n + 2, '\'' :: v)
  | '\'' :: _ => some (1, [])
  | c :: r => (singleQuoted? r).map fun (n, v) => (n + 1, c :: v)

/-- What is open inside a double-quoted string. -/
inductive Nest where
  | single      -- a single-quoted string in an embedded expression
  | double      -- a double-quoted string in an embedded expression
  | paren       -- the parentheses of an embedded expression
deriving DecidableEq, Repr

/-- Length and content of a double-quoted string behind its opening quote, inside
    the given nest.  A backtick keeps the next character from closing anything.  At
    the outermost level a doubled quote stands for one; everything else, embedded
    expressions included, is kept as written. -/
def doubleQuoted? (nest : List Nest) (t : Text) : Option (Nat × Text) :=
  match nest, t with
  | _, [] => none
  | [], '\x60' :: c :: r => (doubleQuoted? [] r).map fun (n, v) => (n + 2, '\x60' :: c :: v)
  | [], '"' :: '"' :: r => (doubleQuoted? [] r).map fun (n, v) => (n + 2, '"' :: v)
  | [], '"' :: _ => some (1, [])
  | [], '$' :: '(' :: r =>
    (doubleQuoted? [.paren] r).map fun (n, v) => (n + 2, '$' :: '(' :: v)
  | [], c :: r => (doubleQuoted? [] r).map fun (n, v) => (n + 1, c :: v)
  | .single :: ns, '\'' :: '\'' :: r =>
    (doubleQuoted? (.single :: ns) r).map fun (n, v) => (n + 2, '\'' :: '\'' :: v)
  | .single :: ns, '\'' :: r => (doubleQuoted? ns r).map fun (n, v) => (n + 1, '\'' :: v)
  | .single :: ns, c :: r => (doubleQuoted? (.single :: ns) r).map fun (n, v) => (n + 1, c :: v)
  | .double :: ns, '\x60' :: c :: r =>
    (doubleQuoted? (.double :: ns) r).map fun (n, v) => (n + 2, '\x60' :: c :: v)
  | .double :: ns, '"' :: '"' :: r =>
    (doubleQuoted? (.double :: ns) r).map fun (n, v) => (n + 2, '"' :: '"' :: v)
  | .double :: ns, '"' :: r => (doubleQuoted? ns r).map fun (n, v) => (n + 1, '"' :: v)
  | .double :: ns, '$' :: '(' :: r =>
    (doubleQuoted? (.paren :: .double :: ns) r).map fun (n, v) => (n + 2, '$' :: '(' :: v)
  | .double :: ns, c :: r => (doubleQuoted? (.double :: ns) r).map fun (n, v) => (n + 1, c :: v)
  | .paren :: ns, '\x60' :: c :: r =>
    (doubleQuoted? (.paren :: ns) r).map fun (n, v) => (n + 2, '\x60' :: c :: v)
  | .paren :: ns, '(' :: r =>
    (doubleQuoted? (.paren :: .paren :: ns) r).map fun (n, v) => (n + 1, '(' :: v)
  | .paren :: ns, ')' :: r => (doubleQuoted? ns r).map fun (n, v) => (n + 1, ')' :: v)
  | .paren :: ns, '\'' :: r =>
    (doubleQuoted? (.single :: .paren :: ns) r).map fun (n, v) => (n + 1, '\'' :: v)
  | .paren :: ns, '"' :: r =>
    (doubleQuoted? (.double :: .paren :: ns) r).map fun (n, v) => (n + 1, '"' :: v)
  | .paren :: ns, c :: r => (doubleQuoted? (.paren :: ns) r).map fun (n, v) => (n + 1, c :: v)

/-! ### Here-strings -/

/-- Whether a here-string opens behind an at sign: only blanks may stand between
    its quote and the end of the line. -/
def opensHereString : Text → Bool
  | q :: r =>
    (q = '\'' || q = '"') &&
      match r.dropWhile fun c => c = ' ' || c = '\t' with
      | [] => true
      | c :: _ => c = '\r' || c = '\n'
  | [] => false

/-- Length and body of a here-string behind its first line: the closing mark
    stands at the start of a line. -/
def hereBody? (quote : Char) (atLineStart : Bool) : Text → Option (Nat × Text)
  | [] => none
  | c :: r =>
    if atLineStart && c = quote && startsWith (· = '@') r then some (2, [])
    else (hereBody? quote (c = '\n') r).map fun (n, v) => (n + 1, c :: v)

/-- A body without its last line end. -/
def withoutLineEnd (body : Text) : Text :=
  Text.dropEndWhile (· = '\r') (if body.getLast? = some '\n' then body.dropLast else body)

/-- A here-string behind its at sign: the quote, the rest of the line, the body. -/
def hereString? : Text → Option (Nat × Text)
  | [] => none
  | quote :: r =>
    match r.dropWhile (· ≠ '\n') with
    | [] => none
    | _ :: body =>
      (hereBody? quote true body).map fun (n, v) =>
        (runLength (· ≠ '\n') r + 2 + n, withoutLineEnd v)

/-! ### Numbers -/

def isHexDigit (c : Char) : Bool :=
  c.isDigit || ('a' ≤ c && c ≤ 'f') || ('A' ≤ c && c ≤ 'F')

/-- The length of the digits of a number behind its first digit. -/
def digitsLength (first : Char) (t : Text) : Nat :=
  match t with
  | 'x' :: r => if first = '0' then 1 + runLength isHexDigit r else 0
  | 'X' :: r => if first = '0' then 1 + runLength isHexDigit r else 0
  | _ =>
    let whole := runLength isDigit t
    match t.drop whole with
    | '.' :: r => if startsWith isDigit r then whole + 1 + runLength isDigit r else whole
    | _ => whole

/-- The length of a number behind its first digit, with the letters behind it. -/
def numberLength (first : Char) (t : Text) : Nat :=
  digitsLength first t + runLength isLetter (t.drop (digitsLength first t))

/-! ### Variables -/

/-- The length of a braced name behind its brace; a backtick keeps the next
    character from closing it. -/
def bracedLength? : Text → Option Nat
  | [] => none
  | '}' :: _ => some 1
  | '\x60' :: _ :: r => (bracedLength? r).map (· + 2)
  | _ :: r => (bracedLength? r).map (· + 1)

/-- The length of a name whose parts are joined by single colons. -/
def scopedLength : Text → Nat
  | [] => 0
  | c :: r =>
    if isNameChar c || (c = ':' && startsWith isNameChar r) then scopedLength r + 1 else 0

def dollar (t : Text) : Except Problem Lexeme :=
  match t with
  | '(' :: _ => .ok ⟨.dollarParen, 1, none⟩
  | '{' :: r =>
    match bracedLength? r with
    | some n => .ok ⟨.variable, n + 1, none⟩
    | none => .error .unterminatedVariable
  | c :: r =>
    if c = '$' || c = '?' || c = '^' || (c = '_' && !startsWith isNameChar r) then
      .ok ⟨.variable, 1, none⟩
    else if isNameChar c then .ok ⟨.variable, scopedLength t, none⟩
    else .ok ⟨.operator, 0, none⟩
  | [] => .ok ⟨.operator, 0, none⟩

def atSign (t : Text) : Except Problem Lexeme :=
  match t with
  | '(' :: _ => .ok ⟨.atParen, 1, none⟩
  | '{' :: _ => .ok ⟨.atBrace, 1, none⟩
  | _ =>
    if opensHereString t then
      match hereString? t with
      | some (n, v) => .ok ⟨.string, n, some v⟩
      | none => .error .unterminatedHereString
    else if startsWith isNameChar t then .ok ⟨.splat, runLength isNameChar t, none⟩
    else .ok ⟨.operator, 0, none⟩

/-! ### Dashes and words -/

/-- What a dash starts; `sign` says whether it may be the sign of a number. -/
def dash (sign : Bool) (t : Text) : Lexeme :=
  match t with
  | c :: r =>
    if isDigit c && sign then ⟨.number, 1 + numberLength c r, none⟩
    else if startsWord c then ⟨.parameter, runLength isParameterChar t, none⟩
    else if c = '=' || c = '-' then ⟨.operator, 1, none⟩
    else ⟨.operator, 0, none⟩
  | [] => ⟨.operator, 0, none⟩

def keywords : List (Text × TokenKind) := [
  ("function", .functionWord),
  ("filter", .functionWord),
  ("workflow", .functionWord),
  ("class", .classWord),
  ("enum", .enumWord),
  ("param", .paramWord),
  ("using", .usingWord)]

/-- The kind of a bare word: keywords are recognised in any case. -/
def wordKind (t : Text) : TokenKind := (keywords.lookup (Text.fold t)).getD .word

def punctuation? : Char → Option TokenKind
  | '{' => some .leftBrace
  | '}' => some .rightBrace
  | '(' => some .leftParen
  | ')' => some .rightParen
  | '[' => some .leftBracket
  | ']' => some .rightBracket
  | ',' => some .comma
  | ';' => some .semicolon
  | '.' => some .dot
  | '|' => some .pipe
  | '=' => some .equals
  | '\n' => some .newline
  | _ => none

/-! ### All lexemes -/

/-- A lexeme that starts with a character of no special role. -/
def plain (c : Char) (r : Text) : Lexeme :=
  if isDigit c then ⟨.number, numberLength c r, none⟩
  else if startsWord c then
    ⟨wordKind (c :: r.takeWhile isWordChar), runLength isWordChar r, none⟩
  else if (c = '+' || c = '*' || c = '/' || c = '%') && startsWith (· = '=') r then
    ⟨.operator, 1, none⟩
  else ⟨.operator, 0, none⟩

/-- A string lexeme, or the problem that it has no end. -/
def ofString (s : Option (Nat × Text)) : Except Problem Lexeme :=
  match s with
  | some (n, v) => .ok ⟨.string, n, some v⟩
  | none => .error .unterminatedString

/-- The lexeme that starts with the character `c` and has `r` behind it; `sign` says
    whether a dash may be the sign of a number here. -/
def read (sign : Bool) (c : Char) (r : Text) : Except Problem Lexeme :=
  match punctuation? c with
  | some k => .ok ⟨k, 0, none⟩
  | none =>
    match c, r with
    | '#', r => .ok ⟨.comment, lineCommentLength r, none⟩
    | '<', '#' :: r =>
      match blockCommentLength? r with
      | some n => .ok ⟨.comment, n + 1, none⟩
      | none => .error .unterminatedComment
    | '$', r => dollar r
    | '@', r => atSign r
    | '\'', r => ofString (singleQuoted? r)
    | '"', r => ofString (doubleQuoted? [] r)
    | '-', r => .ok (dash sign r)
    | ':', ':' :: _ => .ok ⟨.doubleColon, 1, none⟩
    | ':', _ => .ok ⟨.colon, 0, none⟩
    | c, r => .ok (plain c r)

/-- The text of the token: the characters taken, but a comment to the end of the
    line does not keep the carriage returns of the line end. -/
def text (l : Lexeme) (c : Char) (r : Text) : Text :=
  let taken := c :: r.take l.extra
  if l.kind == .comment && c == '#' then Text.dropEndWhile (· = '\r') taken else taken

end Lexeme
end ScriptModule
