/-
  ScriptModule/Markup/Mistake.lean
  ================================
  **Mistakes in a document.**  A mistake is a cause and the text that was left when
  it was found, which gives its line and column.
-/
import ScriptModule.Text.Basic

namespace ScriptModule.Markup

/-! ### Causes -/

/-- Why a document is refused. -/
inductive Cause where
  | syntaxError
  | noElement
  | invalidToken
  | unclosedToken
  | partialCharacter
  | mismatchedTag
  | duplicateAttribute
  | junkAfterRoot
  | parameterReference
  | undefinedEntity
  | recursiveEntity
  | asynchronousEntity
  | badCharacterNumber
  | binaryEntity
  | externalInAttribute
  | misplacedDeclaration
  | unclosedSection
  | unboundPrefix
  | undeclaredPrefix
  | malformedDeclaration
  | badPublicId
  | reservedXml
  | reservedXmlns
  | reservedNamespace
  | amplification
  | unreadEntity (name : Text)      -- declared elsewhere, if at all
deriving DecidableEq, Repr

/-- The first bytes of a text; a character that is cut is shown as a replacement. -/
def firstBytes (limit : Nat) : Text → Text
  | [] => []
  | c :: r =>
    if c.utf8Size ≤ limit then c :: firstBytes (limit - c.utf8Size) r
    else if limit = 0 then [] else ['\uFFFD']

/-- How much of a reference is shown. -/
def shownReference : Nat := 100

def Cause.message : Cause → Text
  | syntaxError => "syntax error"
  | noElement => "no element found"
  | invalidToken => "not well-formed (invalid token)"
  | unclosedToken => "unclosed token"
  | partialCharacter => "partial character"
  | mismatchedTag => "mismatched tag"
  | duplicateAttribute => "duplicate attribute"
  | junkAfterRoot => "junk after document element"
  | parameterReference => "illegal parameter entity reference"
  | undefinedEntity => "undefined entity"
  | recursiveEntity => "recursive entity reference"
  | asynchronousEntity => "asynchronous entity"
  | badCharacterNumber => "reference to invalid character number"
  | binaryEntity => "reference to binary entity"
  | externalInAttribute => "reference to external entity in attribute"
  | misplacedDeclaration => "XML or text declaration not at start of entity"
  | unclosedSection => "unclosed CDATA section"
  | unboundPrefix => "unbound prefix"
  | undeclaredPrefix => "must not undeclare prefix"
  | malformedDeclaration => "XML declaration not well-formed"
  | badPublicId => "illegal character(s) in public id"
  | reservedXml =>
    "reserved prefix (xml) must not be undeclared or bound to another namespace name"
  | reservedXmlns => "reserved prefix (xmlns) must not be declared or undeclared"
  | reservedNamespace => "prefix must not be bound to one of the reserved namespace names"
  | amplification =>
    "limit on input amplification factor (from DTD and entities) breached"
  | unreadEntity name =>
    "undefined entity " ++ firstBytes shownReference ('&' :: name ++ [';'])

/-! ### Mistakes -/

/-- A cause and the text left where it was found. -/
structure Mistake where
  cause : Cause
  here : Text
deriving DecidableEq, Repr

/-- The line, from one, and the column, from zero, behind a text. -/
def endPlace (line column : Nat) : Text → Nat × Nat
  | [] => (line, column)
  | '\r' :: '\n' :: r => endPlace (line + 1) 0 r
  | '\r' :: r => endPlace (line + 1) 0 r
  | '\n' :: r => endPlace (line + 1) 0 r
  | _ :: r => endPlace line (column + 1) r

def Mistake.place (document : Text) (m : Mistake) : Nat × Nat :=
  endPlace 1 0 (document.take (document.length - m.here.length))

def Mistake.message (document : Text) (m : Mistake) : Text :=
  let (line, column) := m.place document
  m.cause.message ++ ": line " ++ Text.ofNat line ++ ", column " ++ Text.ofNat column

end ScriptModule.Markup
