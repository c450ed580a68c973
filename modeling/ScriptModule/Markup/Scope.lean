/-
  ScriptModule/Markup/Scope.lean
  ==============================
  **Prefixes of names.**  A prefix stands for a namespace that a tag around the name
  declares.  Some prefixes and namespaces are reserved; a name without a prefix is in
  the default namespace, if there is one.
-/
import ScriptModule.Markup.Entity

namespace ScriptModule.Markup

/-! ### Declared prefixes -/

/-- Prefixes with their namespaces, the innermost declaration first; the default
    namespace has the empty prefix. -/
abbrev Scope := List (Text × Text)

/-- The namespace that the prefix `xml` always stands for. -/
def xmlNamespace : Text := "http://www.w3.org/XML/1998/namespace"

/-- The namespace of the declarations themselves, for which no prefix stands. -/
def xmlnsNamespace : Text := "http://www.w3.org/2000/xmlns/"

namespace Scope

/-- What stands for a namespace around the root element. -/
def initial : Scope := [("xml".toList, xmlNamespace)]

/-- Whether a prefix stands for a namespace. -/
def binds (s : Scope) (p : Text) : Bool := (s.lookup p).isSome

/-- Declares a prefix; only the default namespace may be taken back.  A namespace must
    not contain the character that is put between it and a name. -/
def declare (s : Scope) (p uri : Text) : Except Cause Scope :=
  if uri.isEmpty && !p.isEmpty then .error .undeclaredPrefix
  else if p = ("xmlns" : Text) then .error .reservedXmlns
  else if uri.contains '\x7d' then .error .syntaxError
  else if p = ("xml" : Text) && uri ≠ xmlNamespace then .error .reservedXml
  else if p ≠ ("xml" : Text) && uri = xmlNamespace then .error .reservedNamespace
  else if uri = xmlnsNamespace then .error .reservedNamespace
  else .ok ((p, uri) :: s)

end Scope

/-! ### Names with prefixes -/

def prefixOf? (n : Text) : Option Text := (Text.cut? ':' n).map Prod.fst

def localName (n : Text) : Text := ((Text.cut? ':' n).map Prod.snd).getD n

/-- The prefix that an attribute declares, if it declares one. -/
def declaredPrefix? (n : Text) : Option Text :=
  if n = ("xmlns" : Text) then some []
  else if prefixOf? n = some "xmlns".toList then some (localName n)
  else none

/-! ### Tags -/

/-- The scope inside of a tag, and the prefixed names of its attributes. -/
structure Resolved where
  scope : Scope
  prefixed : List Text

/-- Takes in an attribute with its value. -/
def Resolved.add (r : Resolved) (n value : Text) : Except Cause Resolved :=
  match declaredPrefix? n with
  | some p => (r.scope.declare p value).map fun s => { r with scope := s }
  | none => .ok (if (prefixOf? n).isSome then { r with prefixed := r.prefixed ++ [n] } else r)

/-- Where a tag stands: the bytes of its values count as `account` where they are read
    once more than the tag. -/
structure TagContext where
  account : Account
  width : Width
  free : List Text        -- the entities that are not being replaced
  here : Text             -- starts with the tag

/-- Takes in the attributes that a tag gives, none of them twice. -/
def specified (d : Doctype) (p : TagContext) (t : Tag) (r : Resolved) (tally : Tally)
    (seen : List Text) : List Attribute → Except Mistake (Resolved × Tally)
  | [] => .ok (r, tally)
  | a :: as => do
    if seen.contains a.name then throw ⟨.duplicateAttribute, a.here⟩
    let account := if t.isEmpty || isSettled a.value then .uncounted else p.account
    let (v, tally) ← (attributeValue d (d.keepsSpaces t.name a.name) account p.free tally
      (valueItems p.width a.value)).mapError fun m =>
        ⟨m.cause, (m.here.map (· ++ a.after)).getD p.here⟩
    let r ← (r.add a.name v).mapError fun c => ⟨c, p.here⟩
    specified d p t r tally (a.name :: seen) as

/-- Takes in the preset attributes of an element that its tag does not give. -/
def preset (element : Text) (given : List Text) (r : Resolved) :
    List AttributeType → Except Cause Resolved
  | [] => .ok r
  | a :: as =>
    match a.preset with
    | some v =>
      if a.element = element && !given.contains a.name then do
        let r ← r.add a.name v
        preset element given r as
      else preset element given r as
    | none => preset element given r as

/-- Checks that prefixes stand for something and that no two names mean the same. -/
def checkPrefixed (s : Scope) (seen : List (Text × Text)) : List Text → Except Cause Unit
  | [] => .ok ()
  | n :: ns =>
    match s.lookup ((prefixOf? n).getD []) with
    | none => .error .unboundPrefix
    | some uri =>
      if seen.contains (uri, localName n) then .error .duplicateAttribute
      else checkPrefixed s ((uri, localName n) :: seen) ns

/-- The scope inside of a tag, and the tally behind it. -/
def Tag.scope (d : Doctype) (p : TagContext) (outer : Scope) (tally : Tally) (t : Tag) :
    Except Mistake (Scope × Tally) := do
  let (r, tally) ← specified d p t ⟨outer, []⟩ tally [] t.attributes
  (do
    let r ← preset t.name (t.attributes.map Attribute.name) r d.attributes
    checkPrefixed r.scope [] r.prefixed
    match prefixOf? t.name with
    | some q => if !r.scope.binds q then throw Cause.unboundPrefix
    | none => pure ()
    return (r.scope, tally) : Except Cause (Scope × Tally)).mapError fun c => ⟨c, p.here⟩

end ScriptModule.Markup
