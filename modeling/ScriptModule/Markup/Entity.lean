/-
  ScriptModule/Markup/Entity.lean
  ===============================
  **Entities.**  A document type may declare entities, which stand for text, and
  attributes with a type and a preset value.  In the value of an attribute references
  are replaced and white space becomes spaces; while an entity is being replaced, a
  reference to it is a mistake, so replacing comes to an end.
-/
import ScriptModule.Markup.Value
import ScriptModule.Markup.Tally
import ScriptModule.Table

namespace ScriptModule.Markup

/-! ### Document types -/

/-- What an entity stands for; text is taken to pieces once for each place where a
    reference may stand. -/
inductive Entity where
  | text (content : List Lexeme) (value : List ValueItem)
  | external
  | unparsed
deriving DecidableEq, Repr

/-- The entity that stands for a text. -/
def Entity.ofText (t : Text) : Entity :=
  .text (pieces .narrow false false t) (valueItems .narrow t)

/-- A declared attribute; `isPlain` says that spaces in its value are kept. -/
structure AttributeType where
  element : Text
  name : Text
  isPlain : Bool
  preset : Option Text
deriving DecidableEq, Repr

/-- What a document type declares.  Behind a part that is not read, declarations count
    only in a document that stands alone. -/
structure Doctype where
  entities : Table Text Entity := Table.empty
  attributes : List AttributeType := []
  standsAlone : Bool := false
  hasUnread : Bool := false       -- some part of the declarations is not read
  isReading : Bool := true        -- further declarations count
  width : Width := .narrow        -- how the document is written
  size : Nat := 0                 -- how many bytes it has
  expanded : Nat := 0             -- the bytes of entities in preset values

namespace Doctype

/-- Whether everything is known that the document may refer to. -/
def isComplete (d : Doctype) : Bool := !d.hasUnread || d.standsAlone

/-- What has been read where a text is left. -/
def tally (d : Doctype) (left : Text) : Tally := ⟨d.size - d.width.size left, d.expanded⟩

/-- Declares an entity unless the name is taken, or while declarations do not count. -/
def declareEntity (d : Doctype) (n : Text) (e : Entity) : Doctype :=
  if d.isReading && (predefined? n).isNone then { d with entities := d.entities.insertNew n e }
  else d

/-- Declares an attribute of an element; the first declaration counts. -/
def declareAttribute (d : Doctype) (a : AttributeType) : Doctype :=
  if d.isReading && !(d.attributes.any fun b => b.element = a.element && b.name = a.name) then
    { d with attributes := d.attributes ++ [a] }
  else d

/-- Whether spaces in the value of an attribute are kept. -/
def keepsSpaces (d : Doctype) (element name : Text) : Bool :=
  match d.attributes.find? fun a => a.element = element && a.name = name with
  | some a => a.isPlain
  | none => true

end Doctype

/-! ### Values of attributes -/

/-- A mistake in a value: its cause, and the text left in the value where it is one of
    the value as written. -/
structure ValueMistake where
  cause : Cause
  here : Option Text
deriving DecidableEq, Repr

/-- Adds a space to a value, which is kept newest first.  Where spaces are not kept, one
    at the start or behind another is left out. -/
def addSpace (isPlain : Bool) (value : Text) : Text :=
  if !isPlain && (value.isEmpty || value.head? = some ' ') then value else ' ' :: value

/-- Adds parts to a value, which is kept newest first; `free` are the entities that are
    not being replaced, and `account` is what the parts count as. -/
def addItems (d : Doctype) (isPlain : Bool) (account : Account) (free : List Text)
    (tally : Tally) (value : Text) (items : List ValueItem) :
    Except ValueMistake (Text × Tally) :=
  match items with
  | [] => .ok (value, tally)
  | item :: items =>
    match tally.read account item.size with
    | none => .error ⟨.amplification, none⟩
    | some tally =>
      match item.part with
      | .characters t => addItems d isPlain account free tally (t.reverseAux value) items
      | .numbered c =>
        addItems d isPlain account free tally
          (if c = ' ' then addSpace isPlain value else c :: value) items
      | .space => addItems d isPlain account free tally (addSpace isPlain value) items
      | .fault c => .error ⟨c, some item.here⟩
      | .entity n =>
        match predefined? n with
        | some c => addItems d isPlain account free (tally.add .indirect 1) (c :: value) items
        | none =>
          match d.entities.get? n with
          | none =>
            if d.isComplete then .error ⟨.undefinedEntity, none⟩
            else addItems d isPlain account free tally value items
          | some e =>
            if _hn : n ∈ free then
              match e with
              | .unparsed => .error ⟨.binaryEntity, some item.here⟩
              | .external => .error ⟨.externalInAttribute, some item.here⟩
              | .text _ inner =>
                match addItems d isPlain .indirect (free.erase n) tally value inner with
                | .error m => .error { m with here := none }
                | .ok (value, tally) => addItems d isPlain account free tally value items
            else .error ⟨.recursiveEntity, none⟩
termination_by (free.length, items.length)
decreasing_by
  all_goals simp_wf
  all_goals first
    | exact Prod.Lex.right _ (by simp)
    | (refine Prod.Lex.left _ _ ?_
       rw [List.length_erase_of_mem _hn]
       have := List.length_pos_of_mem _hn
       omega)

/-- The value of an attribute as written between its quotes. -/
def attributeValue (d : Doctype) (isPlain : Bool) (account : Account) (free : List Text)
    (tally : Tally) (items : List ValueItem) : Except ValueMistake (Text × Tally) :=
  (addItems d isPlain account free tally [] items).map fun (value, tally) =>
    ((if isPlain then value else value.dropWhile (· = ' ')).reverse, tally)

end ScriptModule.Markup
