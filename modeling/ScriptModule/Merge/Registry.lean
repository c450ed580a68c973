/-
  ScriptModule/Merge/Registry.lean
  ================================
  **Registered definitions.**  One section per kind of definition, made at its first
  use.  A name is registered once, in any spelling: the same definition again is left
  out, another one is a collision.
-/
import ScriptModule.Report.Problem
import ScriptModule.Table
import ScriptModule.Text.Casing

namespace ScriptModule

/-! ### Sections -/

/-- A definition under the name it was first given. -/
structure Entry where
  key : Text
  value : Text
  filename : Option Text := none
deriving DecidableEq, Repr

/-- Entries by folded name, in order of registration. -/
abbrev Section := Table Text Entry

namespace Section

def find? (s : Section) (key : Text) : Option Entry := s.get? (Text.fold key)

/-- Writes an entry, over the entry of the same name if there is one. -/
def put (s : Section) (key value : Text) (filename : Option Text) : Section :=
  s.insert (Text.fold key) ⟨key, value, filename⟩

def entries (s : Section) : List Entry := s.values

/-- The names in order, as first written. -/
def names (s : Section) : List Text := s.entries.map Entry.key

def definitions (s : Section) : List Text := s.entries.map Entry.value

end Section

/-! ### The registry -/

/-- The sections in use, in order of first use. -/
structure Registry where
  sections : Table SectionKind Section := Table.empty

namespace Registry

/-- The section of a kind; empty if it was never used. -/
def sectionOf (r : Registry) (kind : SectionKind) : Section :=
  (r.sections.get? kind).getD Table.empty

def has (r : Registry) (kind : SectionKind) : Bool := !(r.sectionOf kind).isEmpty

/-- The first kind among rivals that has the name, with its entry. -/
def rival? (r : Registry) (key : Text) (rivals : List SectionKind) :
    Option (SectionKind × Entry) :=
  rivals.findSome? fun k => ((r.sectionOf k).find? key).map fun e => (k, e)

/-- Registers a definition.  A name in a rival section is a collision whatever it stands
    for; otherwise the entry of the same kind decides. -/
def add (r : Registry) (kind : SectionKind) (key value : Text) (filename : Option Text)
    (rivals : List SectionKind) : Registry × Option Problem :=
  match r.rival? key rivals with
  | some (other, e) => (r, some (.rivalDefinition kind key other e.filename))
  | none =>
    match (r.sectionOf kind).find? key with
    | some e =>
      if e.value = value then (r, some (.duplicateDefinition kind key e.filename))
      else (r, some (.conflictingDefinition kind key e.filename))
    | none => (⟨r.sections.insert kind ((r.sectionOf kind).put key value filename)⟩, none)

/-- Writes an entry into the section of a kind; a section that was never used is not
    part of the registry, so what is written to it is lost.  Also gives the size that
    the section has with the entry. -/
def put (r : Registry) (kind : SectionKind) (key value : Text) (filename : Option Text) :
    Registry × Nat :=
  let written := (r.sectionOf kind).put key value filename
  if r.has kind then (⟨r.sections.insert kind written⟩, written.size) else (r, written.size)

end Registry
end ScriptModule
