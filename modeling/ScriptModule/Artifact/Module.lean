/-
  ScriptModule/Artifact/Module.lean
  =================================
  **The text of a module.**  A draft is written as a row of regions, each only if
  there is something in it; only the exports are always there.
-/
import ScriptModule.Artifact.Snippet
import ScriptModule.Draft.Basic

namespace ScriptModule.Draft

/-! ### Exports -/

def exportedFunctions (d : Draft) : List Text := (d.registry.sectionOf .entryPoint).names

def exportedVariables (d : Draft) : List Text := (d.registry.sectionOf .variable).names

/-- The place of a function among the exported ones; behind them if it is none. -/
def targetRank (d : Draft) (target : Text) : Nat :=
  d.exportedFunctions.findIdx fun f => Text.sameName f target

/-- Aliases with their targets, in the order of the targets. -/
def aliases (d : Draft) : List Entry :=
  (d.registry.sectionOf .aliasName).entries.mergeSort fun a b =>
    d.targetRank a.value ≤ d.targetRank b.value

def exportedAliases (d : Draft) : List Text := d.aliases.map Entry.key

/-- The classes that the section names, each looked up by its name; nothing if one of
    them is not kept, which no draft comes to. -/
def namedClasses? (d : Draft) : Option (List DeclaredClass) :=
  (d.registry.sectionOf .classType).names.mapM fun name => d.classes.get? (Text.fold name)

/-- The classes, each one behind the classes it is based on. -/
def orderedClasses (d : Draft) : List DeclaredClass :=
  ClassDef.ordered (d.namedClasses?.getD [])

/-- The types that the module makes known to the session. -/
def typeNames (d : Draft) : List Text :=
  (d.registry.sectionOf .enumeration).names ++ d.orderedClasses.map fun c => c.name

/-! ### Regions -/

/-- A region, if there are blocks for it. -/
def regionOf (title separator : Text) : List Text → List Text
  | [] => []
  | blocks => [Snippet.region title blocks separator]

/-- Keeps a check for unused variables quiet about variables that are only exported. -/
def placeholder : Text :=
  "[Diagnostics.CodeAnalysis.SuppressMessageAttribute('PSUseDeclaredVarsMoreThanAssignments', '')] param()"

def classTexts (d : Draft) : List Text := d.orderedClasses.map DeclaredClass.text

def viewsByResource (d : Draft) : Table Text (List Text) :=
  (d.registry.sectionOf .formatView).entries.foldl
    (fun t e => t.insert e.value ((t.get? e.value).getD [] ++ [e.key])) Table.empty

def regions (d : Draft) : List Text :=
  let assignments := (d.registry.sectionOf .variable).definitions
  regionOf "Requirements" "\n" d.requirement.render ++
  regionOf "Imports" "\n" d.imports.render ++
  (if assignments.isEmpty then [] else regionOf "Placeholder" "\n" [placeholder]) ++
  regionOf "Enum" "\n\n" (d.registry.sectionOf .enumeration).definitions ++
  regionOf "Class" "\n\n" d.classTexts ++
  regionOf "Variable" "\n" assignments ++
  regionOf "Function" "\n\n" (d.registry.sectionOf .function).definitions ++
  regionOf "EntryPoint" "\n\n" (d.registry.sectionOf .entryPoint).definitions ++
  regionOf "Alias" "\n" (d.aliases.map fun e => Snippet.setAlias e.key e.value) ++
  regionOf "Format" "\n\n"
    (d.viewsByResource.rows.map fun r => Snippet.formatRegistration r.1 r.2) ++
  regionOf "Export" "\n"
    [Snippet.exports d.exportedFunctions d.exportedAliases d.exportedVariables] ++
  (if d.typeNames.isEmpty then []
    else regionOf "TypeRegistry" "\n" [Snippet.typeRegistry d.typeNames])

def render (d : Draft) : Text := Snippet.joinRegions d.regions

end ScriptModule.Draft
