/-
  ScriptModule/Merge/Requirement.lean
  ===================================
  **Merged requirements.**  A requirement comment states facts, which are taken in
  one after another; at the first one refused the merge stops and keeps what was
  taken in before it.  The highest version wins, the edition set must be the same
  everywhere, module bounds tighten, and a pinned module version excludes bounds.
-/
import ScriptModule.Merge.Version
import ScriptModule.Report.Basic
import ScriptModule.Statement
import ScriptModule.Table
import ScriptModule.Text.Casing

namespace ScriptModule

/-! ### Facts -/

/-- One thing that a requirement comment asks for. -/
inductive Fact where
  | legacyAssembly
  | version (text : Text)
  | editions (names : List Text)
  | module (spec : ModuleSpec)
  | elevation
deriving DecidableEq, Repr

/-- The facts of a requirement comment in the order in which they are taken in. -/
def Requires.facts (r : Requires) : List Fact :=
  (if r.assemblies.isEmpty then [] else [.legacyAssembly]) ++
  (r.version.map Fact.version).toList ++
  (if r.editions.isEmpty then [] else [.editions r.editions]) ++
  r.modules.map Fact.module ++
  (if r.runAsAdmin then [.elevation] else [])

/-! ### Module constraints -/

namespace ModuleSpec

def checkVersion (spec : ModuleSpec) (role : VersionRole) (text : Option Text) :
    Except Rejection Unit :=
  match text with
  | none => .ok ()
  | some t =>
    match Version.read? t with
    | .error e => .error (.numeral e)
    | .ok none => .error (.problem (.invalidModuleVersion role t spec.name))
    | .ok (some _) => .ok ()

/-- Refuses a specification with a bound that is no version. -/
def checkVersions (spec : ModuleSpec) : Except Rejection Unit := do
  spec.checkVersion .minimum spec.minVersion
  spec.checkVersion .maximum spec.maxVersion
  spec.checkVersion .required spec.exactVersion

/-- The constraint `c` with the identity that `spec` asks for; the first one is kept. -/
def withGuid (c spec : ModuleSpec) : Except Rejection ModuleSpec :=
  match spec.guid, c.guid with
  | some (d :: g), none => .ok { c with guid := some (d :: g) }
  | some (d :: g), some kept =>
    if Text.sameName kept (d :: g) then .ok c
    else .error (.problem (.guidConflict spec.name kept (d :: g)))
  | _, _ => .ok c

/-- The constraint `c` with the exact version that `spec` asks for. -/
def withPin (c spec : ModuleSpec) : Except Rejection ModuleSpec :=
  match spec.exactVersion with
  | none => .ok c
  | some pin =>
    match c.exactVersion with
    | some kept =>
      if Version.keyOf kept ≠ Version.keyOf pin then
        .error (.problem (.pinConflict spec.name kept pin))
      else if c.minVersion.isSome || c.maxVersion.isSome then
        .error (.problem (.pinAgainstRange spec.name pin))
      else .ok c
    | none =>
      if c.minVersion.isSome || c.maxVersion.isSome then
        .error (.problem (.pinAgainstRange spec.name pin))
      else .ok { c with exactVersion := some pin }

/-- The constraint `c` with the higher of two lower bounds. -/
def withMinimum (c spec : ModuleSpec) : Except Rejection ModuleSpec :=
  match spec.minVersion with
  | none => .ok c
  | some low =>
    match c.exactVersion, c.minVersion with
    | some pin, _ => .error (.problem (.minimumAgainstPin spec.name low pin))
    | none, none => .ok { c with minVersion := some low }
    | none, some kept =>
      if Version.less (Version.keyOf kept) (Version.keyOf low) then
        .ok { c with minVersion := some low }
      else .ok c

/-- The constraint `c` with the lower of two upper bounds. -/
def withMaximum (c spec : ModuleSpec) : Except Rejection ModuleSpec :=
  match spec.maxVersion with
  | none => .ok c
  | some high =>
    match c.exactVersion, c.maxVersion with
    | some pin, _ => .error (.problem (.maximumAgainstPin spec.name high pin))
    | none, none => .ok { c with maxVersion := some high }
    | none, some kept =>
      if Version.less (Version.keyOf high) (Version.keyOf kept) then
        .ok { c with maxVersion := some high }
      else .ok c

/-- The constraint `c` tightened by a specification. -/
def tighten (c spec : ModuleSpec) : Except Rejection ModuleSpec := do
  spec.checkVersions
  let c ← c.withGuid spec
  let c ← c.withPin spec
  let c ← c.withMinimum spec
  c.withMaximum spec

/-- One entry of a module table, if there is something to say. -/
def entry (key : Text) : Option Text → List Text
  | some (d :: v) => [key ++ " = '" ++ (d :: v) ++ "'"]
  | _ => []

/-- A constraint as it stands in a requirement comment. -/
def render (m : ModuleSpec) : Text :=
  match entry "GUID" m.guid ++ entry "ModuleVersion" m.minVersion ++
      entry "MaximumVersion" m.maxVersion ++ entry "RequiredVersion" m.exactVersion with
  | [] => m.name
  | details =>
    "@\x7b " ++ Text.join "; " (("ModuleName = '" ++ m.name ++ "'") :: details) ++ " \x7d"

end ModuleSpec

/-! ### Requirements -/

/-- What a module requires; module constraints are kept by folded name. -/
structure Requirement where
  version : Option (Nat × Nat) := none
  editions : Option (List Text) := none
  modules : Table Text ModuleSpec := Table.empty
  elevation : Bool := false

namespace Requirement

def isEmpty (r : Requirement) : Bool :=
  r.version.isNone && r.editions.isNone && r.modules.isEmpty && !r.elevation

def edition (name : Text) : Text :=
  let f := Text.fold name
  if f = "core".toList then "Core"
  else if f = "desktop".toList then "Desktop"
  else name

/-- A list without neighbours that are equal. -/
def withoutRepeats : List Text → List Text
  | a :: b :: r => if a = b then withoutRepeats (b :: r) else a :: withoutRepeats (b :: r)
  | r => r

/-- The set of editions in sorted order. -/
def editionSet (names : List Text) : List Text :=
  withoutRepeats ((names.map edition).mergeSort Text.le)

def higher (kept : Option (Nat × Nat)) (v : Nat × Nat) : Nat × Nat :=
  match kept with
  | none => v
  | some k => if k.1 < v.1 || (k.1 == v.1 && k.2 < v.2) then v else k

/-- The first two numbers of a version. -/
def majorMinor (v : List Nat) : Nat × Nat := (v.head?.getD 0, (v.drop 1).head?.getD 0)

def require (r : Requirement) : Fact → Except Rejection Requirement
  | .legacyAssembly => .error (.problem .legacyAssembly)
  | .version t =>
    match Version.read? t with
    | .error e => .error (.numeral e)
    | .ok none => .error (.problem (.invalidVersion t))
    | .ok (some v) => .ok { r with version := some (higher r.version (majorMinor v)) }
  | .editions names =>
    let given := editionSet names
    match r.editions with
    | none => .ok { r with editions := some given }
    | some kept =>
      if kept = given then .ok r else .error (.problem (.editionConflict kept given))
  | .module spec =>
    let key := Text.fold spec.name
    match ((r.modules.get? key).getD { name := spec.name }).tighten spec with
    | .error e => .error e
    | .ok c => .ok { r with modules := r.modules.insert key c }
  | .elevation => .ok { r with elevation := true }

/-- Takes in facts up to the first one refused. -/
def requireAll (r : Requirement) : List Fact → Requirement × Option Rejection
  | [] => (r, none)
  | f :: fs =>
    match r.require f with
    | .error e => (r, some e)
    | .ok r' => r'.requireAll fs

def add (r : Requirement) (req : Requires) : Requirement × Option Rejection :=
  r.requireAll req.facts

/-- The requirement comments of the module. -/
def render (r : Requirement) : List Text :=
  (match r.version with
    | some (major, minor) =>
      ["#Requires -Version ".toList ++ Text.ofNat major ++ ['.'] ++ Text.ofNat minor]
    | none => []) ++
  (match r.editions with
    | some (e :: es) => ["#Requires -PSEdition ".toList ++ Text.join ", " (e :: es)]
    | _ => []) ++
  r.modules.values.map (fun m => "#Requires -Modules ".toList ++ m.render) ++
  (if r.elevation then ["#Requires -RunAsAdministrator".toList] else [])

end Requirement
end ScriptModule
