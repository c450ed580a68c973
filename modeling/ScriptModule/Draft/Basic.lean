/-
  ScriptModule/Draft/Basic.lean
  =============================
  **Drafts.**  A draft is a module in the making: what has been merged so far, the
  warnings, and what was said on the way.  Contributions are taken in one after
  another, up to the first one refused; what was taken in before it stays.
-/
import ScriptModule.Draft.Contribution
import ScriptModule.Merge.ClassOrder
import ScriptModule.Merge.Imports
import ScriptModule.Merge.Registry

namespace ScriptModule

/-- A module in the making; classes are kept by folded name, each with its text. -/
structure Draft where
  requirement : Requirement := {}
  imports : Imports := {}
  registry : Registry := {}
  classes : Table Text DeclaredClass := Table.empty
  warnings : List Report := []
  log : List LogEvent := []

namespace Draft

/-! ### One contribution -/

def say (d : Draft) (e : LogEvent) : Draft := { d with log := d.log ++ [e] }

/-- Keeps a warning and says it. -/
def warn (d : Draft) (r : Report) : Draft :=
  { d with warnings := d.warnings ++ [r] }.say (.diagnostic r.diagnostic)

/-- Goes on after a merge unless its problem ends the build; a lesser one is a warning. -/
def judge (d : Draft) (place : Place) : Option Problem → Except Failure Draft
  | none => .ok d
  | some p =>
    if p.severity.isFatal then .error (.report (place.report p))
    else .ok (d.warn (place.report p))

/-- Takes in one contribution, or refuses it. -/
def take (d : Draft) : Contribution → Except Failure Draft
  | .event e => .ok (d.say e)
  | .warning r => .ok (d.warn r)
  | .fact f place =>
    match d.requirement.require f with
    | .ok r => .ok { d with requirement := r }
    | .error (.problem p) => .error (.report (place.report p))
    | .error (.numeral n) => .error (.abort (.numeral n))
  | .importing i place =>
    let (imports, problem) := d.imports.add i (place.text.getD [])
    { d with imports := imports }.judge place problem
  | .definition kind key value rivals place =>
    let (registry, problem) := d.registry.add kind key value place.filename rivals
    { d with registry := registry }.judge place problem
  | .classType c text place =>
    let (registry, problem) := d.registry.add .classType c.name text place.filename []
    let classes :=
      if problem.isNone then d.classes.insert (Text.fold c.name) ⟨c, text⟩ else d.classes
    { d with registry := registry, classes := classes }.judge place problem
  | .refusal f => .error f

/-! ### Many contributions -/

/-- Takes in contributions up to the first one refused. -/
def takeAll (d : Draft) : List Contribution → Draft × Option Failure
  | [] => (d, none)
  | c :: cs =>
    match d.take c with
    | .error f => (d, some f)
    | .ok d' => d'.takeAll cs

/-- Taking in contributions in two goes is taking them in at once. -/
theorem takeAll_append (d : Draft) (cs es : List Contribution) :
    d.takeAll (cs ++ es) =
      match d.takeAll cs with
      | (d', none) => d'.takeAll es
      | (d', some f) => (d', some f) := by
  induction cs generalizing d with
  | nil => rfl
  | cons c cs ih =>
    simp only [List.cons_append, takeAll]
    cases d.take c with
    | error f => rfl
    | ok d' => exact ih d'

/-- Takes in a statement; gives whether it was taken in without a warning. -/
def addStatement (d : Draft) (s : Statement) : Draft × Except Failure Bool :=
  match d.takeAll s.contributions with
  | (d', some f) => (d', .error f)
  | (d', none) => (d', .ok (d'.warnings.length == d.warnings.length))

/-- Takes in contributions that end in an entry point and its aliases; gives whether
    the entry point of that name is new. -/
def addEntry (d : Draft) (name : Text) (cs : List Contribution) : Draft × Except Failure Bool :=
  match d.takeAll cs with
  | (d', some f) => (d', .error f)
  | (d', none) => (d', .ok ((d.registry.sectionOf .entryPoint).find? name).isNone)

def addEntryPoint (d : Draft) (e : EntryPoint) : Draft × Except Failure Bool :=
  d.addEntry e.name e.contributions

/-- Takes in a script as an entry point, whether it has parameters or not. -/
def addEntrySource (known : KnownAliases) (d : Draft) (source filename : Text) :
    Draft × Except Failure Bool :=
  match Script.ofSource (some filename) source with
  | .error r => (d, .error (.report r))
  | .ok sc => d.addEntry (entryPointName filename) (sc.entryContributions known filename)

def addSource (known : KnownAliases) (d : Draft) (source filename : Text)
    (position : Option (Int × Int)) : Draft × Option Failure :=
  d.takeAll (sourceContributions known source filename position)

/-- Takes in a format resource; gives the names of its views. -/
def addFormat (d : Draft) (document filename resource : Text) :
    Draft × Except Failure (List Text) :=
  match Format.viewNames document (some filename) with
  | .error r => (d, .error (.report r))
  | .ok views =>
    match d.takeAll (viewContributions filename resource views) with
    | (d', some f) => (d', .error f)
    | (d', none) => (d', .ok views)

end Draft
end ScriptModule
