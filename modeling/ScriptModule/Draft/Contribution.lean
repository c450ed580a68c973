/-
  ScriptModule/Draft/Contribution.lean
  ====================================
  **Contributions.**  What a file adds to a module, in steps that are each taken in
  whole or not at all.  A file that cannot be read contributes what stands in front of
  the mistake, and then a refusal.
-/
import ScriptModule.Format.View
import ScriptModule.Log
import ScriptModule.Merge.EnumText
import ScriptModule.Merge.Requirement
import ScriptModule.Script.Classify
import ScriptModule.Script.EntryPoint

namespace ScriptModule

/-! ### Places -/

/-- Where something stands, and its text. -/
structure Place where
  filename : Option Text := none
  line : Option Int := none
  column : Option Int := none
  text : Option Text := none
deriving DecidableEq, Repr

def Place.report (p : Place) (problem : Problem) : Report :=
  ⟨problem, p.filename, p.line, p.column, p.text⟩

def Statement.place (s : Statement) : Place where
  filename := s.filename
  line := s.span.map Span.startLine
  column := s.span.map Span.startColumn
  text := some s.text

/-! ### Contributions -/

/-- One step in the making of a module. -/
inductive Contribution where
  | event (e : LogEvent)                            -- something to be said
  | warning (r : Report)
  | fact (f : Fact) (place : Place)                 -- a requirement
  | importing (i : Import) (place : Place)
  | definition (kind : SectionKind) (key value : Text) (rivals : List SectionKind)
      (place : Place)
  | classType (c : ClassDef) (text : Text) (place : Place)
  | refusal (f : Failure)                           -- never taken in
deriving DecidableEq, Repr

/-- A message for those who want every detail. -/
def Contribution.debug (text : Text) : Contribution := .event (.message .debug text)

/-- The contribution of an enumeration: its canonical text. -/
def EnumDef.contribution (e : EnumDef) (place : Place) : Contribution :=
  match e.canonicalText with
  | .ok text => .definition .enumeration e.name text [] place
  | .error (.problem p) => .refusal (.report ({ place with column := none }.report p))
  | .error (.numeral n) => .refusal (.abort (.numeral n))

def Statement.contributions (s : Statement) : List Contribution :=
  match s.content with
  | .requirement r => r.facts.map fun f => .fact f s.place
  | .importing i => [.importing i s.place]
  | .enumeration e => [e.contribution s.place]
  | .classType c => [.classType c s.text s.place]
  | .assignment v => [.definition .variable v.name v.render [] s.place]
  | .function name => [.definition .function name s.text [.entryPoint] s.place]
  | .other =>
    [.refusal (.report { problem := .unsupportedRecord, filename := s.filename })]

/-- The contributions of an entry point: its directives, the function it becomes, and
    its aliases. -/
def EntryPoint.contributions (e : EntryPoint) : List Contribution :=
  e.directives.flatMap Statement.contributions ++
    .definition .entryPoint e.name e.render [.function]
      ⟨e.filename, e.span.map Span.startLine, none, some e.body⟩ ::
    e.aliases.map fun a =>
      .definition .aliasName a.name e.name [] ⟨e.filename, some a.line, some a.column, some a.name⟩

/-! ### Files -/

/-- The name of the function that a script becomes. -/
def entryPointName (filename : Text) : Text := Path.stem (Path.baseName filename)

/-- The contributions of a script that is an entry point. -/
def Script.entryContributions (known : KnownAliases) (filename : Text) (sc : Script) :
    List Contribution :=
  match sc.extract known (entryPointName filename) with
  | .error r => [.refusal (.report r)]
  | .ok (e, ws) => ws.map Contribution.warning ++ e.contributions

/-- The contributions of a script that is a row of statements. -/
def Script.statementContributions (filename : Text) (sc : Script) : List Contribution :=
  match sc.statements with
  | .error r => [.refusal (.report r)]
  | .ok ss =>
    Contribution.debug
        ("'" ++ filename ++ "' has " ++ Text.ofNat ss.length ++ " statement(s)") ::
      ss.flatMap Statement.contributions

/-- The contributions of a script file; `position` is its number among how many. -/
def sourceContributions (known : KnownAliases) (source filename : Text)
    (position : Option (Int × Int)) : List Contribution :=
  .event (.stage "Ingesting" filename position) ::
    match scan source with
    | .error e => [.refusal (.report (e.report filename))]
    | .ok s =>
      let sc : Script := ⟨some filename, source, s.tokens, s.stop⟩
      if sc.isEntryPoint then
        Contribution.debug ("'" ++ filename ++ "' is an entry point") ::
          sc.entryContributions known filename
      else sc.statementContributions filename

/-- The contributions of the views that a format resource declares; `resource` is the path
    that the module loads it from. -/
def viewContributions (filename resource : Text) (views : List Text) : List Contribution :=
  (views.map fun v =>
    Contribution.definition .formatView v resource [] ⟨some filename, none, none, some v⟩) ++
  [Contribution.debug
    ("Registered " ++ Text.ofNat views.length ++ " view(s) from '" ++ filename ++ "'")]

end ScriptModule
