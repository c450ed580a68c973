/-
  ScriptModule/Artifact/Snippet.lean
  ==================================
  **Pieces of the written module.**  Regions, aliases, format registration, exports and
  the registration of types.
-/
import ScriptModule.Artifact.Builder
import ScriptModule.Artifact.Literal

namespace ScriptModule.Snippet

/-- A titled region around blocks with a separator between them. -/
def region (title : Text) (blocks : List Text) (separator : Text) : Text :=
  (((({} : Builder).emit ("#region " ++ title)).emitRaw (Text.join separator blocks)).emit
    "#endregion").text

/-- Regions with an empty line between neighbours. -/
def joinRegions (regions : List Text) : Text := Text.join "\n\n" regions ++ "\n"

def setAlias (name target : Text) : Text :=
  "Set-Alias -Name " ++ Literal.quote name ++ " -Value " ++ Literal.quote target

/-- The commands that load a format resource, unless one of its views is there. -/
def formatRegistration (path : Text) (views : List Text) : Text :=
  (((({} : Builder).emit
    ("if (-not (Get-FormatData | ForEach-Object \x7b $_.FormatViewDefinition.Name \x7d | " ++
      "Where-Object \x7b $_ -in @(".toList ++ Literal.list views ++ ") \x7d)) \x7b")).emitNested
    ["Update-FormatData -PrependPath (Join-Path $PSScriptRoot ".toList ++ Literal.quote path
      ++ [')']]).emit "\x7d").text

/-- An option with a list, if the list is not empty. -/
def option (name : Text) : List Text → List Text
  | [] => []
  | ts => [name ++ Literal.list ts]

/-- The command that exports functions, aliases and variables. -/
def exports (functions aliases vars : List Text) : Text :=
  Text.join " " (("Export-ModuleMember -Function ".toList ++ Literal.list functions) ::
    option "-Alias " aliases ++ option "-Variable " vars)

/-- The commands that make types known to the session, and forget them when the module
    is removed. -/
def typeRegistry (names : List Text) : Text :=
  let b := ({} : Builder).emit
    "$typeAccelerators = [psobject].Assembly.GetType('System.Management.Automation.TypeAccelerators')"
  let b := b.emit "$exportableTypes = @("
  let b := b.emitNested (names.map fun n => ['['] ++ n ++ [']'])
  let b := b.emit ")"
  let b := b.emit "foreach ($type in $exportableTypes) \x7b"
  let b := b.emitNested ["$null = $typeAccelerators::Add($type.FullName, $type)"]
  let b := b.emit "\x7d"
  let b := b.emit "$MyInvocation.MyCommand.ScriptBlock.Module.OnRemove = \x7b"
  let b := (b.indent.emit "foreach ($type in $exportableTypes) \x7b").emitNested
    ["$null = $typeAccelerators::Remove($type.FullName)"]
  let b := { b.emit "\x7d" with level := 0 }
  (b.emit "\x7d.GetNewClosure()").text

end ScriptModule.Snippet
