/-
  ScriptModule/KnownAliases.lean
  ==============================
  **Aliases that exist already.**  Every session has some aliases; more may be
  declared.  Declarations are kept under the exact name, and looked up by any
  spelling of it: the first one in the table counts.
-/
import ScriptModule.Table
import ScriptModule.Text.Casing

namespace ScriptModule

/-- Existing aliases with the commands they stand for. -/
abbrev KnownAliases := Table Text Text

namespace KnownAliases

/-- Adds a declaration, or changes the target of the same exact name. -/
def declare (known : KnownAliases) (name target : Text) : KnownAliases :=
  known.insert name target

/-- The command that an alias stands for, in any spelling. -/
def target? (known : KnownAliases) (name : Text) : Option Text :=
  (known.rows.find? fun r => Text.sameName r.1 name).map Prod.snd

def builtinList : List (String × String) := [
  ("%", "ForEach-Object"),
  ("?", "Where-Object"),
  ("cat", "Get-Content"),
  ("cd", "Set-Location"),
  ("chdir", "Set-Location"),
  ("clc", "Clear-Content"),
  ("clear", "Clear-Host"),
  ("cls", "Clear-Host"),
  ("copy", "Copy-Item"),
  ("cp", "Copy-Item"),
  ("del", "Remove-Item"),
  ("dir", "Get-ChildItem"),
  ("echo", "Write-Output"),
  ("erase", "Remove-Item"),
  ("foreach", "ForEach-Object"),
  ("ft", "Format-Table"),
  ("fl", "Format-List"),
  ("gal", "Get-Alias"),
  ("gc", "Get-Content"),
  ("gci", "Get-ChildItem"),
  ("gcm", "Get-Command"),
  ("gi", "Get-Item"),
  ("gl", "Get-Location"),
  ("gm", "Get-Member"),
  ("gp", "Get-ItemProperty"),
  ("gps", "Get-Process"),
  ("group", "Group-Object"),
  ("gsv", "Get-Service"),
  ("gv", "Get-Variable"),
  ("iex", "Invoke-Expression"),
  ("ii", "Invoke-Item"),
  ("irm", "Invoke-RestMethod"),
  ("iwr", "Invoke-WebRequest"),
  ("kill", "Stop-Process"),
  ("ls", "Get-ChildItem"),
  ("man", "help"),
  ("md", "mkdir"),
  ("measure", "Measure-Object"),
  ("mi", "Move-Item"),
  ("move", "Move-Item"),
  ("mv", "Move-Item"),
  ("ni", "New-Item"),
  ("nv", "New-Variable"),
  ("ogv", "Out-GridView"),
  ("popd", "Pop-Location"),
  ("ps", "Get-Process"),
  ("pushd", "Push-Location"),
  ("pwd", "Get-Location"),
  ("r", "Invoke-History"),
  ("rd", "Remove-Item"),
  ("ren", "Rename-Item"),
  ("ri", "Remove-Item"),
  ("rm", "Remove-Item"),
  ("rmdir", "Remove-Item"),
  ("rv", "Remove-Variable"),
  ("sal", "Set-Alias"),
  ("select", "Select-Object"),
  ("set", "Set-Variable"),
  ("si", "Set-Item"),
  ("sl", "Set-Location"),
  ("sleep", "Start-Sleep"),
  ("sort", "Sort-Object"),
  ("sp", "Set-ItemProperty"),
  ("start", "Start-Process"),
  ("sv", "Set-Variable"),
  ("tee", "Tee-Object"),
  ("type", "Get-Content"),
  ("where", "Where-Object"),
  ("write", "Write-Output")]

def builtin : KnownAliases :=
  builtinList.foldl (fun known r => known.declare r.1 r.2) Table.empty

end KnownAliases
end ScriptModule
