/-
  ScriptModule/Report/Problem.lean
  ================================
  **What can go wrong in a build.**  One constructor per cause, with a code, a
  wording and a severity each.  Only an omission lets the build go on.
-/
import ScriptModule.SectionKind
import ScriptModule.Text.Quoted

namespace ScriptModule

/-! ### Severity -/

/-- How grave a problem is. -/
inductive Severity where
  | omission      -- recognised and left out; the build goes on
  | collision     -- two differing definitions of one thing
  | structural    -- malformed input
deriving DecidableEq, Repr

def Severity.label : Severity → Text
  | .omission => "omission"
  | .collision => "collision"
  | .structural => "structural"

/-- Whether a problem of this severity ends the build. -/
def Severity.isFatal (s : Severity) : Bool := s != .omission

/-! ### Causes -/

/-- Which bound of a module specification a version text stands for. -/
inductive VersionRole where
  | minimum
  | maximum
  | required
deriving DecidableEq, Repr

def VersionRole.label : VersionRole → Text
  | .minimum => "minimum"
  | .maximum => "maximum"
  | .required => "required"

/-- The cause of a problem.  A `found` is the text of the token met instead of the
    expected one, or nothing at the end of the file. -/
inductive Problem where
  -- characters
  | unterminatedString
  | unterminatedHereString
  | unterminatedComment
  | unterminatedVariable
  -- statements
  | unsupportedStatement
  | unsupportedRecord
  | unterminatedGroup (opener : Text)
  -- arguments of a requirement comment
  | unexpectedArgument (found : Option Text)
  | missingVersion
  | missingEdition
  | unsupportedParameter (parameter : Text)
  | missingModule (found : Option Text)
  | unterminatedTable (found : Option Text)
  | unknownModuleKey (key : Text)
  | missingModuleEquals (key : Text)
  | missingModuleValue (key : Text)
  | missingModuleName
  -- assignments
  | missingAssignment (target : Text)
  | missingExpression (target : Text)
  -- imports
  | missingImportKind
  | missingImportName (kind : Text)
  -- enumerations
  | missingEnumName (found : Option Text)
  | missingUnderlyingType (found : Option Text)
  | missingEnumBody (name : Text) (found : Option Text)
  | missingMember (name : Text) (found : Option Text)
  | missingMemberValue (member : Text)
  | badMemberValue (name member value : Text)
  -- classes
  | missingClassName (found : Option Text)
  | missingBaseTypes (name : Text)
  | missingClassBody (name : Text) (found : Option Text)
  -- functions
  | missingFunctionName (found : Option Text)
  | missingScopedName (found : Option Text)
  | missingFunctionBody (name : Text) (found : Option Text)
  -- merged requirements
  | legacyAssembly
  | invalidVersion (version : Text)
  | invalidModuleVersion (role : VersionRole) (version moduleName : Text)
  | editionConflict (kept given : List Text)
  | guidConflict (moduleName kept given : Text)
  | pinConflict (moduleName kept given : Text)
  | pinAgainstRange (moduleName pin : Text)
  | minimumAgainstPin (moduleName minimum pin : Text)
  | maximumAgainstPin (moduleName maximum pin : Text)
  -- merged imports
  | moduleImport (name : Text)
  | unknownImport (text : Text)
  -- definitions
  | duplicateDefinition (kind : SectionKind) (key : Text) (origin : Option Text)
  | conflictingDefinition (kind : SectionKind) (key : Text) (origin : Option Text)
  | rivalDefinition (kind : SectionKind) (key : Text) (rival : SectionKind) (origin : Option Text)
  -- entry points
  | noParameters (name : Text)
  | missingAliasList (found : Option Text)
  | unexpectedAlias (found : Option Text)
  | trailingAlias (found : Option Text)
  | unterminatedAliasGroup
  | shadowingAlias (name entry target : Text)
  -- format resources
  | malformedFormat (cause : Text)
  | unnamedView
  -- files
  | missingRoot (root : Text)
  | unreadableFile (path cause : Text)
  | unwritableFile (path cause : Text)
  | missingDestination (directory : Text)
deriving DecidableEq, Repr

namespace Problem

/-! ### Codes and wordings -/

def code : Problem → Text
  | unterminatedString => "SCN-0010"
  | unterminatedHereString => "SCN-0020"
  | unterminatedComment => "SCN-0030"
  | unterminatedVariable => "SCN-0040"
  | unsupportedStatement | unsupportedRecord => "CLS-0010"
  | unexpectedArgument _ | missingVersion | missingEdition | unsupportedParameter _
  | missingModule _ | unterminatedTable _ | unknownModuleKey _ | missingModuleEquals _
  | missingModuleValue _ | missingModuleName => "CLS-0020"
  | missingAssignment _ | missingExpression _ => "CLS-0021"
  | missingImportKind | missingImportName _ => "CLS-0030"
  | missingEnumName _ | missingUnderlyingType _ | missingEnumBody _ _
  | missingMember _ _ => "CLS-0040"
  | missingMemberValue _ => "CLS-0041"
  | missingClassName _ | missingBaseTypes _ | missingClassBody _ _ => "CLS-0050"
  | missingFunctionName _ | missingScopedName _ | missingFunctionBody _ _ => "CLS-0060"
  | unterminatedGroup _ => "CLS-0070"
  | editionConflict _ _ => "REQ-0010"
  | guidConflict _ _ _ => "REQ-0020"
  | minimumAgainstPin _ _ _ => "REQ-0030"
  | maximumAgainstPin _ _ _ => "REQ-0031"
  | pinConflict _ _ _ | pinAgainstRange _ _ => "REQ-0032"
  | invalidVersion _ | invalidModuleVersion _ _ _ => "REQ-0033"
  | legacyAssembly => "REQ-0040"
  | moduleImport _ => "IMP-0010"
  | unknownImport _ => "IMP-0020"
  | duplicateDefinition _ _ _ => "REG-0010"
  | conflictingDefinition _ _ _ | rivalDefinition _ _ _ _ => "REG-0020"
  | badMemberValue _ _ _ => "TYP-0010"
  | missingAliasList _ | unexpectedAlias _ | trailingAlias _ => "ENT-0010"
  | noParameters _ | unterminatedAliasGroup => "ENT-0011"
  | shadowingAlias _ _ _ => "ENT-0020"
  | malformedFormat _ => "FMT-0010"
  | unnamedView => "FMT-0020"
  | missingRoot _ => "DRV-0010"
  | unreadableFile _ _ => "DRV-0020"
  | unwritableFile _ _ => "DRV-0030"
  | missingDestination _ => "DRV-0040"

/-- How the token met is shown. -/
def shown : Option Text → Text
  | some t => Text.quoted t
  | none => "end-of-file"

/-- Where an earlier definition stands, if its file is known. -/
def originText : Option Text → Text
  | some (c :: f) => " in '" ++ (c :: f) ++ "'"
  | _ => []

/-- The wording of an expectation that another token has disappointed. -/
def expected (what : Text) (found : Option Text) : Text :=
  "expected " ++ what ++ ", got " ++ shown found ++ " instead"

def detail : Problem → Text
  | unterminatedString => "unterminated string literal"
  | unterminatedHereString => "unterminated here-string"
  | unterminatedComment => "unterminated block comment"
  | unterminatedVariable => "unterminated braced variable name"
  | unsupportedStatement => "unsupported top-level statement"
  | unsupportedRecord => "unsupported statement record Statement"
  | unterminatedGroup o => "unterminated '" ++ o ++ "' group"
  | unexpectedArgument f => "unexpected " ++ shown f ++ " in #Requires directive"
  | missingVersion => "expected a version after -Version"
  | missingEdition => "expected an edition after -PSEdition"
  | unsupportedParameter p => "unsupported #Requires parameter '" ++ p ++ "'"
  | missingModule f => "expected a module name or hashtable, got " ++ shown f
  | unterminatedTable f => "unterminated module hashtable at " ++ shown f
  | unknownModuleKey k => "unknown module specification key '" ++ k ++ "'"
  | missingModuleEquals k => "expected '=' after '" ++ k ++ "'"
  | missingModuleValue k => "expected a value for '" ++ k ++ "'"
  | missingModuleName => "module specification is missing 'ModuleName'"
  | missingAssignment t => "expected '=' after variable '" ++ t ++ "'"
  | missingExpression t => "expected expression after '" ++ t ++ " ='"
  | missingImportKind => "expected import kind after 'using'"
  | missingImportName k => "expected name after 'using " ++ k ++ "'"
  | missingEnumName f => expected "enum name" f
  | missingUnderlyingType f => expected "underlying type after ':'" f
  | missingEnumBody n f => expected ("'\x7b' after enum '" ++ n ++ "'") f
  | missingMember n f => expected ("member name in enum '" ++ n ++ "'") f
  | missingMemberValue m => "expected value for enum member '" ++ m ++ "'"
  | badMemberValue n m v =>
    "enum '" ++ n ++ "' member '" ++ m ++ "' has non-integer value '" ++ v ++ "'"
  | missingClassName f => expected "class name" f
  | missingBaseTypes n => "expected base type list for class '" ++ n ++ "'"
  | missingClassBody n f => expected ("'\x7b' after class '" ++ n ++ "'") f
  | missingFunctionName f => expected "function name" f
  | missingScopedName f => expected "function name after scope" f
  | missingFunctionBody n f => expected ("'\x7b' after function '" ++ n ++ "'") f
  | legacyAssembly =>
    "'#Requires -Assembly' is no longer supported; use 'using assembly' instead"
  | invalidVersion v => "invalid version '" ++ v ++ "'"
  | invalidModuleVersion r v m =>
    "invalid " ++ r.label ++ " version '" ++ v ++ "' for module '" ++ m ++ "'"
  | editionConflict old new =>
    "conflicting PSEdition requirements: '" ++ Text.join ", " old ++ "' vs '" ++
      Text.join ", " new ++ "'"
  | guidConflict m old new =>
    "module '" ++ m ++ "' required with conflicting GUIDs '" ++ old ++ "' and '" ++ new ++ "'"
  | pinConflict m old new =>
    "module '" ++ m ++ "' pinned to both '" ++ old ++ "' and '" ++ new ++ "'"
  | pinAgainstRange m pin =>
    "module '" ++ m ++ "' pinned to '" ++ pin ++ "' but also has a version range"
  | minimumAgainstPin m low pin =>
    "module '" ++ m ++ "' minimum version '" ++ low ++ "' conflicts with pinned version '" ++
      pin ++ "'"
  | maximumAgainstPin m high pin =>
    "module '" ++ m ++ "' maximum version '" ++ high ++ "' conflicts with pinned version '" ++
      pin ++ "'"
  | moduleImport n =>
    "'using module " ++ n ++ "' is not supported in a merged module; declare the dependency " ++
      "in the module manifest's RequiredModules instead".toList
  | unknownImport t => "unrecognized import directive '" ++ t ++ "'"
  | duplicateDefinition k key origin =>
    "duplicate " ++ k.label ++ " '" ++ key ++ "' dropped; identical to the definition" ++
      originText origin
  | conflictingDefinition k key origin =>
    "conflicting " ++ k.label ++ " '" ++ key ++ "'; a different definition already exists" ++
      originText origin
  | rivalDefinition k key rival origin =>
    "conflicting " ++ k.label ++ " '" ++ key ++ "'; already defined as " ++ rival.label ++
      originText origin
  | noParameters n => "'" ++ n ++ "' has no top-level parameter block"
  | missingAliasList f => expected "'(' after 'Alias'" f
  | unexpectedAlias f => "unexpected " ++ shown f ++ " in alias list"
  | trailingAlias f => "unexpected " ++ shown f ++ " after alias list"
  | unterminatedAliasGroup => "unterminated alias group"
  | shadowingAlias a e t =>
    "alias '" ++ a ++ "' of '" ++ e ++ "' shadows the existing alias '" ++ a ++ "' -> '" ++
      t ++ "'"
  | malformedFormat c => "malformed format resource: " ++ c
  | unnamedView => "view definition without a name"
  | missingRoot r => "Source root '" ++ r ++ "' is not a directory"
  | unreadableFile p c => "cannot read '" ++ p ++ "': " ++ c
  | unwritableFile p c => "cannot write '" ++ p ++ "': " ++ c
  | missingDestination d => "destination directory '" ++ d ++ "' does not exist"

/-- The message of a problem: its code in brackets, then its wording. -/
def message (p : Problem) : Text := "[" ++ p.code ++ "] " ++ p.detail

def severity : Problem → Severity
  | moduleImport _ | unknownImport _ | duplicateDefinition _ _ _
  | shadowingAlias _ _ _ => .omission
  | editionConflict _ _ | guidConflict _ _ _ | pinConflict _ _ _ | pinAgainstRange _ _
  | minimumAgainstPin _ _ _ | maximumAgainstPin _ _ _ | conflictingDefinition _ _ _
  | rivalDefinition _ _ _ _ => .collision
  | _ => .structural

end Problem
end ScriptModule
