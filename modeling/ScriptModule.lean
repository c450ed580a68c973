import ScriptModule.Artifact.Module
import ScriptModule.CommandLine.Argument
import ScriptModule.CommandLine.Invocation
import ScriptModule.CommandLine.Reading
import ScriptModule.CommandLine.Run
import ScriptModule.Disk.Write
import ScriptModule.Format.View
import ScriptModule.Main
import ScriptModule.Markup.Content
import ScriptModule.Markup.Doctype
import ScriptModule.Markup.Entity
import ScriptModule.Markup.Lexeme
import ScriptModule.Markup.Mark
import ScriptModule.Markup.Tally
import ScriptModule.Project
import ScriptModule.Script.Classify
import ScriptModule.Text.Line
import ScriptModule.Text.Utf8
import ScriptModule.Proofs.Demand
import ScriptModule.Proofs.Substance
import ScriptModule.Proofs.Intake
import ScriptModule.Proofs.Repetition
import ScriptModule.Proofs.TextLaws
import ScriptModule.Proofs.TableRows
import ScriptModule.Proofs.RegistryRuns
import ScriptModule.Proofs.LexemeShape
import ScriptModule.Proofs.Lookahead
import ScriptModule.Proofs.LexemeEnd
import ScriptModule.Proofs.Pieces
import ScriptModule.Proofs.LineCut
import ScriptModule.Proofs.Tiling
import ScriptModule.Proofs.LineRanges
import ScriptModule.Proofs.EntryBody
import ScriptModule.Proofs.CutLines
import ScriptModule.Proofs.Wrapping
import ScriptModule.Proofs.Grammar
import ScriptModule.Proofs.Coverage
import ScriptModule.Proofs.Recast
import ScriptModule.Proofs.Relocation
import ScriptModule.Proofs.Composition
import ScriptModule.Proofs.PrintedNumber
import ScriptModule.Proofs.EnumSource
import ScriptModule.Proofs.CanonicalEnum
import ScriptModule.Proofs.EnumNormalForm
import ScriptModule.Proofs.Literals
import ScriptModule.Proofs.Conjunction
import ScriptModule.Proofs.Excerpt
import ScriptModule.Proofs.Registration
import ScriptModule.Proofs.Lines
import ScriptModule.Proofs.ImportNames
import ScriptModule.Proofs.ImportLines
import ScriptModule.Proofs.BareValue
import ScriptModule.Proofs.PrintedVersion
import ScriptModule.Proofs.RequirementText
import ScriptModule.Proofs.MergedRequirement
import ScriptModule.Proofs.OptionPieces
import ScriptModule.Proofs.RequirementLines
import ScriptModule.Proofs.LexicalProblem
import ScriptModule.Proofs.ParserSteps
import ScriptModule.Proofs.Lowering
import ScriptModule.Proofs.Breakoff
import ScriptModule.Proofs.DirectiveRows
import ScriptModule.Proofs.Routing
import ScriptModule.Proofs.Exports
import ScriptModule.Proofs.Untouched
import ScriptModule.Proofs.Rebasing
import ScriptModule.Proofs.BasesFirst
import ScriptModule.Proofs.DeclaredClasses
import ScriptModule.Proofs.AttributeBlock
import ScriptModule.Proofs.AliasGrammar
import ScriptModule.Proofs.AliasLines
import ScriptModule.Proofs.Rows
import ScriptModule.Proofs.DirectivePlace
import ScriptModule.Proofs.OpenEnd
import ScriptModule.Proofs.Remarks
import ScriptModule.Proofs.LineEnds
import ScriptModule.Proofs.Padding
import ScriptModule.Proofs.TrailingRemark
import ScriptModule.Proofs.EntrySpan
import ScriptModule.Proofs.LineComments
import ScriptModule.Proofs.RefusedRequirement
import ScriptModule.Proofs.LiteralGrammar
import ScriptModule.Proofs.MemberValues
import ScriptModule.Proofs.AliasTargets
import ScriptModule.Proofs.AssemblyOrder
import ScriptModule.Proofs.NamespaceSpelling
import ScriptModule.Proofs.ReportPlaces
import ScriptModule.Proofs.ShownLines
import ScriptModule.Proofs.VersionOrder
import ScriptModule.Proofs.SectionWrites
import ScriptModule.Proofs.TypeNames
import ScriptModule.Proofs.SourceFiles
import ScriptModule.Proofs.Nesting
import ScriptModule.Proofs.SingleSpacing
