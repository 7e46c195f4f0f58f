import ScriptTypings.CommandLine.Arguments
import ScriptTypings.CommandLine.Choice
import ScriptTypings.CommandLine.Outcome
import ScriptTypings.CommandLine.Run
import ScriptTypings.CommandLine.Word
import ScriptTypings.Corpus.Basic
import ScriptTypings.Corpus.Build
import ScriptTypings.Corpus.Cache
import ScriptTypings.Corpus.Encoding
import ScriptTypings.Corpus.Extension
import ScriptTypings.Corpus.Validation
import ScriptTypings.Declarations.Comment
import ScriptTypings.Declarations.Emitter
import ScriptTypings.Declarations.Name
import ScriptTypings.Declarations.Signature
import ScriptTypings.Declarations.TypeName
import ScriptTypings.Entry.Basic
import ScriptTypings.Entry.Encoding
import ScriptTypings.Identifier
import ScriptTypings.Inputs
import ScriptTypings.Json.Basic
import ScriptTypings.Json.Display
import ScriptTypings.Json.Document
import ScriptTypings.Json.Equality
import ScriptTypings.Json.Reader
import ScriptTypings.Json.Token
import ScriptTypings.Json.Writer
import ScriptTypings.Log
import ScriptTypings.Main
import ScriptTypings.Markup.DefinitionList
import ScriptTypings.Markup.NameTable
import ScriptTypings.Markup.Nesting
import ScriptTypings.Markup.Node
import ScriptTypings.Markup.Reader
import ScriptTypings.Markup.Reference
import ScriptTypings.Markup.Section
import ScriptTypings.Markup.Table
import ScriptTypings.Markup.Token
import ScriptTypings.Merge.Event
import ScriptTypings.Merge.Expansion
import ScriptTypings.Merge.Mention
import ScriptTypings.Merge.Merger
import ScriptTypings.Merge.Resolution
import ScriptTypings.Merge.ShortNames
import ScriptTypings.NameMap
import ScriptTypings.Number.Binary64
import ScriptTypings.Number.Fixed
import ScriptTypings.Number.Rounding
import ScriptTypings.Number.Shortest
import ScriptTypings.Page.Basic
import ScriptTypings.Page.Document
import ScriptTypings.Page.Entries
import ScriptTypings.Page.Error
import ScriptTypings.Page.EventSyntax
import ScriptTypings.Page.Inheritance
import ScriptTypings.Page.Title
import ScriptTypings.Page.TypeSpelling
import ScriptTypings.Reflected
import ScriptTypings.Session.Basic
import ScriptTypings.Session.Failure
import ScriptTypings.Settings
import ScriptTypings.Storage.Content
import ScriptTypings.Storage.Folder
import ScriptTypings.Storage.Path
import ScriptTypings.Supplies.Bundled
import ScriptTypings.Supplies.Table
import ScriptTypings.Surface.Basic
import ScriptTypings.Surface.Coverage
import ScriptTypings.Surface.Dump
import ScriptTypings.Text.Blank
import ScriptTypings.Text.CaseTable
import ScriptTypings.Text.Classes
import ScriptTypings.Text.LowerCase
import ScriptTypings.Text.Percent
import ScriptTypings.Text.PrintableTable
import ScriptTypings.Text.Quoted
import ScriptTypings.Text.Search
import ScriptTypings.Text.Utf8
import ScriptTypings.Text.WordTable
import ScriptTypings.Trace
import ScriptTypings.TypeExpr
import ScriptTypings.TypeText
import ScriptTypings.Proofs.Corpus.Building
import ScriptTypings.Proofs.Corpus.Cache
import ScriptTypings.Proofs.Corpus.Reloading
import ScriptTypings.Proofs.Corpus.Reuse
import ScriptTypings.Proofs.Corpus.RoundTrip
import ScriptTypings.Proofs.Corpus.WellFormed
import ScriptTypings.Proofs.Declarations.Comment
import ScriptTypings.Proofs.Declarations.Descriptions
import ScriptTypings.Proofs.Declarations.Snippets
import ScriptTypings.Proofs.Entry.Encoding
import ScriptTypings.Proofs.Json.Readable
import ScriptTypings.Proofs.Json.Document
import ScriptTypings.Proofs.Json.RoundTrip
import ScriptTypings.Proofs.Json.Scanning
import ScriptTypings.Proofs.Merge.Backfill
import ScriptTypings.Proofs.Merge.Backfilled
import ScriptTypings.Proofs.Merge.Closure
import ScriptTypings.Proofs.Merge.Leaves
import ScriptTypings.Proofs.Merge.Memory
import ScriptTypings.Proofs.Merge.Repetition
import ScriptTypings.Proofs.Merge.Worklist
import ScriptTypings.Proofs.Page.WellTyped
import ScriptTypings.Proofs.Surface.Declared
import ScriptTypings.Proofs.Surface.WellTyped
import ScriptTypings.Proofs.Corpus.Linking
import ScriptTypings.Proofs.Text.CamelCase
import ScriptTypings.Proofs.Merge.Family
import ScriptTypings.Proofs.Page.TypeSpelling
import ScriptTypings.Proofs.Page.Unguarded
import ScriptTypings.Proofs.Page.Faultless
import ScriptTypings.Proofs.Page.Keys
import ScriptTypings.Proofs.Corpus.Outcome
import ScriptTypings.Proofs.Text.Ascii
import ScriptTypings.Proofs.Page.Canonical
import ScriptTypings.Proofs.Corpus.Canonical
import ScriptTypings.Proofs.Merge.Checked
import ScriptTypings.Proofs.Declarations.Listeners
import ScriptTypings.Proofs.Merge.Listeners
import ScriptTypings.Proofs.Declarations.Distinct
import ScriptTypings.Proofs.Declarations.Keys
import ScriptTypings.Proofs.Declarations.Completion
import ScriptTypings.Proofs.Declarations.Leaves
import ScriptTypings.Proofs.Merge.Distinct
import ScriptTypings.Proofs.Merge.WellTyped
import ScriptTypings.Proofs.Merge.DeclaredLeaves
import ScriptTypings.Proofs.Reflected
import ScriptTypings.Proofs.Session.Decoding
import ScriptTypings.Proofs.CommandLine.Repeated
import ScriptTypings.Proofs.CommandLine.Failed
import ScriptTypings.Proofs.CommandLine.Malformed
import ScriptTypings.Proofs.Corpus.Maximal
import ScriptTypings.Proofs.Merge.ShortNames
import ScriptTypings.Proofs.Declarations.TypeName
import ScriptTypings.Proofs.Declarations.Promise
import ScriptTypings.Proofs.Page.HelpLink
import ScriptTypings.Proofs.Merge.Remembered
import ScriptTypings.Proofs.Page.Inheritance
import ScriptTypings.Proofs.Page.Wrapping
import ScriptTypings.Proofs.Merge.Mentioned
import ScriptTypings.Proofs.Markup.Outline
import ScriptTypings.Proofs.Markup.Definitions
import ScriptTypings.Proofs.Declarations.Outputs
import ScriptTypings.Proofs.Declarations.Constructors
import ScriptTypings.Proofs.Merge.Ambiguity
import ScriptTypings.Proofs.Supplies.Normalizing
import ScriptTypings.Proofs.Page.NamespaceListing
import ScriptTypings.Proofs.Surface.Dumped
import ScriptTypings.Proofs.Merge.Dumped
import ScriptTypings.Proofs.Merge.TypeParameters
import ScriptTypings.Proofs.TypeText.Commas
