import ApiScribe.Client.Options
import ApiScribe.Client.Source
import ApiScribe.Code.Assembly
import ApiScribe.Code.Basic
import ApiScribe.Code.Render
import ApiScribe.CommandLine.Arguments
import ApiScribe.CommandLine.Run
import ApiScribe.CommandLine.Suggestion
import ApiScribe.CommandLine.Usage
import ApiScribe.Delivery
import ApiScribe.Document.Error
import ApiScribe.Document.File
import ApiScribe.Document.Reader
import ApiScribe.Event
import ApiScribe.FileSystem.Basic
import ApiScribe.FileSystem.Directories
import ApiScribe.FileSystem.Path
import ApiScribe.Json.Basic
import ApiScribe.Json.Printed
import ApiScribe.Json.Reader
import ApiScribe.Json.Syntax
import ApiScribe.Main
import ApiScribe.Number.Basic
import ApiScribe.Number.Binary64
import ApiScribe.Number.Printed
import ApiScribe.Number.Shortest
import ApiScribe.Proofs.Client.Additions
import ApiScribe.Proofs.Client.ClassNames
import ApiScribe.Proofs.Client.Edits
import ApiScribe.Proofs.Client.Navigation
import ApiScribe.Proofs.Client.NormalForm
import ApiScribe.Proofs.Client.Subtrees
import ApiScribe.Proofs.Client.Translation
import ApiScribe.Proofs.Client.Unsupported
import ApiScribe.Proofs.Client.Urls
import ApiScribe.Proofs.Client.Walk
import ApiScribe.Proofs.Code.Assembly
import ApiScribe.Proofs.Code.Block
import ApiScribe.Proofs.Code.Body
import ApiScribe.Proofs.Code.Objects
import ApiScribe.Proofs.Code.Unambiguous
import ApiScribe.Proofs.Code.WellFormed
import ApiScribe.Proofs.CommandLine.Generate
import ApiScribe.Proofs.Document.Checks
import ApiScribe.Proofs.Document.FirstError
import ApiScribe.Proofs.Document.Language
import ApiScribe.Proofs.Document.NamedNode
import ApiScribe.Proofs.Document.Places
import ApiScribe.Proofs.Document.Readable
import ApiScribe.Proofs.Document.Scopes
import ApiScribe.Proofs.Document.Stored
import ApiScribe.Proofs.Document.Tree
import ApiScribe.Proofs.FileSystem.Changes
import ApiScribe.Proofs.FileSystem.Deliveries
import ApiScribe.Proofs.FileSystem.Downward
import ApiScribe.Proofs.FileSystem.Paths
import ApiScribe.Proofs.FileSystem.Trees
import ApiScribe.Proofs.Json.Grammar
import ApiScribe.Proofs.Json.Keyed
import ApiScribe.Proofs.Json.Newlines
import ApiScribe.Proofs.Schema.Acyclic
import ApiScribe.Proofs.Schema.Additions
import ApiScribe.Proofs.Schema.Branches
import ApiScribe.Proofs.Schema.Editing
import ApiScribe.Proofs.Schema.Entered
import ApiScribe.Proofs.Schema.Preorder
import ApiScribe.Proofs.Schema.Registered
import ApiScribe.Proofs.Scope.Lineage
import ApiScribe.Proofs.Scope.Readers
import ApiScribe.Proofs.Table
import ApiScribe.Proofs.Template.Composition
import ApiScribe.Proofs.Template.Evaluation
import ApiScribe.Proofs.Template.Grammar
import ApiScribe.Proofs.Template.Recovery
import ApiScribe.Proofs.Template.Refusal
import ApiScribe.Proofs.Text.Controls
import ApiScribe.Proofs.Text.Delimited
import ApiScribe.Proofs.Text.Identifier
import ApiScribe.Proofs.Text.Lines
import ApiScribe.Proofs.Text.Literal
import ApiScribe.Proofs.Text.Newlines
import ApiScribe.Proofs.Text.Quoting
import ApiScribe.Schema.Basic
import ApiScribe.Schema.Outline
import ApiScribe.Schema.Registry
import ApiScribe.Scope
import ApiScribe.Table
import ApiScribe.Template
import ApiScribe.Text.Ansi
import ApiScribe.Text.Casing
import ApiScribe.Text.Hex
import ApiScribe.Text.Lines
import ApiScribe.Text.Loose
import ApiScribe.Text.Printed
import ApiScribe.Text.Quoted
import ApiScribe.Text.Utf8
import ApiScribe.Unicode.CaseIgnorable
import ApiScribe.Unicode.Cased
import ApiScribe.Unicode.Lower
import ApiScribe.Unicode.Ranges
import ApiScribe.Unicode.Unprintable
import ApiScribe.Unicode.Upper
