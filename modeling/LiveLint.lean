import LiveLint.Analyzer
import LiveLint.Build
import LiveLint.Buildconf.Argument
import LiveLint.Buildconf.Check
import LiveLint.Buildconf.Check.Bake
import LiveLint.Buildconf.Check.Header
import LiveLint.Buildconf.Check.Reference
import LiveLint.Buildconf.Check.Tool
import LiveLint.Buildconf.Check.Workspace
import LiveLint.Buildconf.Document
import LiveLint.Buildconf.Finding
import LiveLint.Buildconf.Line
import LiveLint.Buildconf.Repeat
import LiveLint.Buildconf.Rule
import LiveLint.CSource.Check
import LiveLint.CSource.Declaration
import LiveLint.CSource.Finding
import LiveLint.CSource.Phrase
import LiveLint.CSource.Rule
import LiveLint.CSource.Statement
import LiveLint.CommandLine.Call
import LiveLint.CommandLine.FileTree
import LiveLint.CommandLine.Path
import LiveLint.CommandLine.Run
import LiveLint.Config.Basic
import LiveLint.Config.Reader
import LiveLint.Decimal.Binary64
import LiveLint.Decimal.Shortest
import LiveLint.Diagnostic
import LiveLint.Editor
import LiveLint.Language.Comment
import LiveLint.Language.Completion
import LiveLint.Language.Highlight
import LiveLint.Language.Profile
import LiveLint.Main
import LiveLint.Marker
import LiveLint.Pattern.Basic
import LiveLint.Pattern.Compose
import LiveLint.Pattern.Ends
import LiveLint.Pattern.Match
import LiveLint.Pattern.Reader
import LiveLint.Report
import LiveLint.Severity
import LiveLint.SourceKind
import LiveLint.Starter
import LiveLint.Text.Blank
import LiveLint.Text.Bytes
import LiveLint.Text.CodeRanges
import LiveLint.Text.Digit
import LiveLint.Text.Lines
import LiveLint.Text.Printable
import LiveLint.Text.Quoted
import LiveLint.Text.Runs
import LiveLint.Text.Search
import LiveLint.Text.WordChar
import LiveLint.Wording
import LiveLint.Workspace.Basic
import LiveLint.Workspace.Inspect
import LiveLint.Workspace.Op
import LiveLint.Yaml.Cursor
import LiveLint.Yaml.Node
import LiveLint.Yaml.Scalar
import LiveLint.Yaml.Token
import LiveLint.Yaml.Value
import LiveLint.Proofs.Lines
import LiveLint.Proofs.Lists
import LiveLint.Proofs.Phrases
import LiveLint.Proofs.Workspace.Frame
import LiveLint.Proofs.Workspace.Settled
import LiveLint.Proofs.Workspace.Ledger
import LiveLint.Proofs.Buildconf.Nesting
import LiveLint.Proofs.Buildconf.Ownership
import LiveLint.Proofs.Buildconf.Faithful
import LiveLint.Proofs.Buildconf.Alike
import LiveLint.Proofs.Buildconf.Moved
import LiveLint.Proofs.Buildconf.Layout
import LiveLint.Proofs.Buildconf.Rearranged
import LiveLint.Proofs.Buildconf.Sections
import LiveLint.Proofs.Workspace.Attached
import LiveLint.Proofs.Workspace.Independence
import LiveLint.Proofs.Buildconf.Catalogue
import LiveLint.Proofs.Buildconf.CrossReference
import LiveLint.Proofs.Buildconf.ArgumentText
import LiveLint.Proofs.Buildconf.LineText
import LiveLint.Proofs.Buildconf.Written
import LiveLint.Proofs.Buildconf.Face
import LiveLint.Proofs.Buildconf.Clean
import LiveLint.Proofs.Buildconf.Project
import LiveLint.Proofs.Buildconf.SoundProject
import LiveLint.Proofs.Workspace.InStep
import LiveLint.Proofs.CSource.Places
import LiveLint.Proofs.CSource.Words
import LiveLint.Proofs.CSource.Reflow
import LiveLint.Proofs.CSource.Layout
import LiveLint.Proofs.Buildconf.Wording
import LiveLint.Proofs.Buildconf.Anchors
import LiveLint.Proofs.CSource.Anchors
import LiveLint.Proofs.Markers
import LiveLint.Proofs.CommandLine.FileByFile
import LiveLint.Proofs.Pattern.Way
import LiveLint.Proofs.Pattern.Complete
import LiveLint.Proofs.Pattern.Matches
import LiveLint.Proofs.Language.Sweep
import LiveLint.Proofs.Language.Rules
import LiveLint.Proofs.Language.Finds
import LiveLint.Proofs.Buildconf.LineShape
import LiveLint.Proofs.Language.Colours
import LiveLint.Proofs.Merging
import LiveLint.Proofs.CSource.Wording
import LiveLint.Proofs.Buildconf.LineGrammar
import LiveLint.Proofs.Pattern.Anchored
import LiveLint.Proofs.Buildconf.LinePatterns
import LiveLint.Proofs.Buildconf.LineReading
import LiveLint.Proofs.CSource.WholeWords
import LiveLint.Proofs.Pattern.Scan
import LiveLint.Proofs.Pattern.Turns
import LiveLint.Proofs.CSource.Followers
import LiveLint.Proofs.CSource.WordPatterns
import LiveLint.Proofs.CSource.DeclarationPattern
import LiveLint.Proofs.CSource.Unused
import LiveLint.Proofs.Buildconf.ArgumentReading
import LiveLint.Proofs.CSource.Literals
import LiveLint.Proofs.CSource.Jumps
import LiveLint.Proofs.CSource.Unread
import LiveLint.Proofs.CSource.PhrasePatterns
import LiveLint.Proofs.CSource.JumpPattern
import LiveLint.Proofs.CSource.LiteralPattern
import LiveLint.Proofs.Buildconf.HeaderPlace
import LiveLint.Proofs.Buildconf.Repetition
import LiveLint.Proofs.Buildconf.Pruned
import LiveLint.Proofs.Buildconf.Inserted
import LiveLint.Proofs.Buildconf.Exported
import LiveLint.Proofs.CSource.OnTop
import LiveLint.Proofs.CSource.Included
import LiveLint.Proofs.Buildconf.Balance
import LiveLint.Proofs.CSource.CatalogueOrder
import LiveLint.Proofs.Pattern.Apart
import LiveLint.Proofs.Language.Overlaps
import LiveLint.Proofs.Configurations
import LiveLint.Proofs.LineNumbers
import LiveLint.Proofs.Language.Offers
import LiveLint.Proofs.Language.Accepted
