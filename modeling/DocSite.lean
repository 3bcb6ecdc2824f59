import DocSite.Command.Bar
import DocSite.Command.Request
import DocSite.Command.Run
import DocSite.Config.Basic
import DocSite.Config.Document
import DocSite.Config.Expand
import DocSite.Config.Load
import DocSite.Decimal
import DocSite.Decl
import DocSite.Dict
import DocSite.Digest
import DocSite.DocComment
import DocSite.Extract
import DocSite.FileTree.Access
import DocSite.FileTree.Basic
import DocSite.FileTree.Change
import DocSite.FileTree.Follow
import DocSite.FileTree.Walk
import DocSite.Filenames
import DocSite.Json.Node
import DocSite.Json.Record
import DocSite.Json.Writer
import DocSite.Main
import DocSite.Markdown.Block
import DocSite.Markdown.Cursor
import DocSite.Markdown.Definition
import DocSite.Markdown.Document
import DocSite.Markdown.Emphasis
import DocSite.Markdown.Entity
import DocSite.Markdown.EntityTable
import DocSite.Markdown.Event
import DocSite.Markdown.Mark
import DocSite.Markdown.Phrase
import DocSite.Markdown.Raw
import DocSite.Markdown.Reader
import DocSite.Markdown.Target
import DocSite.Markdown.Token
import DocSite.Markdown.Writer
import DocSite.Mask
import DocSite.Model
import DocSite.Path
import DocSite.Proofs.ArrayMark
import DocSite.Proofs.Command
import DocSite.Proofs.Config
import DocSite.Proofs.Except
import DocSite.Proofs.FileTree.Aim
import DocSite.Proofs.FileTree.Creation
import DocSite.Proofs.FileTree.Emptying
import DocSite.Proofs.FileTree.Entries
import DocSite.Proofs.FileTree.Follow
import DocSite.Proofs.FileTree.Growth
import DocSite.Proofs.FileTree.Join
import DocSite.Proofs.FileTree.Location
import DocSite.Proofs.FileTree.Removal
import DocSite.Proofs.FileTree.Replay
import DocSite.Proofs.FileTree.Success
import DocSite.Proofs.FileTree.Walk
import DocSite.Proofs.Lookup
import DocSite.Proofs.Mask
import DocSite.Proofs.Model
import DocSite.Proofs.Path
import DocSite.Proofs.ShortName
import DocSite.Proofs.Site.Accounting
import DocSite.Proofs.Site.Ancestry
import DocSite.Proofs.Site.Anchor
import DocSite.Proofs.Site.Closure
import DocSite.Proofs.Site.Confinement
import DocSite.Proofs.Site.Coverage
import DocSite.Proofs.Site.Cycle
import DocSite.Proofs.Site.Fault
import DocSite.Proofs.Site.Groupings
import DocSite.Proofs.Site.Groups
import DocSite.Proofs.Site.Index
import DocSite.Proofs.Site.Label
import DocSite.Proofs.Site.Line
import DocSite.Proofs.Site.Lineage
import DocSite.Proofs.Site.Mirror
import DocSite.Proofs.Site.Order
import DocSite.Proofs.Site.Output
import DocSite.Proofs.Site.Page
import DocSite.Proofs.Site.PageName
import DocSite.Proofs.Site.Patterns
import DocSite.Proofs.Site.Regeneration
import DocSite.Proofs.Site.Replay
import DocSite.Proofs.Site.Run
import DocSite.Proofs.Site.Token
import DocSite.Proofs.Site.View
import DocSite.Proofs.Site.Written
import DocSite.Proofs.Template.Keeps
import DocSite.Proofs.Template.Run
import DocSite.Proofs.Template.Source
import DocSite.Proofs.Template.StaticFile
import DocSite.Proofs.Text.Cut
import DocSite.Proofs.Text.Order
import DocSite.Proofs.Wipe.Completion
import DocSite.Proofs.Wipe.Confinement
import DocSite.Proofs.Wipe.Fixpoint
import DocSite.Proofs.Wipe.Frame
import DocSite.Proofs.Wipe.Success
import DocSite.Proofs.Wipe.Undo
import DocSite.Site.FileSet
import DocSite.Site.Generate
import DocSite.Site.Highlight
import DocSite.Site.Index
import DocSite.Site.Label
import DocSite.Site.Links
import DocSite.Site.Page
import DocSite.Site.Progress
import DocSite.Site.View
import DocSite.Site.Wipe
import DocSite.Template.Args
import DocSite.Template.Datum
import DocSite.Template.Engine
import DocSite.Template.Escape
import DocSite.Template.Fault
import DocSite.Template.Filter
import DocSite.Template.Machine
import DocSite.Template.Predicate
import DocSite.Template.Reader.Expr
import DocSite.Template.Reader.Stmt
import DocSite.Template.Run
import DocSite.Template.Syntax
import DocSite.Template.Token
import DocSite.Text.Blank
import DocSite.Text.Case
import DocSite.Text.CaseTable
import DocSite.Text.Class
import DocSite.Text.ClassTable
import DocSite.Text.Cut
import DocSite.Text.Escape
import DocSite.Text.Lossy
import DocSite.Text.NameOrder
import DocSite.Toml.Basic
import DocSite.Toml.Moment
import DocSite.Toml.Reader
import DocSite.Value
import DocSite.Proofs.Site.Relatives
import DocSite.Proofs.Config.Discovery
import DocSite.Proofs.Config.References
import DocSite.Proofs.DocComment
import DocSite.Proofs.Config.Variables
import DocSite.Proofs.RelativePath
import DocSite.Proofs.Site.Fragment
import DocSite.Proofs.Site.Highlight
import DocSite.Proofs.Value
import DocSite.Proofs.Text.NameOrder
import DocSite.Proofs.Site.Progress
import DocSite.Proofs.Command.Bar
