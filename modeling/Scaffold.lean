import Scaffold.Build
import Scaffold.CommandLine.Arguments
import Scaffold.CommandLine.Program
import Scaffold.CommandLine.Reader
import Scaffold.Config
import Scaffold.Config.Load
import Scaffold.Decode
import Scaffold.Disk.Basic
import Scaffold.Entries
import Scaffold.Failure
import Scaffold.Input
import Scaffold.Json.Basic
import Scaffold.Json.Draft
import Scaffold.Json.Indented
import Scaffold.Json.Numeral
import Scaffold.Json.Printer
import Scaffold.Main
import Scaffold.Markup.Document
import Scaffold.Markup.Event
import Scaffold.Markup.Fault
import Scaffold.Markup.Reference
import Scaffold.Number.Binary64
import Scaffold.Number.Powers
import Scaffold.Number.Shortest
import Scaffold.Number.Written
import Scaffold.Path
import Scaffold.Pipeline
import Scaffold.Proofs.Build.Confinement
import Scaffold.Proofs.Build.FinalState
import Scaffold.Proofs.Build.Items
import Scaffold.Proofs.Build.Obstructed
import Scaffold.Proofs.Build.Rebuild
import Scaffold.Proofs.Build.Report
import Scaffold.Proofs.Build.Run
import Scaffold.Proofs.Disk.Ancestors
import Scaffold.Proofs.Disk.Below
import Scaffold.Proofs.Disk.Files
import Scaffold.Proofs.Disk.Ordered
import Scaffold.Proofs.Disk.Paths
import Scaffold.Proofs.Disk.Reach
import Scaffold.Proofs.Disk.View
import Scaffold.Proofs.Entries
import Scaffold.Proofs.Json.Draft
import Scaffold.Proofs.Json.Lexeme
import Scaffold.Proofs.Json.Printed
import Scaffold.Proofs.Json.Proper
import Scaffold.Proofs.Json.Spelling
import Scaffold.Proofs.Markup.Item
import Scaffold.Proofs.Markup.Modes
import Scaffold.Proofs.Markup.Reader
import Scaffold.Proofs.Markup.Reads
import Scaffold.Proofs.Markup.Root
import Scaffold.Proofs.Markup.RoundTrip
import Scaffold.Proofs.Markup.Run
import Scaffold.Proofs.Markup.Written
import Scaffold.Proofs.Path.Join
import Scaffold.Proofs.Path.Parent
import Scaffold.Proofs.Pipeline.Parse
import Scaffold.Proofs.Pipeline.Parts
import Scaffold.Proofs.Pipeline.Stages
import Scaffold.Proofs.Rendering.Name
import Scaffold.Proofs.Schema.Tree
import Scaffold.Proofs.Specification.FirstFault
import Scaffold.Proofs.Store.Chronicle
import Scaffold.Proofs.Store.Directory
import Scaffold.Proofs.Store.Inquiry
import Scaffold.Proofs.Store.Memory
import Scaffold.Proofs.Store.Names
import Scaffold.Proofs.Store.Pools
import Scaffold.Proofs.Text.Split
import Scaffold.Proofs.Text.Trim
import Scaffold.Proofs.Tree.Accepted
import Scaffold.Proofs.Tree.Attributes
import Scaffold.Proofs.Tree.Document
import Scaffold.Proofs.Tree.Fields
import Scaffold.Proofs.Tree.RoundTrip
import Scaffold.Proofs.Tree.Text
import Scaffold.Proofs.Tree.Trimmed
import Scaffold.Proofs.Work
import Scaffold.Proofs.Work.Reads
import Scaffold.Proofs.Work.Unstaged
import Scaffold.Rendering
import Scaffold.Schema.Basic
import Scaffold.Schema.Read
import Scaffold.Schema.Tree
import Scaffold.Specification.Basic
import Scaffold.Specification.Load
import Scaffold.Specification.Markup
import Scaffold.Specification.Yaml
import Scaffold.Store.Basic
import Scaffold.Store.Inquiry
import Scaffold.Store.Repository
import Scaffold.Template.Access
import Scaffold.Template.Argument
import Scaffold.Template.Basic
import Scaffold.Template.Block
import Scaffold.Template.Call
import Scaffold.Template.Datum
import Scaffold.Template.Evaluation
import Scaffold.Template.Expression
import Scaffold.Template.Filter.Number
import Scaffold.Template.Filter.Row
import Scaffold.Template.Filter.Table
import Scaffold.Template.Filter.Text
import Scaffold.Template.Function
import Scaffold.Template.Loop
import Scaffold.Template.Lower
import Scaffold.Template.Machine
import Scaffold.Template.Names
import Scaffold.Template.Operation
import Scaffold.Template.Order
import Scaffold.Template.Reading
import Scaffold.Template.Render
import Scaffold.Template.Statement
import Scaffold.Template.Test
import Scaffold.Template.Token
import Scaffold.Template.Value
import Scaffold.Text.Blank
import Scaffold.Text.Case
import Scaffold.Text.CaseTable
import Scaffold.Text.CharacterSet
import Scaffold.Text.Escaped
import Scaffold.Text.Percent
import Scaffold.Text.Pieces
import Scaffold.Text.Quoted
import Scaffold.Tree.Attributes
import Scaffold.Tree.Node
import Scaffold.Tree.Record
import Scaffold.Work
import Scaffold.Yaml.Decoding
import Scaffold.Yaml.Draft
import Scaffold.Yaml.Label
import Scaffold.Yaml.Literal
import Scaffold.Yaml.Scalar
import Scaffold.Yaml.Spot
import Scaffold.Yaml.Token
import Scaffold.Proofs.Store.Interchange
import Scaffold.Proofs.Specification.Markup
import Scaffold.Proofs.Template.Scanning
import Scaffold.Proofs.Template.Wrapping
import Scaffold.Proofs.Template.Rendered
import Scaffold.Proofs.Rendering.Composition
import Scaffold.Proofs.Yaml.Quoted
import Scaffold.Proofs.Yaml.Scan
import Scaffold.Proofs.Yaml.Supply
import Scaffold.Proofs.Yaml.Json
import Scaffold.Proofs.Yaml.Flow
import Scaffold.Proofs.Yaml.Folded
import Scaffold.Proofs.Yaml.Leads
import Scaffold.Proofs.Yaml.Words
import Scaffold.Proofs.Specification.Yaml
import Scaffold.Proofs.Specification.Nesting
import Scaffold.Proofs.CommandLine.Sequence
import Scaffold.Proofs.Markup.Aside
import Scaffold.Proofs.Pipeline.Direct
import Scaffold.Proofs.Tree.Written
import Scaffold.Proofs.Build.Blocked
import Scaffold.Proofs.Build.Siblings
import Scaffold.Proofs.Rendering.Equality
import Scaffold.Proofs.Specification.Kinds
import Scaffold.Proofs.Specification.Shape
import Scaffold.Proofs.Specification.Sniffing
import Scaffold.Proofs.Store.Unlisted
import Scaffold.Proofs.Rendering.Live
import Scaffold.Proofs.Yaml.Spelled
import Scaffold.Proofs.Yaml.Comes
import Scaffold.Proofs.Yaml.Silent
import Scaffold.Proofs.Config.Fields
import Scaffold.Proofs.Config.Yaml
import Scaffold.Proofs.Config.Parse
import Scaffold.Proofs.Config.Lookup
import Scaffold.Proofs.Rendering.Causes
import Scaffold.Proofs.Path.Components
import Scaffold.Proofs.Path.Respelled
import Scaffold.Proofs.Tree.Faithful
import Scaffold.Proofs.Disk.Respelled
import Scaffold.Proofs.Build.Respelled
