import SchemaCompletion.Attempt
import SchemaCompletion.Catalog
import SchemaCompletion.CommandLine
import SchemaCompletion.CommandLine.Arguments
import SchemaCompletion.CommandLine.Help
import SchemaCompletion.Declaration
import SchemaCompletion.Host
import SchemaCompletion.Main
import SchemaCompletion.Member
import SchemaCompletion.MemberNode
import SchemaCompletion.Path
import SchemaCompletion.Proofs.Cache.Cursor
import SchemaCompletion.Proofs.Cache.Diagnosis
import SchemaCompletion.Proofs.Cache.Failure
import SchemaCompletion.Proofs.Cache.Interleaving
import SchemaCompletion.Proofs.Cache.Iteration
import SchemaCompletion.Proofs.Cache.Load
import SchemaCompletion.Proofs.Cache.Provenance
import SchemaCompletion.Proofs.Cache.Reloading
import SchemaCompletion.Proofs.Cache.Repetition
import SchemaCompletion.Proofs.Cache.Reply
import SchemaCompletion.Proofs.Cache.Rereading
import SchemaCompletion.Proofs.Cache.Resolution
import SchemaCompletion.Proofs.Cache.Run
import SchemaCompletion.Proofs.Choosing
import SchemaCompletion.Proofs.Collecting
import SchemaCompletion.Proofs.Completing
import SchemaCompletion.Proofs.Confinement
import SchemaCompletion.Proofs.Declaring.Naming
import SchemaCompletion.Proofs.Declaring.OneLine
import SchemaCompletion.Proofs.Declaring.Registering
import SchemaCompletion.Proofs.Declaring.Renaming
import SchemaCompletion.Proofs.Declaring.Unambiguous
import SchemaCompletion.Proofs.EmptyRoot
import SchemaCompletion.Proofs.LastValue
import SchemaCompletion.Proofs.Overwriting
import SchemaCompletion.Proofs.Printing.Agreement
import SchemaCompletion.Proofs.Printing.Answer
import SchemaCompletion.Proofs.Printing.Command
import SchemaCompletion.Proofs.Printing.Lines
import SchemaCompletion.Proofs.Printing.Listing
import SchemaCompletion.Proofs.Printing.Runs
import SchemaCompletion.Proofs.Printing.Status
import SchemaCompletion.Proofs.Printing.Words
import SchemaCompletion.Proofs.Reading.Blank
import SchemaCompletion.Proofs.Reading.Commentary
import SchemaCompletion.Proofs.Reading.FileText
import SchemaCompletion.Proofs.Reading.Utf8
import SchemaCompletion.Proofs.Reading.Yields
import SchemaCompletion.Proofs.Rejecting
import SchemaCompletion.Proofs.Reordering
import SchemaCompletion.Proofs.Writing.Defaults
import SchemaCompletion.Proofs.Writing.Documents
import SchemaCompletion.SchemaCache
import SchemaCompletion.Sdl.BlockString
import SchemaCompletion.Sdl.Document
import SchemaCompletion.Sdl.Name
import SchemaCompletion.Sdl.Node
import SchemaCompletion.Sdl.Number
import SchemaCompletion.Sdl.Quotation
import SchemaCompletion.Sdl.Rule
import SchemaCompletion.Sdl.Rule.Document
import SchemaCompletion.Sdl.Rule.Executable
import SchemaCompletion.Sdl.Rule.TypeExpr
import SchemaCompletion.Sdl.Rule.TypeSystem
import SchemaCompletion.Sdl.Rule.Value
import SchemaCompletion.Sdl.SyntaxError
import SchemaCompletion.Sdl.Token
import SchemaCompletion.Sdl.TokenStream
import SchemaCompletion.Sdl.TypeExpr
import SchemaCompletion.Sdl.Value
import SchemaCompletion.Session
import SchemaCompletion.Settings
import SchemaCompletion.Snapshot
import SchemaCompletion.Storage
import SchemaCompletion.Suggestion
import SchemaCompletion.Target
import SchemaCompletion.Text.Blank
import SchemaCompletion.Text.LineBreak
import SchemaCompletion.Text.Order
import SchemaCompletion.Text.Printable
import SchemaCompletion.Text.Quoted
import SchemaCompletion.Text.Terminal
import SchemaCompletion.Text.UpperCase
import SchemaCompletion.Text.Utf8
import SchemaCompletion.TypeMapping
import SchemaCompletion.Workspace
