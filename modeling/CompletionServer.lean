import CompletionServer.Backend.Absent
import CompletionServer.Backend.Answer
import CompletionServer.Backend.Basic
import CompletionServer.Backend.Run
import CompletionServer.Calendar
import CompletionServer.Completion.Candidate
import CompletionServer.Completion.Handler
import CompletionServer.Completion.Item
import CompletionServer.Completion.Kind
import CompletionServer.Completion.Overload
import CompletionServer.Completion.Request
import CompletionServer.Completion.Source
import CompletionServer.Config.Basic
import CompletionServer.Config.Error
import CompletionServer.Config.Load
import CompletionServer.Config.Lookup
import CompletionServer.Config.Parse
import CompletionServer.Decimal.Binary
import CompletionServer.Decimal.Reading
import CompletionServer.Decimal.Shortest
import CompletionServer.Decimal.Style
import CompletionServer.Document.Edit
import CompletionServer.Document.Store
import CompletionServer.Environment
import CompletionServer.Glob.Basic
import CompletionServer.Glob.Expression
import CompletionServer.Glob.Matching
import CompletionServer.Glob.Notation
import CompletionServer.Json.Error
import CompletionServer.Json.Reader
import CompletionServer.Json.Writer
import CompletionServer.Keyed
import CompletionServer.Main
import CompletionServer.Numeral
import CompletionServer.Path
import CompletionServer.Path.Defect
import CompletionServer.Proofs.Completion.Overload
import CompletionServer.Proofs.Firsts
import CompletionServer.Provider.Registration
import CompletionServer.Selector
import CompletionServer.Session.Basic
import CompletionServer.Session.Capability
import CompletionServer.Session.Fault
import CompletionServer.Session.Message
import CompletionServer.Session.Wire
import CompletionServer.Text.Base64
import CompletionServer.Text.Blank
import CompletionServer.Text.Case
import CompletionServer.Text.Chunk
import CompletionServer.Text.Digit
import CompletionServer.Text.Line
import CompletionServer.Text.Place
import CompletionServer.Text.Point
import CompletionServer.Text.Printable
import CompletionServer.Text.Quoted
import CompletionServer.Text.Utf8
import CompletionServer.Text.Utf8.RoundTrip
import CompletionServer.Uri.Basic
import CompletionServer.Uri.Host
import CompletionServer.Uri.Percent
import CompletionServer.Value.Basic
import CompletionServer.Value.Parts
import CompletionServer.Value.Text
import CompletionServer.Yaml.Document
import CompletionServer.Yaml.Error
import CompletionServer.Yaml.File
import CompletionServer.Yaml.Graph
import CompletionServer.Yaml.Merge
import CompletionServer.Yaml.Node
import CompletionServer.Yaml.Scalar
import CompletionServer.Yaml.ScalarText
import CompletionServer.Yaml.Schema
import CompletionServer.Yaml.Source
import CompletionServer.Yaml.Token
import CompletionServer.Yaml.Token.Lexer
import CompletionServer.Proofs.Completion.Handler
import CompletionServer.Proofs.Glob.Language
import CompletionServer.Proofs.Glob.Bracket
import CompletionServer.Proofs.Glob.Written
import CompletionServer.Proofs.Glob.Acceptance
import CompletionServer.Proofs.Config.Accepted
import CompletionServer.Proofs.Completion.Place
import CompletionServer.Proofs.Provider.Registered
import CompletionServer.Proofs.Session.History
import CompletionServer.Proofs.Session.Completion
import CompletionServer.Proofs.Value.Writable
import CompletionServer.Proofs.Config.Provider
import CompletionServer.Proofs.Config.Loading
import CompletionServer.Proofs.Session.Agreement
import CompletionServer.Proofs.Config.Fault
import CompletionServer.Proofs.Backend.Failure
import CompletionServer.Proofs.Backend.Accounting
import CompletionServer.Proofs.Json.Completeness
import CompletionServer.Proofs.Json.Written
import CompletionServer.Proofs.Completion.Payload
import CompletionServer.Proofs.Backend.Output
import CompletionServer.Proofs.Session.Buffer
import CompletionServer.Proofs.Glob.Depth
import CompletionServer.Proofs.Glob.Rejection
import CompletionServer.Proofs.Glob.Expansion
import CompletionServer.Proofs.Glob.Segment
import CompletionServer.Proofs.Uri.Usable
import CompletionServer.Proofs.Config.Pattern
import CompletionServer.Proofs.Value.NonEmpty
import CompletionServer.Proofs.Provider.Serving
import CompletionServer.Proofs.Completion.Insertion
import CompletionServer.Proofs.Session.Snippets
import CompletionServer.Proofs.Provider.Selection
import CompletionServer.Proofs.Session.Place
import CompletionServer.Proofs.Maintains
import CompletionServer.Proofs.Text.Chunk
import CompletionServer.Proofs.Yaml.ScalarText
import CompletionServer.Proofs.Yaml.Lexer
import CompletionServer.Proofs.Yaml.Graph
import CompletionServer.Proofs.Yaml.Document
import CompletionServer.Proofs.Yaml.File
import CompletionServer.Proofs.Config.Decoding
import CompletionServer.Proofs.Completion.Rounds
import CompletionServer.Proofs.Config.Normal
import CompletionServer.Proofs.Uri.Escaped
import CompletionServer.Proofs.Session.Spelling
