import ApiOutline.Main
import ApiOutline.Text.Base64
import ApiOutline.Proofs.Journal
import ApiOutline.Proofs.Tree.Table
import ApiOutline.Proofs.Tree.Visit
import ApiOutline.Proofs.Tree.Run
import ApiOutline.Proofs.Tree.Conservation
import ApiOutline.Proofs.Tree.Roles
import ApiOutline.Proofs.Tree.Bridges
import ApiOutline.Proofs.Template
import ApiOutline.Proofs.Tree.Discovery
import ApiOutline.Proofs.Tree.Shape
import ApiOutline.Proofs.Tree.Order
import ApiOutline.Proofs.Tree.Declaration
import ApiOutline.Proofs.Tree.Relabelling
import ApiOutline.Proofs.Tree.Siblings
import ApiOutline.Proofs.Tree.Methods
import ApiOutline.Proofs.Tree.Defining
import ApiOutline.Proofs.Tree.Belonging
import ApiOutline.Proofs.Tree.Uniqueness
import ApiOutline.Proofs.Definition.Response
import ApiOutline.Proofs.Definition.Selection
import ApiOutline.Proofs.Tree.MissingResponse
import ApiOutline.Proofs.Schema.Model
import ApiOutline.Proofs.Value.Json
import ApiOutline.Proofs.Schema.Extract
import ApiOutline.Proofs.Definition.Body
import ApiOutline.Proofs.Agreement
import ApiOutline.Proofs.FormModels
import ApiOutline.Proofs.Field
import ApiOutline.Proofs.Schema.Property
import ApiOutline.Proofs.Schema.Writes
import ApiOutline.Proofs.Schema.Origin
import ApiOutline.Proofs.Schema.Binary
import ApiOutline.Proofs.Schema.Reference
import ApiOutline.Proofs.Value.Unshared
import ApiOutline.Proofs.Schema.Unshared
import ApiOutline.Proofs.Schema.Sharing
import ApiOutline.Proofs.Json.Reader
import ApiOutline.Proofs.ReadBack
import ApiOutline.Proofs.Schema.Plain
import ApiOutline.Proofs.RoundTrip
import ApiOutline.Proofs.Value.Equality
import ApiOutline.Proofs.Decimal.Digits
import ApiOutline.Proofs.Json.Grammar
import ApiOutline.Proofs.Json.Strings
import ApiOutline.Proofs.Json.Written
import ApiOutline.Proofs.Decimal.Notation
import ApiOutline.Proofs.Json.Valid
import ApiOutline.Proofs.Bounds
import ApiOutline.Proofs.Text
import ApiOutline.Proofs.Files.Growth
import ApiOutline.Proofs.Files.Names
import ApiOutline.Proofs.Files.Directories
import ApiOutline.Proofs.Files.Draft
import ApiOutline.Proofs.Files.Atomic
import ApiOutline.Proofs.Action
import ApiOutline.Proofs.Settings.ReadBack
import ApiOutline.Proofs.Settings.Kept
import ApiOutline.Proofs.Settings.Writing
import ApiOutline.Proofs.Settings.Precedence
import ApiOutline.Proofs.Command.Perform
import ApiOutline.Proofs.Command.Run
import ApiOutline.Proofs.Command.Printed
import ApiOutline.Proofs.Scanning
import ApiOutline.Proofs.Json.Limit
import ApiOutline.Proofs.Yaml.Scanning
import ApiOutline.Proofs.Yaml.Lexer
import ApiOutline.Proofs.Yaml.Reader
import ApiOutline.Proofs.Yaml.Value
import ApiOutline.Proofs.Source
import ApiOutline.Proofs.Pattern.Literal
import ApiOutline.Proofs.Template.Parts
import ApiOutline.Proofs.Template.Ending
import ApiOutline.Proofs.Template.Closing
import ApiOutline.Proofs.Template.Rebuilding
import ApiOutline.Proofs.Tree.Parameters
import ApiOutline.Proofs.Endpoint.Rewriting
import ApiOutline.Proofs.Endpoint.Versions
import ApiOutline.Proofs.Show.Loaded
import ApiOutline.Proofs.Schema.Mirror
