import ParameterManual.Main
import ParameterManual.Proofs.Constructor.Body
import ParameterManual.Proofs.Constructor.Coverage
import ParameterManual.Proofs.Constructor.Initializer
import ParameterManual.Proofs.Source.Layout
import ParameterManual.Proofs.Source.Placing
import ParameterManual.Proofs.Statement.Bind
import ParameterManual.Proofs.Constructor.Stretch
import ParameterManual.Proofs.Constructor.Value
import ParameterManual.Proofs.Constructor.LiteralBind
import ParameterManual.Proofs.Constructor.BindPlacement
import ParameterManual.Proofs.Constructor.SoleBind
import ParameterManual.Proofs.Files.Place
import ParameterManual.Proofs.Files.View
import ParameterManual.Proofs.Files.Path
import ParameterManual.Proofs.Files.Saving
import ParameterManual.Proofs.Assembly.Reading
import ParameterManual.Proofs.Run.Turns
import ParameterManual.Proofs.Run.Sections
import ParameterManual.Proofs.Run.Parallel
import ParameterManual.Proofs.ClassNode
import ParameterManual.Proofs.Markup
import ParameterManual.Proofs.Translation
import ParameterManual.Proofs.Constructor.Documented
import ParameterManual.Proofs.Assembly.Everywhere
import ParameterManual.Proofs.Constructor.Ranges
import ParameterManual.Proofs.Source.Enclosed
import ParameterManual.Proofs.Source.ArgumentList
import ParameterManual.Proofs.Statement.Printed
import ParameterManual.Proofs.Statement.RoundTrip
import ParameterManual.Proofs.Constructor.Extent
import ParameterManual.Proofs.Constructor.Symbols
import ParameterManual.Proofs.ClassNode.Tree
import ParameterManual.Proofs.ClassNode.Inheritance
import ParameterManual.Proofs.Assembly.Inheritance
import ParameterManual.Proofs.Assembly.Truncation
import ParameterManual.Proofs.Assembly.Visits
import ParameterManual.Proofs.Manual.Parts
import ParameterManual.Proofs.Manual.Pruning
import ParameterManual.Proofs.Files.Contents
import ParameterManual.Proofs.Assembly.Counting
import ParameterManual.Proofs.Files.Naming
import ParameterManual.Proofs.Run.Failing
import ParameterManual.Proofs.Run.OwnFile
import ParameterManual.Proofs.Assembly.Siblings
import ParameterManual.Proofs.Assembly.Separation
import ParameterManual.Proofs.Constructor.Flags
import ParameterManual.Proofs.Constructor.Origin
import ParameterManual.Proofs.Assembly.BoundParameters
import ParameterManual.Proofs.Assembly.Escaping
import ParameterManual.Proofs.Text.Lines
import ParameterManual.Proofs.Source.Stripping
import ParameterManual.Proofs.Source.Breaking
import ParameterManual.Proofs.Constructor.Modifiers
import ParameterManual.Proofs.Constructor.Blame
import ParameterManual.Proofs.Constructor.Failing
import ParameterManual.Proofs.Constructor.Uncommented
import ParameterManual.Proofs.Constructor.Lowering
import ParameterManual.Proofs.Constructor.Layout
import ParameterManual.Proofs.Text.Words
import ParameterManual.Proofs.Markup.Delimiters
import ParameterManual.Proofs.Markup.WellEscaped
import ParameterManual.Proofs.Source.Braced
import ParameterManual.Proofs.Constructor.AllowedValues
import ParameterManual.Proofs.Translation.Definition
import ParameterManual.Proofs.Translation.Header
import ParameterManual.Proofs.Translation.Comment
import ParameterManual.Proofs.Assembly.MoreTexts
import ParameterManual.Proofs.Assembly.MemberTypes
import ParameterManual.Proofs.Member.DeclarationLine
import ParameterManual.Proofs.Member.Twins
import ParameterManual.Proofs.ClassNode.Made
import ParameterManual.Proofs.Constructor.Fields
import ParameterManual.Proofs.Assembly.Fields
import ParameterManual.Proofs.Source.Separators
import ParameterManual.Proofs.Manual.Letters
import ParameterManual.Proofs.Manual.Acronyms
import ParameterManual.Proofs.Files.PairOrder
import ParameterManual.Proofs.Source.Matching
import ParameterManual.Proofs.Constructor.Casts
import ParameterManual.Proofs.Member.Tightening
import ParameterManual.Proofs.Constructor.Recognized
import ParameterManual.Proofs.Settings.Validity
import ParameterManual.Proofs.Settings.Fields
import ParameterManual.Proofs.Toml.Written
import ParameterManual.Proofs.Settings.Written
import ParameterManual.Proofs.Run.Changes
import ParameterManual.Proofs.CommandLine.Parsing
import ParameterManual.Proofs.CommandLine.Execution
