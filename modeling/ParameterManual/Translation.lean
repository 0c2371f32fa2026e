import ParameterManual.Markup
import ParameterManual.Text.Map

/-!
# Display texts of symbols

A translation table gives the display text of a symbolic constant, escaped
for the manual. It is read from the definition lines of a header whose
symbols carry a given prefix; a later definition replaces an earlier one.
-/

set_option autoImplicit false

namespace ParameterManual

structure TranslationTable where
  symbolPrefix : Text
  entries : TextMap Text
  deriving DecidableEq, Repr

namespace TranslationTable

def defaultPrefix : Text := "PARAM".toList

def withPrefix (symbolPrefix : Text) : TranslationTable := ⟨symbolPrefix, []⟩

def insert (table : TranslationTable) (symbol text : Text) : TranslationTable :=
  { table with entries := table.entries.insert symbol (Markup.escape text) }

def get? (table : TranslationTable) (symbol : Text) : Option Text := table.entries.find? symbol

def size (table : TranslationTable) : Nat := table.entries.length

/-- Whether a token carries the prefix and is spelled as a constant. -/
def isSymbol (table : TranslationTable) (token : Text) : Bool :=
  !table.symbolPrefix.isEmpty && Text.startsWith table.symbolPrefix token &&
    token.all Text.isNameChar

/-- The text between the first and the last double quote of a line. -/
def quotedText? (line : Text) : Option Text :=
  match line.dropWhile (· != '"') with
  | [] => none
  | _ :: rest =>
    if rest.contains '"' then some (Text.dropEndWhile (· != '"') rest).dropLast else none

/-- The symbol and the text that a line defines. -/
def definition? (symbolPrefix line : Text) : Option (Text × Text) :=
  match line.words with
  | directive :: symbol :: _ =>
    if directive = "#define".toList ∧ Text.startsWith symbolPrefix symbol then
      (quotedText? line).map (fun text => (symbol, text))
    else none
  | _ => none

def ofText (content symbolPrefix : Text) : TranslationTable :=
  (content.lines.filterMap (definition? symbolPrefix)).foldl
    (fun table d => table.insert d.1 d.2) (withPrefix symbolPrefix)

end TranslationTable

end ParameterManual
