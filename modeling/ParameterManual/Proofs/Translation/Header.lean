import ParameterManual.Proofs.Text.Entries
import ParameterManual.Proofs.Translation.Definition

/-!
# Headers read back

A header consists of definition lines among lines that define nothing. Read
as a table it has one entry for each symbol, the escaped text of the last
definition.
-/

set_option autoImplicit false

namespace ParameterManual.TranslationTable
open Text

variable {symbolPrefix : Text}

/-- A line of a header: a definition with no quote behind its text, or one
that defines nothing. -/
inductive HeaderLine (symbolPrefix : Text) where
  | definition (lead : Lead symbolPrefix) (text trailing : Text)
      (last : '"' ∉ trailing)
      (unbroken : '\n' ∉ lead.text ++ quoted text trailing)
  | other (line : Text) (silent : Silent symbolPrefix line) (unbroken : '\n' ∉ line)

namespace HeaderLine

def text : HeaderLine symbolPrefix → Text
  | definition lead text trailing _ _ => lead.text ++ quoted text trailing
  | other line _ _ => line

def defined? : HeaderLine symbolPrefix → Option (Text × Text)
  | definition lead text _ _ _ => some (lead.symbol, text)
  | other _ _ _ => none

theorem text_unbroken (line : HeaderLine symbolPrefix) : '\n' ∉ line.text := by
  cases line with
  | definition _ _ _ _ unbroken => exact unbroken
  | other _ _ unbroken => exact unbroken

theorem text_read (line : HeaderLine symbolPrefix) :
    definition? symbolPrefix line.text = line.defined? := by
  cases line with
  | definition lead text trailing last _ => exact definition_read lead text trailing last
  | other line silent _ => exact silent_read line silent

end HeaderLine

/-- A table has the escaped texts of the definitions it is read from. -/
theorem ofText_entries (content : Text) :
    (ofText content symbolPrefix).entries =
      (TextMap.ofEntries (definitions symbolPrefix content)).map
        (fun e => (e.1, Markup.escape e.2)) := by
  have hfold (list : List (Text × Text)) (table : TranslationTable) :
      (list.foldl (fun table d => table.insert d.1 d.2) table).entries =
        TextMap.insertAll (list.map (fun e => (e.1, Markup.escape e.2))) table.entries := by
    induction list generalizing table with
    | nil => rfl
    | cons d rest ih => exact ih (table.insert d.1 d.2)
  rw [ofText, hfold]
  exact TextMap.insertAll_map Markup.escape (definitions symbolPrefix content) []

theorem ofText_get (content symbol : Text) :
    (ofText content symbolPrefix).get? symbol =
      ((definitions symbolPrefix content).reverse.lookup symbol).map Markup.escape := by
  rw [get?, ofText_entries, TextMap.find?_map, TextMap.ofEntries, TextMap.find?_insertAll]
  exact congrArg _ (Option.or_none)

/-- Each symbol of a header has the text of its last definition, no other
symbol has one, and the table is as large as the symbols are many. -/
theorem ofText_header (lines : List (HeaderLine symbolPrefix)) (content : Text)
    (h : Written (lines.map HeaderLine.text) content) :
    (∀ symbol, (ofText content symbolPrefix).get? symbol =
        ((lines.filterMap HeaderLine.defined?).reverse.lookup symbol).map Markup.escape) ∧
      (ofText content symbolPrefix).size =
        ((lines.filterMap HeaderLine.defined?).map Prod.fst).dedup.length := by
  have hdefinitions : definitions symbolPrefix content = lines.filterMap HeaderLine.defined? := by
    rw [definitions_written _ content h (by simpa using fun line _ => line.text_unbroken),
      List.filterMap_map]
    congr 1
    funext line
    exact line.text_read
  rw [← hdefinitions]
  refine ⟨ofText_get content, ?_⟩
  rw [size, ofText_entries, List.length_map, TextMap.ofEntries_length]

def parameterPrefix : Text := "PARAM".toList

def rateLead : Lead parameterPrefix where
  indent := "  ".toList
  gap := "\t".toList
  symbol := "PARAM_A".toList
  space := " ".toList
  indent_blank := by decide
  gap_ne := by decide
  gap_blank := by decide
  symbol_ne := by decide
  symbol_solid := by decide
  unquoted := by decide
  carries := by decide
  space_ne := by decide
  space_blank := by decide

def sizeLead : Lead parameterPrefix where
  indent := []
  gap := " ".toList
  symbol := "PARAM_B".toList
  space := "  ".toList
  indent_blank := by decide
  gap_ne := by decide
  gap_blank := by decide
  symbol_ne := by decide
  symbol_solid := by decide
  unquoted := by decide
  carries := by decide
  space_ne := by decide
  space_blank := by decide

def rateHeader : List (HeaderLine parameterPrefix) :=
  [.definition rateLead "a".toList [] (by decide) (by decide),
    .other "#define LOG_A \"PARAM_A\"".toList
      (silent_other _ directive "LOG_A".toList _ rfl (Or.inr rfl)) (by decide),
    .definition sizeLead "a \"b\" %".toList " // b".toList (by decide) (by decide),
    .other "#define PARAM_C c".toList (silent_unquoted _ (by decide)) (by decide),
    .definition rateLead "a_b".toList [] (by decide) (by decide)]

def rateHeaderText : Text :=
  "  #define\tPARAM_A \"a\"\r\n#define LOG_A \"PARAM_A\"\n".toList ++
    "#define PARAM_B  \"a \"b\" %\" // b\n#define PARAM_C c\n".toList ++
    "  #define\tPARAM_A \"a_b\"".toList

theorem ofText_header_redefined :
    Written (rateHeader.map HeaderLine.text) rateHeaderText ∧
      (ofText rateHeaderText parameterPrefix).get? "PARAM_A".toList = some "a\\_b".toList ∧
      (ofText rateHeaderText parameterPrefix).get? "PARAM_B".toList =
        some "a \"b\" \\%".toList ∧
      (ofText rateHeaderText parameterPrefix).get? "PARAM_C".toList = none ∧
      (ofText rateHeaderText parameterPrefix).size = 2 := by
  have hlines : rateHeaderText.lines = rateHeader.map HeaderLine.text := by decide +kernel
  have hwritten : Written (rateHeader.map HeaderLine.text) rateHeaderText :=
    hlines ▸ lines_written rateHeaderText
  obtain ⟨hget, hsize⟩ := ofText_header rateHeader rateHeaderText hwritten
  refine ⟨hwritten, ?_, ?_, ?_, ?_⟩
  · rw [hget]
    decide +kernel
  · rw [hget]
    decide +kernel
  · rw [hget]
    decide +kernel
  · rw [hsize]
    decide +kernel

end ParameterManual.TranslationTable
