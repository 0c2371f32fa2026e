import ParameterManual.Proofs.Markup
import ParameterManual.Proofs.Text.Map
import ParameterManual.Translation

/-!
# Display texts are escaped

A table comes to hold a text only by an insertion, which escapes it. Reading
a header makes a table by insertions, so every display text is as it stands
in the manual.
-/

set_option autoImplicit false

namespace ParameterManual.TranslationTable
open Markup

/-- A table made of an empty one by insertions. -/
inductive Filled : TranslationTable → Prop where
  | empty (symbolPrefix : Text) : Filled (withPrefix symbolPrefix)
  | insert (table : TranslationTable) (symbol text : Text) (h : Filled table) :
      Filled (table.insert symbol text)

theorem filled_entries (table : TranslationTable) (h : table.Filled) :
    ∀ e ∈ table.entries, Escaped e.2 := by
  induction h with
  | empty => simp [withPrefix]
  | insert table symbol text h ih =>
    intro e he
    rcases TextMap.mem_insert symbol (escape text) table.entries e he with rfl | he
    · exact escape_escaped text
    · exact ih e he

theorem filled_displayed (table : TranslationTable) (h : table.Filled) (symbol text : Text)
    (hget : table.get? symbol = some text) : Escaped text :=
  filled_entries table h (symbol, text) (TextMap.mem_of_find? _ symbol text hget)

theorem ofText_filled (content symbolPrefix : Text) : (ofText content symbolPrefix).Filled := by
  rw [ofText]
  generalize content.lines.filterMap (definition? symbolPrefix) = definitions
  have hstart : (withPrefix symbolPrefix).Filled := Filled.empty symbolPrefix
  revert hstart
  generalize withPrefix symbolPrefix = table
  induction definitions generalizing table with
  | nil => exact fun h => h
  | cons d rest ih =>
    intro h
    exact ih (table.insert d.1 d.2) (Filled.insert table d.1 d.2 h)

end ParameterManual.TranslationTable
