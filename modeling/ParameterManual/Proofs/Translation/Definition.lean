import ParameterManual.Proofs.Text.Lines
import ParameterManual.Proofs.Text.Words
import ParameterManual.Translation

/-!
# Definition lines

A definition line names a symbol and has its text between double quotes. The
text ends at the last quote of the line, so it may hold quotes itself. A
carriage return at the end of a line does not matter.
-/

set_option autoImplicit false

namespace ParameterManual.TranslationTable
open Text

def directive : Text := "#define".toList

/-- What stands before the quoted text of a definition, with blanks around
its two words. -/
structure Lead (symbolPrefix : Text) where
  indent : Text
  gap : Text
  symbol : Text
  space : Text
  indent_blank : isAllBlank indent = true
  gap_ne : gap ≠ []
  gap_blank : isAllBlank gap = true
  symbol_ne : symbol ≠ []
  symbol_solid : symbol.any isBlank = false
  unquoted : '"' ∉ symbol
  carries : startsWith symbolPrefix symbol = true
  space_ne : space ≠ []
  space_blank : isAllBlank space = true

variable {symbolPrefix : Text}

def Lead.text (lead : Lead symbolPrefix) : Text :=
  lead.indent ++ (directive ++ (lead.gap ++ (lead.symbol ++ lead.space)))

def quoted (text trailing : Text) : Text := '"' :: (text ++ '"' :: trailing)

theorem lead_unquoted (lead : Lead symbolPrefix) : '"' ∉ lead.text := by
  have hdirective : '"' ∉ directive := by decide
  simp [Lead.text, hdirective, lead.unquoted, blank_unquoted _ lead.indent_blank,
    blank_unquoted _ lead.gap_blank, blank_unquoted _ lead.space_blank]

theorem lead_words (lead : Lead symbolPrefix) (t : Text) :
    words (lead.text ++ t) = directive :: lead.symbol :: words t := by
  have hgap := words_first directive lead.gap (lead.symbol ++ (lead.space ++ t)) (by decide)
    (by decide) lead.gap_blank lead.gap_ne
  have hspace := words_first lead.symbol lead.space t lead.symbol_ne lead.symbol_solid
    lead.space_blank lead.space_ne
  simp only [Lead.text, List.append_assoc]
  rw [words_gap lead.indent _ lead.indent_blank, hgap, hspace]

theorem quoted_read (lead text trailing : Text) (hl : '"' ∉ lead) (ht : '"' ∉ trailing) :
    quotedText? (lead ++ quoted text trailing) = some text := by
  have hopen : (lead ++ quoted text trailing).dropWhile (· != '"') = quoted text trailing :=
    drop_front _ lead _ (by simpa using fun c hc => ne_of_mem_of_not_mem hc hl)
      ⟨'"', text ++ '"' :: trailing, rfl, rfl⟩
  have hclose : dropEndWhile (· != '"') (text ++ ['"'] ++ trailing) = text ++ ['"'] :=
    drop_end _ _ trailing (by simpa using fun c hc => ne_of_mem_of_not_mem hc ht)
      ⟨text, '"', rfl, rfl⟩
  rw [quotedText?, hopen, quoted]
  simp only [List.append_assoc, List.singleton_append] at hclose
  simp [hclose]

theorem quoted_needs (t : Text) (h : t.count '"' < 2) : quotedText? t = none := by
  rw [quotedText?]
  cases hopen : t.dropWhile (· != '"') with
  | nil => rfl
  | cons c rest =>
    have hne : t.dropWhile (· != '"') ≠ [] := by simp [hopen]
    have hfirst := List.head_dropWhile_not (p := (· != '"')) hne
    simp only [hopen, List.head_cons, bne_eq_false_iff_eq] at hfirst
    have hle := (List.dropWhile_sublist (· != '"') (l := t)).count_le '"'
    rw [hopen, hfirst, List.count_cons_self] at hle
    have hnone : '"' ∉ rest := List.count_eq_zero.mp (by omega)
    simp [hnone]

theorem quoted_behind (t : Text) (c : Char) (h : c ≠ '"') :
    quotedText? (t ++ [c]) = quotedText? t := by
  have hc : (c != '"') = true := by simpa using h
  rw [quotedText?, quotedText?, List.dropWhile_append]
  cases hopen : t.dropWhile (· != '"') with
  | nil => simp [hc]
  | cons d rest =>
    have hclose : dropEndWhile (· != '"') (rest ++ [c]) = dropEndWhile (· != '"') rest := by
      simp [dropEndWhile, hc]
    simp [hclose, h.symm]

theorem definition_read (lead : Lead symbolPrefix) (text trailing : Text) (h : '"' ∉ trailing) :
    definition? symbolPrefix (lead.text ++ quoted text trailing) = some (lead.symbol, text) := by
  have hquoted := quoted_read lead.text text trailing (lead_unquoted lead) h
  rw [definition?, lead_words, hquoted]
  exact if_pos ⟨rfl, lead.carries⟩

/-- A line that is no definition: its words do not begin like those of one,
or it has no text between quotes. -/
def Silent (symbolPrefix line : Text) : Prop :=
  ∀ symbol more, words line = directive :: symbol :: more →
    startsWith symbolPrefix symbol = true → line.count '"' < 2

theorem silent_unquoted (line : Text) (h : line.count '"' < 2) : Silent symbolPrefix line :=
  fun _ _ _ _ => h

theorem silent_other (line first second : Text) (more : List Text)
    (hwords : words line = first :: second :: more)
    (h : first ≠ directive ∨ startsWith symbolPrefix second = false) :
    Silent symbolPrefix line := by
  intro symbol others hline hcarries
  obtain ⟨hfirst, hrest⟩ := List.cons.inj (hwords.symm.trans hline)
  obtain ⟨hsecond, -⟩ := List.cons.inj hrest
  rcases h with h | h
  · exact absurd hfirst h
  · rw [← hsecond, h] at hcarries
    cases hcarries

theorem silent_read (line : Text) (h : Silent symbolPrefix line) :
    definition? symbolPrefix line = none := by
  rw [definition?]
  split
  · rename_i first symbol more hwords
    split
    · rename_i hcarries
      obtain ⟨rfl, hcarries⟩ := hcarries
      rw [quoted_needs line (h symbol more hwords hcarries)]
      rfl
    · rfl
  · rfl

theorem definition_behind (line : Text) (c : Char) (hc : isBlank c = true) :
    definition? symbolPrefix (line ++ [c]) = definition? symbolPrefix line := by
  rw [definition?, definition?, words_behind line c hc, quoted_behind line c (blank_ne c _ hc rfl)]

def definitions (symbolPrefix content : Text) : List (Text × Text) :=
  content.lines.filterMap (definition? symbolPrefix)

/-- However lines are written, their definitions are read. -/
theorem definitions_written (list : List Text) (content : Text) (h : Written list content)
    (hline : ∀ line ∈ list, '\n' ∉ line) :
    definitions symbolPrefix content = list.filterMap (definition? symbolPrefix) := by
  obtain ⟨kept, hkept, hread⟩ := written_read list content h hline
  have hsame : content.lines.filterMap (definition? symbolPrefix) =
      kept.filterMap (definition? symbolPrefix) := by
    clear hkept
    generalize content.lines = owns at hread
    induction hread with
    | nil => rfl
    | @cons line own _ _ hown _ ih =>
      have hfirst : definition? symbolPrefix line = definition? symbolPrefix own := by
        rcases hown with rfl | rfl
        · rfl
        · exact definition_behind own '\r' rfl
      rw [List.filterMap_cons, List.filterMap_cons, hfirst, ih]
  rw [definitions, hsame]
  rcases hkept with rfl | rfl
  · rfl
  · have hempty : definition? symbolPrefix [] = none := rfl
    simp [hempty]

end ParameterManual.TranslationTable
