import ParameterManual.Proofs.Markup.WellEscaped
import ParameterManual.Proofs.Outcome
import ParameterManual.Proofs.Translation.Header

/-!
# Comments behind definitions

What stands behind the closing quote of a definition does not change its text
if there is no quote in it, over however many lines it goes. With a quote on
the line of the definition the text goes on to the last one.
-/

set_option autoImplicit false

namespace ParameterManual.TranslationTable
open Text

variable {symbolPrefix : Text}

def Lead.stored? (lead : Lead symbolPrefix) (text tail : Text) : Option Text :=
  (ofText (lead.text ++ quoted text tail) symbolPrefix).get? lead.symbol

theorem definitions_single (line : Text) (h : '\n' ∉ line) :
    definitions symbolPrefix line = (definition? symbolPrefix line).toList := by
  rw [definitions_written [line] line (.last line) (by simpa using h)]
  cases hd : definition? symbolPrefix line <;> simp [hd]

theorem definitions_first (line later : Text) (h : '\n' ∉ line)
    (hlater : ∀ c ∈ later.head?, c = '\n') :
    definitions symbolPrefix (line ++ later) =
      (definition? symbolPrefix line).toList ++ definitions symbolPrefix later := by
  cases later with
  | nil =>
    have hnone : definitions symbolPrefix [] = [] := rfl
    rw [List.append_nil, definitions_single line h, hnone, List.append_nil]
  | cons c rest =>
    obtain rfl : c = '\n' := hlater c rfl
    have hwritten : Written (line :: lines rest) (line ++ '\n' :: rest) := by
      have hline := Written.line line ['\n'] rest (lines rest) (Or.inl rfl) (lines_written rest)
      rwa [List.append_assoc] at hline
    have hempty : definition? symbolPrefix [] = none := rfl
    rw [definitions_written _ _ hwritten (List.forall_mem_cons.mpr ⟨h, lines_unbroken rest⟩),
      definitions, lines, List.filterMap_cons_none hempty]
    cases hd : definition? symbolPrefix line <;> simp [hd]

theorem definitions_unquoted (t : Text) (h : '"' ∉ t) : definitions symbolPrefix t = [] := by
  rw [definitions, List.filterMap_eq_nil_iff]
  intro line hline
  have hnone : '"' ∉ line :=
    fun hm => h ((written_sublist t.lines t (lines_written t) line hline).subset hm)
  exact silent_read line (silent_unquoted line (by simp [List.count_eq_zero.mpr hnone]))

section tail
variable (lead : Lead symbolPrefix) (text line later : Text) (hlead : '\n' ∉ lead.text)
  (htext : '\n' ∉ text) (hline : '\n' ∉ line) (hlater : ∀ c ∈ later.head?, c = '\n')
include hlead htext hline hlater

theorem definitions_led (h : '"' ∉ line) :
    definitions symbolPrefix (lead.text ++ quoted text (line ++ later)) =
      (lead.symbol, text) :: definitions symbolPrefix later := by
  have hcontent : lead.text ++ quoted text (line ++ later) =
      (lead.text ++ quoted text line) ++ later := by simp [quoted]
  have hfirst : '\n' ∉ lead.text ++ quoted text line := by simp [quoted, hlead, htext, hline]
  rw [hcontent, definitions_first _ later hfirst hlater, definition_read lead text line h]
  rfl

theorem stored_led (h : '"' ∉ line)
    (hother : ∀ d ∈ definitions symbolPrefix later, d.1 ≠ lead.symbol) :
    lead.stored? text (line ++ later) = some (Markup.escape text) := by
  rw [Lead.stored?, ofText_get, definitions_led lead text line later hlead htext hline hlater h,
    List.reverse_cons, List.lookup_append, TextMap.lookup_last_none _ _ hother]
  simp

end tail

/-- A comment without quotes does not change the text of the definition that
it stands behind. Where no later line of it defines the symbol anew, it is
the quotes on the line of the definition that matter. -/
theorem comment_passed (lead : Lead symbolPrefix) (text : Text) (hlead : '\n' ∉ lead.text)
    (htext : '\n' ∉ text) :
    (∀ comment, '"' ∉ comment → lead.stored? text comment = some (Markup.escape text)) ∧
      ∀ line later, '\n' ∉ line → (∀ c ∈ later.head?, c = '\n') →
        (∀ d ∈ definitions symbolPrefix later, d.1 ≠ lead.symbol) →
        (lead.stored? text (line ++ later) = some (Markup.escape text) ↔ '"' ∉ line) := by
  constructor
  · intro comment h
    obtain ⟨line, later, rfl, hline, hlater⟩ : ∃ line later, comment = line ++ later ∧
        '\n' ∉ line ∧ ∀ c ∈ later.head?, c = '\n' := by
      by_cases hn : '\n' ∈ comment
      · obtain ⟨line, rest, rfl, hline⟩ := List.eq_append_cons_of_mem hn
        exact ⟨line, '\n' :: rest, rfl, hline, by simp⟩
      · exact ⟨comment, [], by simp, hn, by simp⟩
    rw [List.mem_append, not_or] at h
    have hother : definitions symbolPrefix later = [] := definitions_unquoted later h.2
    exact stored_led lead text line later hlead htext hline hlater h.1 (by simp [hother])
  · intro line later hline hlater hother
    refine ⟨fun hstored hquote => ?_, fun h =>
      stored_led lead text line later hlead htext hline hlater h hother⟩
    -- the text goes on to the last quote of the line, so it has one quote more
    obtain ⟨front, c, back, rfl, rfl, hback⟩ := last_where (· = '"') line ⟨'"', hquote, rfl⟩
    have hlonger : lead.stored? text (front ++ '"' :: back ++ later) =
        lead.stored? (text ++ '"' :: front) (back ++ later) := by
      simp [Lead.stored?, quoted]
    have hbehind : '"' ∉ back := fun hm => hback '"' hm rfl
    rw [hlonger, stored_led lead (text ++ '"' :: front) back later hlead (by simp_all)
      (by simp_all) hlater hbehind hother] at hstored
    have hcount := congrArg (List.count '"') (Option.some.inj hstored)
    rw [Markup.escape_count _ (by decide), Markup.escape_count _ (by decide), List.count_append,
      List.count_cons_self] at hcount
    omega

theorem comment_passed_block :
    '\n' ∉ sizeLead.text ∧ '\n' ∉ "b_".toList ∧ '"' ∉ " /* b\n * \x27 */".toList ∧
      sizeLead.stored? "b_".toList " /* b\n * \x27 */".toList = some "b\\_".toList ∧
      sizeLead.stored? "b_".toList (" // b".toList ++ "\n// \"".toList) = some "b\\_".toList ∧
      sizeLead.stored? "b_".toList (" // \"".toList ++ []) ≠ some "b\\_".toList := by
  have hlead : '\n' ∉ sizeLead.text := by decide
  have htext : '\n' ∉ "b_".toList := by decide
  have hblock : '"' ∉ " /* b\n * \x27 */".toList := by decide
  obtain ⟨hunquoted, hline⟩ := comment_passed sizeLead "b_".toList hlead htext
  refine ⟨hlead, htext, hblock, hunquoted _ hblock, ?_, ?_⟩
  · have hlater : ∀ c ∈ "\n// \"".toList.head?, c = '\n' := fun c hc => (Option.some.inj hc).symm
    have hother : definitions parameterPrefix "\n// \"".toList = [] := by decide +kernel
    exact (hline " // b".toList _ (by decide) hlater (by rw [hother]; simp)).mpr (by decide)
  · intro hstored
    have hother : definitions parameterPrefix [] = [] := rfl
    exact absurd ((hline " // \"".toList [] (by decide) (by simp) (by simp [hother])).mp hstored)
      (by decide)

/-- A comment with a word in quotes becomes part of the display text. -/
theorem quoted_comment_stored :
    (ofText "#define PARAM_A \"a\" // \"b\"".toList parameterPrefix).get? "PARAM_A".toList =
        some "a\" // \"b".toList ∧
      Markup.escape "a".toList = "a".toList := by
  decide +kernel

end ParameterManual.TranslationTable
