import ParameterManual.Proofs.Constructor.Value
import ParameterManual.Proofs.Source.Placing
import ParameterManual.Proofs.Statement.Bind

/-!
# Binds that spell three texts

A bind names a description, a value and a default written as literals. The
literals may be cut in any way, and the texts may hold any character. With any
blanks between its pieces it is read as the bind that it spells.
-/

set_option autoImplicit false

namespace ParameterManual.Constructor
open Source Statement Text

def isTypeChar (c : Char) : Bool :=
  !Quoting.isQuote c && decide (IsInert c) && c != '(' && c != ';' && !isBlank c

/-- A bind of a symbol and a member that spells three texts, with the words of
its type. -/
structure LiteralBind (symbol member d e v : Text) where
  template : List Text
  description : Cut d
  value : Cut e
  default : Cut v
  template_closed : anglesBalanced 0 template.flatten = true
  template_words : template.all (fun word => !word.isEmpty && word.all isTypeChar) = true

namespace LiteralBind

variable {symbol member d e v : Text} (b : LiteralBind symbol member d e v)

def rest : List Text :=
  b.template ++ ['>'] :: ([] ++ ['('] :: ([symbol] ++ [','] :: (['&' :: member] ++ [','] ::
    (b.description.literals ++ [','] :: (b.value.literals ++ [','] ::
      (b.default.literals ++ [')'] :: []))))))

theorem template_chars : ∀ word ∈ b.template, word ≠ [] ∧
    ∀ c ∈ word, (Quoting.isQuote c = false ∧ IsInert c) ∧ (c ≠ '(' ∧ c ≠ ';') ∧ isBlank c = false := by
  simpa [isTypeChar, and_assoc] using b.template_words

def Inner (piece : Text) : Prop := Readable piece ∧ piece.endsWithChar ';' = false

theorem inner_last (front : Text) (c : Char) (h : Readable (front ++ [c])) (hc : c ≠ ';') :
    Inner (front ++ [c]) := by
  refine ⟨h, ?_⟩
  rw [endsWithChar_last front [c] ';' (by simp)]
  simpa [endsWithChar] using hc

theorem inner_word (word : Text) (hne : word ≠ [])
    (h : ∀ c ∈ word, (Quoting.isQuote c = false ∧ IsInert c) ∧ c ≠ ';' ∧ isBlank c = false) :
    Inner word := by
  have hink : Ink word := ink_of_solid word hne (by simpa using fun c hc => (h c hc).2.2)
  have hinert := outside_unquoted IsInert word (fun c hc => (h c hc).1)
  obtain ⟨front, c, rfl, -⟩ := hink.last
  exact inner_last front c ⟨hink, hinert⟩ (h c (by simp)).2.1

theorem inner_name (name : Text) (hne : name ≠ []) (h : ∀ c ∈ name, isNameChar c = true) :
    Inner name := by
  refine inner_word name hne (fun c hc => ⟨⟨?_, name_inert c (h c hc)⟩, ?_, ?_⟩)
  · simp [Quoting.isQuote, name_char_ne c '"' (h c hc) rfl, name_char_ne c '\'' (h c hc) rfl]
  · exact name_char_ne c ';' (h c hc) rfl
  · exact name_not_blank c (h c hc)

theorem inner_mark (c : Char) (h : isTypeChar c = true ∨ c = '(') : Inner [c] := by
  rcases h with h | rfl
  · refine inner_word [c] (by simp) ?_
    simp [isTypeChar] at h
    simpa using ⟨⟨h.1.1.1.1, h.1.1.1.2⟩, h.1.2, h.2⟩
  · exact inner_word ['('] (by simp) (by simp [Quoting.isQuote, IsInert, isBlank])

theorem inner_reference (h : ∀ c ∈ member, isNameChar c = true) : Inner ('&' :: member) := by
  by_cases hne : member = []
  · rw [hne]
    exact inner_mark '&' (Or.inl rfl)
  · have hname := inner_name member hne h
    have hmark := inner_mark '&' (Or.inl rfl)
    refine ⟨⟨reference_ink member h, ?_⟩, (endsWithChar_last ['&'] member ';' hne).trans hname.2⟩
    exact outside_append IsInert ['&'] member hmark.1.inert hname.1.inert

theorem inner_literal (t : Text) : Inner (literal t) :=
  inner_last ('"' :: t.flatMap escapedChar) '"' (literal_readable t) (by decide)

theorem rest_inner (hs : symbol ≠ []) (hsymbol : ∀ c ∈ symbol, isNameChar c = true)
    (hmember : ∀ c ∈ member, isNameChar c = true) : ∀ piece ∈ b.rest, Inner piece := by
  have hliteral {t : Text} (cut : Cut t) : ∀ piece ∈ cut.literals, Inner piece := by
    intro piece hp
    obtain ⟨part, -, rfl⟩ := List.mem_map.mp hp
    exact inner_literal part
  intro piece hp
  simp only [rest, List.mem_append, List.mem_cons, List.not_mem_nil, or_false, false_or] at hp
  rcases hp with hp | rfl | rfl | rfl | rfl | rfl | rfl | hp | rfl | hp | rfl | hp | rfl
  · obtain ⟨hne, hchars⟩ := b.template_chars piece hp
    exact inner_word piece hne (fun c hc => ⟨(hchars c hc).1, (hchars c hc).2.1.2, (hchars c hc).2.2⟩)
  · exact inner_mark '>' (Or.inl rfl)
  · exact inner_mark '(' (Or.inr rfl)
  · exact inner_name piece hs hsymbol
  · exact inner_mark ',' (Or.inl rfl)
  · exact inner_reference hmember
  · exact inner_mark ',' (Or.inl rfl)
  · exact hliteral b.description piece hp
  · exact inner_mark ',' (Or.inl rfl)
  · exact hliteral b.value piece hp
  · exact inner_mark ',' (Or.inl rfl)
  · exact hliteral b.default piece hp
  · exact inner_mark ')' (Or.inl rfl)

/-- The pieces with any blanks between them are read as a bind of the symbol,
a reference to the member and three arguments that spell the texts. What
follows them is read as modifiers. -/
theorem parse_laid (hs : symbol ≠ []) (hsymbol : ∀ c ∈ symbol, isNameChar c = true)
    (hmember : ∀ c ∈ member, isNameChar c = true) (w : Text) (h : Lays w b.rest) :
    ∃ template description value default gap, Spells description d ∧ Spells value e ∧
      Spells default v ∧ isAllBlank gap = true ∧ ∀ tail, parse (bindLead ++ w ++ tail) =
        (fun chain => some (.bind template
          [symbol, '&' :: member, description, value, default] chain)) <$>
            modifiers (unended (gap ++ tail)) := by
  obtain ⟨tokens, gap, rfl, hg, hgap, hrest⟩ := h
  obtain ⟨w₀, ts₀, e₀, lays₀, g₀, p₀⟩ := lays_split tokens b.template _ ['>'] hg hrest
  obtain ⟨u, ts, e, lays, g, p⟩ := lays_split ts₀ [] _ ['('] g₀ p₀
  obtain ⟨w₁, ts₁, e₁, lays₁, g₁, p₁⟩ := lays_split ts [symbol] _ [','] g p
  obtain ⟨w₂, ts₂, e₂, lays₂, g₂, p₂⟩ := lays_split ts₁ ['&' :: member] _ [','] g₁ p₁
  obtain ⟨w₃, ts₃, e₃, lays₃, g₃, p₃⟩ := lays_split ts₂ b.description.literals _ [','] g₂ p₂
  obtain ⟨w₄, ts₄, e₄, lays₄, g₄, p₄⟩ := lays_split ts₃ b.value.literals _ [','] g₃ p₃
  obtain ⟨w₅, ts₅, e₅, lays₅, g₅, p₅⟩ := lays_split ts₄ b.default.literals _ [')'] g₄ p₄
  obtain rfl : ts₅ = [] := List.map_eq_nil_iff.mp p₅
  have htext (tail : Text) : bindLead ++ (laidOut tokens ++ gap) ++ tail =
      bindLead ++ (w₀ ++ '>' :: (u ++ '(' :: (separated w₁ [w₂, w₃, w₄, w₅] ++
        ')' :: (gap ++ tail)))) := by
    rw [e₀, e, e₁, e₂, e₃, e₄, e₅]
    simp [separated, laidOut]
  have hclosed : anglesBalanced 0 w₀ = true :=
    (angles_laid w₀ b.template lays₀ 0).trans b.template_closed
  have hplain : ∀ c ∈ w₀, c ≠ '(' ∧ c ≠ ';' := by
    refine lays_chars (fun c => c ≠ '(' ∧ c ≠ ';') ?_ w₀ b.template lays₀ (fun word hw c hc => ?_)
    · exact fun c hc => ⟨blank_ne c '(' hc rfl, blank_ne c ';' hc rfl⟩
    · exact ((b.template_chars word hw).2 c hc).2.1
  have hname : Outside IsSeparate w₁ := by
    refine lays_outside IsSeparate blank_separate w₁ _ lays₁ (fun piece hp => ?_)
    obtain rfl := List.mem_singleton.mp hp
    exact name_outside IsSeparate name_separate piece hsymbol
  have href : Outside IsSeparate w₂ := by
    refine lays_outside IsSeparate blank_separate w₂ _ lays₂ (fun piece hp => ?_)
    obtain rfl := List.mem_singleton.mp hp
    exact outside_append IsSeparate ['&'] member
      (outside_unquoted IsSeparate _ (by simp [Quoting.isQuote, IsSeparate, opens, Source.closes]))
      (name_outside IsSeparate name_separate member hmember)
  have hliteral {t : Text} (cut : Cut t) (w : Text) (h : Lays w cut.literals) :
      Outside IsSeparate w := by
    refine lays_outside IsSeparate blank_separate w _ h (fun piece hp => ?_)
    obtain ⟨part, -, rfl⟩ := List.mem_map.mp hp
    exact outside_literal IsSeparate part
  have hmore : ∀ w ∈ [w₂, w₃, w₄, w₅], Outside IsSeparate w := by
    simpa using ⟨href, hliteral _ w₃ lays₃, hliteral _ w₄ lays₄, hliteral _ w₅ lays₅⟩
  have hparens (w : Text) (h : Outside IsSeparate w) : Outside (fun c => c ≠ '(' ∧ c ≠ ')') w := by
    refine outside_mono IsSeparate _ (fun c hc => ⟨?_, ?_⟩) w h
    · rintro rfl
      exact absurd hc.2.1 (by decide)
    · rintro rfl
      exact absurd hc.2.2 (by decide)
  have harguments := separated_outside (fun c => c ≠ '(' ∧ c ≠ ')') (by decide) w₁
    [w₂, w₃, w₄, w₅] (hparens w₁ hname) (fun w hw => hparens w (hmore w hw))
  refine ⟨w₀.trim, w₃.trim, w₄.trim, w₅.trim, gap, lays_spells _ w₃ lays₃, lays_spells _ w₄ lays₄,
    lays_spells _ w₅ lays₅, hgap, fun tail => ?_⟩
  rw [htext, parse_bind w₀ u _ _ hclosed hplain (lays_blanks u lays) harguments,
    split_separated w₁ w₂ [w₃, w₄, w₅] hname hmore]
  have hink := ink_of_name symbol hs hsymbol
  simp only [List.map_cons, List.map_nil, lays_single w₁ symbol lays₁ hink,
    lays_single w₂ _ lays₂ (reference_ink member hmember)]

end LiteralBind

end ParameterManual.Constructor
