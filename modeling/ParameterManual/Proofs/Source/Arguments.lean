import ParameterManual.Proofs.Source.Depth

/-!
# Arguments laid out as literals

Arguments whose commas and brackets all lie inside literals are the stretches
between the commas. A text cut into adjacent literals, with blanks between
them, is read back as the text.
-/

set_option autoImplicit false

namespace ParameterManual.Source
open Text

def IsSeparate (c : Char) : Prop := c ≠ ',' ∧ opens c = false ∧ closes c = false

theorem blank_separate (c : Char) (h : isBlank c = true) : IsSeparate c := by
  have hne (d : Char) (hd : isBlank d = false) : c ≠ d := blank_ne c d h hd
  refine ⟨hne _ rfl, ?_, ?_⟩
  · simp [opens, hne '(' rfl, hne '\x7b' rfl, hne '[' rfl]
  · simp [closes, hne ')' rfl, hne '\x7d' rfl, hne ']' rfl]

theorem name_separate (c : Char) (h : isNameChar c = true) : IsSeparate c := by
  refine ⟨name_char_ne c _ h rfl, ?_, ?_⟩
  · simp [opens, name_char_ne c '(' h rfl, name_char_ne c '\x7b' h rfl, name_char_ne c '[' h rfl]
  · simp [closes, name_char_ne c ')' h rfl, name_char_ne c '\x7d' h rfl, name_char_ne c ']' h rfl]

theorem separate_level (w : Text) (h : Outside IsSeparate w) :
    level separating .code 0 w = some 0 :=
  level_ignored separating _ separating_ignores .code 0 w h.only

theorem segments_comma (w t : Text) (h : Outside IsSeparate w) :
    segments .code 0 (w ++ ',' :: t) = w :: segments .code 0 t := by
  have hcomma : segments .code 0 (',' :: t) = [] :: segments .code 0 t := by
    simp [segments, Quoting.covers, Quoting.isQuote]
  rw [segments_level .code 0 0 w _ (separate_level w h), h.closed, hcomma, extend_first,
    List.append_nil]

theorem segments_last (w : Text) (h : Outside IsSeparate w) : segments .code 0 w = [w] := by
  have := segments_level .code 0 0 w [] (separate_level w h)
  rw [List.append_nil, h.closed] at this
  rw [this, segments, extend_first, List.append_nil]

def separated : (first : Text) → (more : List Text) → Text
  | first, [] => first
  | first, second :: more => first ++ ',' :: separated second more

theorem segments_separated (first : Text) (more : List Text) (hf : Outside IsSeparate first)
    (hm : ∀ w ∈ more, Outside IsSeparate w) :
    segments .code 0 (separated first more) = first :: more := by
  induction more generalizing first with
  | nil => exact segments_last first hf
  | cons second more ih =>
    rw [separated, segments_comma first _ hf,
      ih second (hm second (by simp)) (fun w hw => hm w (by simp [hw]))]

theorem separated_outside (p : Char → Prop) (hcomma : p ',') (first : Text) (more : List Text)
    (hf : Outside p first) (hm : ∀ w ∈ more, Outside p w) : Outside p (separated first more) := by
  induction more generalizing first with
  | nil => exact hf
  | cons second more ih =>
    have hmark : Outside p [','] :=
      outside_unquoted p _ (by simpa [Quoting.isQuote] using hcomma)
    have hrest := ih second (hm second (by simp)) (fun w hw => hm w (by simp [hw]))
    exact outside_append p first _ hf (outside_append p [','] _ hmark hrest)

theorem split_separated (first second : Text) (more : List Text)
    (hf : Outside IsSeparate first) (hm : ∀ w ∈ second :: more, Outside IsSeparate w) :
    splitArguments (separated first (second :: more)) = (first :: second :: more).map trim := by
  have hmark : isAllBlank (separated first (second :: more)) = false := by
    rw [isAllBlank, separated, List.all_append, List.all_cons]
    simp [isBlank]
  rw [splitArguments, hmark, segments_separated first (second :: more) hf hm]
  simp

/-- A text cut into parts, at least one. -/
structure Cut (t : Text) where
  parts : List Text
  parts_ne : parts ≠ []
  joined : parts.flatten = t

def Cut.literals {t : Text} (cut : Cut t) : List Text := cut.parts.map literal

theorem literal_ink (t : Text) : Ink (literal t) :=
  ⟨⟨'"', _, rfl, rfl⟩, '"' :: t.flatMap escapedChar, '"', by simp [literal], rfl⟩

theorem literal_readable (t : Text) : Readable (literal t) :=
  ⟨literal_ink t, outside_literal IsInert t⟩

theorem contents_laidOut (tokens : Spaced) (parts : List Text) (hg : GapsBlank tokens)
    (h : tokens.pieces = parts.map literal) :
    literalContents (laidOut tokens) = parts.flatten := by
  induction tokens generalizing parts with
  | nil =>
    obtain rfl : parts = [] := by simpa [Spaced.pieces] using h.symm
    rfl
  | cons token rest ih =>
    obtain ⟨gap, piece⟩ := token
    cases parts with
    | nil => simp [Spaced.pieces] at h
    | cons part parts =>
      obtain ⟨rfl, hrest⟩ : piece = literal part ∧ Spaced.pieces rest = parts.map literal := by
        simpa [Spaced.pieces] using h
      have hgap := blank_unquoted gap (hg (gap, literal part) (by simp))
      rw [laidOut, List.append_assoc, contents_skip gap _ hgap, contents_literal,
        ih parts (fun t ht => hg t (by simp [ht])) hrest, List.flatten_cons]

/-- An argument that starts as a literal and stands for a text. -/
structure Spells (argument t : Text) : Prop where
  ink : Ink argument
  quoted : ∃ rest, argument = '"' :: rest
  contents : literalContents argument = t

theorem Spells.unquote {argument t : Text} (h : Spells argument t) :
    Source.unquote argument = t := by
  obtain ⟨rest, hq⟩ := h.quoted
  rw [Source.unquote, trim_ink_self argument h.ink]
  simpa [hq] using h.contents

theorem lays_spells {t : Text} (cut : Cut t) (w : Text) (h : Lays w cut.literals) :
    Spells (trim w) t := by
  obtain ⟨tokens, gap, rfl, hg, hgap, hpieces⟩ := h
  obtain ⟨parts, hne, hjoined⟩ := cut
  change tokens.pieces = parts.map literal at hpieces
  cases tokens with
  | nil => exact absurd (by simpa [Spaced.pieces] using hpieces.symm) hne
  | cons token rest =>
    obtain ⟨lead, piece⟩ := token
    obtain ⟨part, more, rfl, rfl, hrest⟩ : ∃ part more, parts = part :: more ∧
        literal part = piece ∧ more.map literal = Spaced.pieces rest :=
      List.map_eq_cons_iff.mp hpieces.symm
    have hpieces : ∀ p ∈ Spaced.pieces rest, Ink p := by
      intro p hp
      rw [← hrest] at hp
      obtain ⟨q, -, rfl⟩ := List.mem_map.mp hp
      exact literal_ink q
    have hink := laidOut_ink (literal part) rest (literal_ink part) hpieces
    have htrim : trim (laidOut ((lead, literal part) :: rest) ++ gap) =
        literal part ++ laidOut rest := by
      rw [laidOut, List.append_assoc lead]
      exact trim_ink lead _ gap (hg (lead, literal part) (by simp)) hink hgap
    rw [htrim]
    refine ⟨hink, ⟨_, rfl⟩, ?_⟩
    rw [contents_literal, contents_laidOut rest more (fun t ht => hg t (by simp [ht])) hrest.symm,
      ← List.flatten_cons, hjoined]

end ParameterManual.Source
