import ParameterManual.Proofs.Source.Comments
import ParameterManual.Proofs.Source.Literal
import ParameterManual.Proofs.Source.Scanning
import ParameterManual.Proofs.Text.Spacing

/-!
# Pieces of source and the gaps between them

Source is laid out as pieces with gaps of blanks between them. What holds of
the pieces and of blanks, outside literals, holds of the layout.
-/

set_option autoImplicit false

namespace ParameterManual.Source
open Text

/-- A text that closes its literals and has outside them only characters with
a property. -/
structure Outside (p : Char → Prop) (t : Text) : Prop where
  closed : Quoting.code.after t = .code
  only : ∀ c ∈ Quoting.code.bare t, p c

theorem outside_nil (p : Char → Prop) : Outside p [] := ⟨rfl, by simp [Quoting.bare]⟩

theorem outside_append (p : Char → Prop) (t u : Text) (ht : Outside p t) (hu : Outside p u) :
    Outside p (t ++ u) := by
  refine ⟨by rw [Quoting.after_append, ht.closed, hu.closed], ?_⟩
  rw [Quoting.bare_append, ht.closed]
  intro c hc
  rcases List.mem_append.mp hc with hc | hc
  · exact ht.only c hc
  · exact hu.only c hc

theorem outside_mono (p q : Char → Prop) (hpq : ∀ c, p c → q c) (t : Text) (h : Outside p t) :
    Outside q t :=
  ⟨h.closed, fun c hc => hpq c (h.only c hc)⟩

theorem outside_literal (p : Char → Prop) (t : Text) : Outside p (literal t) :=
  ⟨after_literal t, by simp [bare_literal]⟩

theorem outside_unquoted (p : Char → Prop) (t : Text)
    (h : ∀ c ∈ t, Quoting.isQuote c = false ∧ p c) : Outside p t := by
  induction t with
  | nil => exact outside_nil p
  | cons c t ih =>
    have hc := h c (by simp)
    refine outside_append p [c] t ⟨?_, ?_⟩ (ih (fun d hd => h d (by simp [hd])))
    · simp [Quoting.after, Quoting.next, hc.1]
    · simp [Quoting.bare, Quoting.covers, hc.1, hc.2]

theorem outside_checked (p : Char → Prop) [DecidablePred p] (t : Text)
    (h : t.all (fun c => !Quoting.isQuote c && decide (p c)) = true) : Outside p t :=
  outside_unquoted p t (by simpa using h)

theorem blank_not_quote (c : Char) (h : isBlank c = true) : Quoting.isQuote c = false := by
  simp only [Quoting.isQuote, Bool.or_eq_false_iff, beq_eq_false_iff_ne]
  constructor
  · rintro rfl
    exact absurd h (by decide)
  · rintro rfl
    exact absurd h (by decide)

theorem outside_blank (p : Char → Prop) (hp : ∀ c, isBlank c = true → p c) (g : Text)
    (hg : isAllBlank g = true) : Outside p g := by
  refine outside_unquoted p g (fun c hc => ?_)
  have hb := (isAllBlank_iff g).mp hg c hc
  exact ⟨blank_not_quote c hb, hp c hb⟩

theorem name_outside (p : Char → Prop) (hp : ∀ c, isNameChar c = true → p c) (t : Text)
    (h : ∀ c ∈ t, isNameChar c = true) : Outside p t := by
  refine outside_unquoted p t (fun c hc => ⟨?_, hp c (h c hc)⟩)
  simp only [Quoting.isQuote, Bool.or_eq_false_iff, beq_eq_false_iff_ne]
  exact ⟨name_char_ne c _ (h c hc) rfl, name_char_ne c _ (h c hc) rfl⟩

/-- Pieces of source, each with the gap before it. -/
abbrev Spaced := List (Text × Text)

def laidOut : Spaced → Text
  | [] => []
  | (gap, piece) :: rest => gap ++ piece ++ laidOut rest

def Spaced.pieces (tokens : Spaced) : List Text := tokens.map Prod.snd

def GapsBlank (tokens : Spaced) : Prop := ∀ token ∈ tokens, isAllBlank token.1 = true

theorem laidOut_append (tokens others : Spaced) :
    laidOut (tokens ++ others) = laidOut tokens ++ laidOut others := by
  induction tokens with
  | nil => rfl
  | cons token rest ih => simp [laidOut, ih]

theorem laidOut_ink (first : Text) (more : Spaced) (hf : Ink first)
    (hm : ∀ piece ∈ more.pieces, Ink piece) : Ink (first ++ laidOut more) := by
  induction more generalizing first with
  | nil => simpa [laidOut] using hf
  | cons token rest ih =>
    have hjoined := ink_append first token.1 token.2 hf (hm token.2 (by simp [Spaced.pieces]))
    have := ih (first ++ token.1 ++ token.2) hjoined
      (fun piece hp => hm piece (List.mem_cons_of_mem _ hp))
    simpa [laidOut] using this

theorem laidOut_outside (p : Char → Prop) (hp : ∀ c, isBlank c = true → p c) (tokens : Spaced)
    (hg : GapsBlank tokens) (ht : ∀ piece ∈ tokens.pieces, Outside p piece) :
    Outside p (laidOut tokens) := by
  induction tokens with
  | nil => exact outside_nil p
  | cons token rest ih =>
    have hgap := outside_blank p hp token.1 (hg token (by simp))
    have hpiece := ht token.2 (by simp [Spaced.pieces])
    exact outside_append p _ _ (outside_append p _ _ hgap hpiece)
      (ih (fun t h => hg t (List.mem_cons_of_mem _ h))
        (fun piece h => ht piece (List.mem_cons_of_mem _ h)))

/-- A text that is pieces laid out, with blanks after the last one too. -/
def Lays (w : Text) (pieces : List Text) : Prop :=
  ∃ tokens : Spaced, ∃ gap, w = laidOut tokens ++ gap ∧ GapsBlank tokens ∧
    isAllBlank gap = true ∧ tokens.pieces = pieces

theorem lays_outside (p : Char → Prop) (hp : ∀ c, isBlank c = true → p c) (w : Text)
    (pieces : List Text) (h : Lays w pieces) (hpieces : ∀ piece ∈ pieces, Outside p piece) :
    Outside p w := by
  obtain ⟨tokens, gap, rfl, hg, hgap, rfl⟩ := h
  exact outside_append p _ _ (laidOut_outside p hp tokens hg hpieces) (outside_blank p hp gap hgap)

theorem lays_chars (p : Char → Prop) (hp : ∀ c, isBlank c = true → p c) (w : Text)
    (pieces : List Text) (h : Lays w pieces) (hpieces : ∀ piece ∈ pieces, ∀ c ∈ piece, p c) :
    ∀ c ∈ w, p c := by
  obtain ⟨tokens, gap, rfl, hg, hgap, rfl⟩ := h
  have hblank (g : Text) (hg : isAllBlank g = true) : ∀ c ∈ g, p c :=
    fun c hc => hp c ((isAllBlank_iff g).mp hg c hc)
  rw [List.forall_mem_append]
  refine ⟨?_, hblank gap hgap⟩
  induction tokens with
  | nil => simp [laidOut]
  | cons token rest ih =>
    obtain ⟨htoken, hrest⟩ := List.forall_mem_cons.mp hg
    obtain ⟨hpiece, hmore⟩ := List.forall_mem_cons.mp hpieces
    rw [laidOut, List.forall_mem_append, List.forall_mem_append]
    exact ⟨⟨hblank token.1 htoken, hpiece⟩, ih hrest hmore⟩

theorem lays_blanks (w : Text) (h : Lays w []) : isAllBlank w = true :=
  (isAllBlank_iff w).mpr (lays_chars (isBlank · = true) (fun _ hc => hc) w [] h (by simp))

theorem lays_single (w piece : Text) (h : Lays w [piece]) (hp : Ink piece) : trim w = piece := by
  obtain ⟨tokens, gap, rfl, hg, hgap, ht⟩ := h
  obtain ⟨⟨lead, own⟩, rfl, rfl⟩ := List.map_eq_singleton_iff.mp ht
  rw [laidOut, laidOut, List.append_nil]
  exact trim_ink lead own gap (hg (lead, own) (by simp)) hp hgap

theorem lays_split (tokens : Spaced) (front back : List Text) (mark : Text)
    (hg : GapsBlank tokens) (h : tokens.pieces = front ++ mark :: back) :
    ∃ w, ∃ others : Spaced, laidOut tokens = w ++ mark ++ laidOut others ∧ Lays w front ∧
      GapsBlank others ∧ others.pieces = back := by
  obtain ⟨before, rest, rfl, hb, hr⟩ := List.map_eq_append_iff.mp h
  obtain ⟨⟨gap, own⟩, others, rfl, rfl, ho⟩ := List.map_eq_cons_iff.mp hr
  refine ⟨laidOut before ++ gap, others, ?_, ⟨before, gap, rfl, ?_, ?_, hb⟩, ?_, ho⟩
  · rw [laidOut_append, laidOut]
    simp
  · exact fun token ht => hg token (by simp [ht])
  · exact hg (gap, own) (by simp)
  · exact fun token ht => hg token (by simp [ht])

def IsInert (c : Char) : Prop := c ≠ '/' ∧ c ≠ '\x7b' ∧ c ≠ '\x7d'

instance : DecidablePred IsInert := fun c =>
  inferInstanceAs (Decidable (c ≠ '/' ∧ c ≠ '\x7b' ∧ c ≠ '\x7d'))

theorem blank_inert (c : Char) (h : isBlank c = true) : IsInert c :=
  ⟨fun hc => by simp [hc, isBlank] at h, fun hc => by simp [hc, isBlank] at h,
    fun hc => by simp [hc, isBlank] at h⟩

theorem name_inert (c : Char) (h : isNameChar c = true) : IsInert c :=
  ⟨name_char_ne c _ h rfl, name_char_ne c _ h rfl, name_char_ne c _ h rfl⟩

/-- What a piece must be for a line of pieces to be read as it stands. -/
structure Readable (piece : Text) : Prop where
  ink : Ink piece
  inert : Outside IsInert piece

end ParameterManual.Source
