import ParameterManual.Proofs.Markup

/-!
# Escaping joined texts

Of what stands before a text, its escaping depends on two things: whether the
last character is a backslash, and whether inline math has been opened and not
closed. A text that closes what it opens is escaped by itself when it is
joined to others, and the whole is escaped exactly if its parts are.
-/

set_option autoImplicit false

namespace ParameterManual.Markup

def after (escaped : Bool) (t : Text) : Bool := t.foldl (fun _ c => c == '\\') escaped

theorem after_cons (escaped : Bool) (c : Char) (t : Text) :
    after escaped (c :: t) = after (c == '\\') t := rfl

theorem after_append (escaped : Bool) (t more : Text) :
    after escaped (t ++ more) = after (after escaped t) more := List.foldl_append

/-- A text that leaves no inline math open. -/
def Closed (escaped : Bool) (t : Text) : Prop :=
  ∀ rest, escapeText escaped (t ++ rest) = escapeText escaped t ++ escapeText (after escaped t) rest

theorem delimiter_append (escaped : Bool) (t rest : Text) :
    hasDelimiter escaped (t ++ rest) =
      (hasDelimiter escaped t || hasDelimiter (after escaped t) rest) := by
  induction t generalizing escaped with
  | nil => rfl
  | cons c t ih => rw [List.cons_append, hasDelimiter, hasDelimiter, ih, after_cons, Bool.or_assoc]

section characters
variable (c : Char) (t : Text)

theorem text_escaped : escapeText true (c :: t) = c :: escapeText (c == '\\') t := by
  rw [escapeText, if_pos rfl]

theorem text_opens (h : hasDelimiter false t = true) :
    escapeText false ('$' :: t) = '$' :: escapeMath false t := by
  rw [escapeText, if_neg Bool.false_ne_true, if_pos ⟨rfl, h⟩]

theorem text_special (hs : isSpecial c = true) (h : c = '$' → hasDelimiter false t = false) :
    escapeText false (c :: t) = '\\' :: c :: escapeText false t := by
  have hopen : ¬ (c = '$' ∧ hasDelimiter false t = true) := by
    rintro ⟨hc, hd⟩
    rw [h hc] at hd
    cases hd
  rw [escapeText, if_neg Bool.false_ne_true, if_neg hopen, if_pos hs]

theorem text_plain (hs : isSpecial c = false) :
    escapeText false (c :: t) = c :: escapeText (c == '\\') t := by
  have hopen : ¬ (c = '$' ∧ hasDelimiter false t = true) := by
    rintro ⟨rfl, -⟩
    cases hs
  rw [escapeText, if_neg Bool.false_ne_true, if_neg hopen, if_neg (Bool.eq_false_iff.mp hs)]

theorem math_closes : escapeMath false ('$' :: t) = '$' :: escapeText false t := by
  rw [escapeMath, if_pos ⟨rfl, rfl⟩]

theorem math_other (escaped : Bool) (h : ¬ (c = '$' ∧ escaped = false)) :
    escapeMath escaped (c :: t) = c :: escapeMath (c == '\\') t := by
  rw [escapeMath, if_neg h]

end characters

theorem undelimited_closed (escaped : Bool) (t : Text) (h : hasDelimiter escaped t = false) :
    Closed escaped t := by
  induction t generalizing escaped with
  | nil => exact fun _ => rfl
  | cons c t ih =>
    rw [hasDelimiter, Bool.or_eq_false_iff] at h
    intro rest
    have hrest := ih (c == '\\') h.2 rest
    rw [List.cons_append, after_cons]
    cases escaped with
    | true => rw [text_escaped, text_escaped, hrest, List.cons_append]
    | false =>
      cases hs : isSpecial c with
      | false => rw [text_plain c _ hs, text_plain c _ hs, hrest, List.cons_append]
      | true =>
        have hc : c ≠ '$' := by
          rintro rfl
          cases h.1
        have hstate : (c == '\\') = false := beq_eq_false_iff_ne.mpr (special_plain c hs)
        rw [hstate] at hrest ⊢
        rw [text_special c _ hs (fun hd => absurd hd hc),
          text_special c _ hs (fun hd => absurd hd hc), hrest, List.cons_append, List.cons_append]

/-- In a text that is escaped, every dollar sign that opens inline math has
one that closes it. -/
theorem kept_parts (t : Text) (escaped : Bool) :
    (escapeText escaped t = t → ∀ rest,
        escapeText escaped (t ++ rest) = t ++ escapeText (after escaped t) rest) ∧
      (escapeMath escaped t = t → hasDelimiter escaped t = true → ∀ rest,
        escapeMath escaped (t ++ rest) = t ++ escapeText (after escaped t) rest) := by
  induction t generalizing escaped with
  | nil =>
    refine ⟨fun _ _ => rfl, ?_⟩
    intro _ h
    cases h
  | cons c t ih =>
    constructor
    · intro h rest
      rw [List.cons_append, after_cons]
      cases escaped with
      | true =>
        rw [text_escaped] at h ⊢
        rw [(ih (c == '\\')).1 (List.cons.inj h).2 rest, List.cons_append]
      | false =>
        by_cases hopen : c = '$' ∧ hasDelimiter false t = true
        · obtain ⟨rfl, hd⟩ := hopen
          have hlater : hasDelimiter false (t ++ rest) = true := by
            rw [delimiter_append, hd, Bool.true_or]
          rw [text_opens t hd] at h
          rw [text_opens _ hlater, (ih false).2 (List.cons.inj h).2 hd rest, List.cons_append]
          rfl
        · cases hs : isSpecial c with
          | false =>
            rw [text_plain c _ hs] at h ⊢
            rw [(ih (c == '\\')).1 (List.cons.inj h).2 rest, List.cons_append]
          | true =>
            have hlone : c = '$' → hasDelimiter false t = false :=
              fun hc => Bool.eq_false_iff.mpr (fun hd => hopen ⟨hc, hd⟩)
            rw [text_special c t hs hlone] at h
            exact absurd (List.cons.inj h).1.symm (special_plain c hs)
    · intro h hd rest
      rw [List.cons_append, after_cons]
      by_cases hclose : c = '$' ∧ escaped = false
      · obtain ⟨rfl, rfl⟩ := hclose
        rw [math_closes] at h ⊢
        rw [(ih false).1 (List.cons.inj h).2 rest, List.cons_append]
        rfl
      · rw [delimiter_rest c t escaped hclose] at hd
        rw [math_other c _ escaped hclose] at h ⊢
        rw [(ih (c == '\\')).2 (List.cons.inj h).2 hd rest, List.cons_append]

theorem kept_closed (escaped : Bool) (t : Text) (h : escapeText escaped t = t) :
    Closed escaped t := by
  intro rest
  rw [h]
  exact (kept_parts t escaped).1 h rest

theorem escape_sublist (t : Text) (escaped : Bool) :
    t.Sublist (escapeText escaped t) ∧ t.Sublist (escapeMath escaped t) := by
  induction t generalizing escaped with
  | nil => exact ⟨List.Sublist.slnil, List.Sublist.slnil⟩
  | cons c t ih =>
    constructor
    · rw [escapeText]
      split
      · exact (ih _).1.cons_cons c
      · split
        · exact (ih _).2.cons_cons c
        · split
          · exact ((ih _).1.cons_cons c).cons '\\'
          · exact (ih _).1.cons_cons c
    · rw [escapeMath]
      split
      · exact (ih _).1.cons_cons c
      · exact (ih _).2.cons_cons c

theorem closed_append (escaped : Bool) (t more : Text) (h : Closed escaped t)
    (hmore : Closed (after escaped t) more) : Closed escaped (t ++ more) := by
  intro rest
  rw [List.append_assoc, h, hmore, h, after_append, List.append_assoc]

/-- A text is left as it is after one that is closed, exactly if both are. -/
theorem kept_append (escaped : Bool) (t more : Text) (h : Closed escaped t) :
    escapeText escaped (t ++ more) = t ++ more ↔
      escapeText escaped t = t ∧ escapeText (after escaped t) more = more := by
  rw [h more]
  constructor
  · intro heq
    have hlength := congrArg List.length heq
    rw [List.length_append, List.length_append] at hlength
    have hfirst := (escape_sublist t escaped).1
    have hlast := (escape_sublist more (after escaped t)).1
    have hlt := hfirst.length_le
    have hlm := hlast.length_le
    exact ⟨(hfirst.eq_of_length (by omega)).symm, (hlast.eq_of_length (by omega)).symm⟩
  · rintro ⟨ht, hmore⟩
    rw [ht, hmore]

/-- A closed text that does not end with a backslash: it has no part in how
what follows is escaped. -/
structure Separate (t : Text) : Prop where
  closed : Closed false t
  ends : after false t = false

theorem separate_nil : Separate [] := ⟨fun _ => rfl, rfl⟩

theorem separate_append (t more : Text) (h : Separate t) (hmore : Separate more) :
    Separate (t ++ more) := by
  constructor
  · apply closed_append false t more h.closed
    rw [h.ends]
    exact hmore.closed
  · rw [after_append, h.ends, hmore.ends]

theorem escaped_append (t more : Text) (h : Separate t) :
    Escaped (t ++ more) ↔ Escaped t ∧ Escaped more := by
  have hkept := kept_append false t more h.closed
  rw [h.ends] at hkept
  exact hkept

theorem separate_flatMap {α : Type} (f : α → Text) (list : List α)
    (h : ∀ a ∈ list, Separate (f a)) : Separate (list.flatMap f) := by
  induction list with
  | nil => exact separate_nil
  | cons a rest ih =>
    rw [List.flatMap_cons]
    exact separate_append _ _ (h a (by simp)) (ih (fun b hb => h b (by simp [hb])))

theorem escaped_flatMap {α : Type} (f : α → Text) (list : List α)
    (h : ∀ a ∈ list, Separate (f a)) :
    Escaped (list.flatMap f) ↔ ∀ a ∈ list, Escaped (f a) := by
  induction list with
  | nil => simp [nil_escaped]
  | cons a rest ih =>
    rw [List.flatMap_cons, escaped_append _ _ (h a (by simp)), ih (fun b hb => h b (by simp [hb])),
      List.forall_mem_cons]

/-- A text that is escaped, wherever it stands between others that are. -/
structure Settled (t : Text) : Prop extends Separate t where
  escaped : Escaped t

theorem settled_nil : Settled [] := { separate_nil with escaped := nil_escaped }

theorem settled_append (t more : Text) (h : Settled t) (hmore : Settled more) :
    Settled (t ++ more) :=
  { separate_append t more h.toSeparate hmore.toSeparate with
    escaped := (escaped_append t more h.toSeparate).mpr ⟨h.escaped, hmore.escaped⟩ }

end ParameterManual.Markup
