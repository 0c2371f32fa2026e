import ParameterManual.Proofs.Member.Spelling

/-!
# Lines that declare a member

A line that spells a type and behind a gap a name is read back as the two, the
type without its blanks, whatever the layout and the initializer. Two kinds of
line are not read: a line on which the letters of template occur, be it within
a longer identifier, and one with a blank in front of an opening angle.
-/

set_option autoImplicit false

namespace ParameterManual.Member
open Text

/-- A line that declares a member: a type, a gap, a name, and an initializer
that holds no parenthesis. -/
structure DeclarationLine where
  type : Spelling
  gap : Gap
  apart : gap.val ≠ []
  name : Identifier
  after : Gap
  initializer : Option Text
  plain : ∀ e ∈ initializer, '(' ∉ e ∧ ')' ∉ e

namespace DeclarationLine

def declared (l : DeclarationLine) : Text :=
  l.type.text ++ (l.gap.val ++ (l.name.val ++ l.after.val))

def text (l : DeclarationLine) : Text :=
  l.declared ++ l.initializer.elim [] ('=' :: ·) ++ [';']

theorem declared_chars (l : DeclarationLine) : ∀ c ∈ l.declared, isTypeChar c = true := by
  intro c hc
  simp only [declared, List.mem_append] at hc
  rcases hc with hc | hc | hc | hc
  · exact spelling_chars l.type c hc
  · exact gap_typed l.gap c hc
  · simp [isTypeChar, identifier_chars l.name c hc]
  · exact gap_typed l.after c hc

theorem declared_free (l : DeclarationLine) (d : Char) (hd : isTypeChar d = false) :
    ∀ c ∈ l.declared, c ≠ d := by
  rintro c hc rfl
  rw [declared_chars l c hc] at hd
  cases hd

theorem declared_first (l : DeclarationLine) :
    ∃ c r, l.declared = c :: r ∧ (isNameChar c = true ∨ c = ':') := by
  obtain ⟨c, r, hr, hc⟩ := spelling_first l.type
  exact ⟨c, _, by rw [declared, hr, List.cons_append], hc⟩

theorem text_first (l : DeclarationLine) :
    ∃ c r, l.text = c :: r ∧ (isNameChar c = true ∨ c = ':') := by
  obtain ⟨c, r, hr, hc⟩ := declared_first l
  exact ⟨c, _, by rw [text, hr, List.append_assoc, List.cons_append], hc⟩

theorem text_trim (l : DeclarationLine) : trim l.text = l.text := by
  obtain ⟨c, r, hr, hc⟩ := text_first l
  refine trim_ink_self l.text ⟨⟨c, r, hr, ?_⟩, ⟨_, ';', rfl, by decide⟩⟩
  rcases hc with hc | rfl
  · exact name_not_blank c hc
  · decide

theorem text_without (l : DeclarationLine) (d : Char) (hd : d = '(' ∨ d = ')') : d ∉ l.text := by
  intro h
  have hfree : ∀ c ∈ l.declared, c ≠ d := by
    rcases hd with rfl | rfl <;> exact declared_free l _ (by decide)
  rw [text, List.append_assoc] at h
  rcases List.mem_append.mp h with h | h
  · exact hfree d h rfl
  rcases List.mem_append.mp h with h | h
  · cases he : l.initializer with
    | none => simp [he] at h
    | some e =>
      have hplain := l.plain e he
      rcases hd with rfl | rfl
      · exact hplain.1 (by simpa [he] using h)
      · exact hplain.2 (by simpa [he] using h)
  · rcases hd with rfl | rfl <;> simp at h

theorem text_declares (l : DeclarationLine) :
    mayDeclare l.text = !occursIn "template".toList l.text := by
  have hhead : (l.text.head? != some '#') = true := by
    obtain ⟨c, r, hr, hc⟩ := text_first l
    have hne : c ≠ '#' := by
      rcases hc with hc | rfl
      · exact name_char_ne c '#' hc rfl
      · decide
    simp [hr, hne]
  have hends : l.text.endsWithChar ';' = true := by
    simp [text, endsWithChar]
  have hopening : l.text.contains '(' = false := by
    simpa using text_without l '(' (Or.inl rfl)
  have hclosing : l.text.contains ')' = false := by
    simpa using text_without l ')' (Or.inr rfl)
  rw [mayDeclare, hhead, hends, hopening, hclosing]
  simp

theorem text_declared (l : DeclarationLine) : withoutInitializer l.text = l.declared := by
  have hopened : ∀ c ∈ l.declared, (c != '\x7b') = true := by
    simpa using declared_free l '\x7b' (by decide)
  have hset : ∀ c ∈ l.declared, (c != '=') = true := by
    simpa using declared_free l '=' (by decide)
  obtain ⟨u, hu, hstop⟩ : ∃ u, dropEndWhile (· == ';') l.text = l.declared ++ u ∧
      u.takeWhile (· != '=') = [] := by
    cases he : l.initializer with
    | none =>
      obtain ⟨c, r, hr, -⟩ := declared_first l
      have hne : l.declared ≠ [] := by simp [hr]
      have hend := declared_free l ';' (by decide) _ (List.getLast_mem hne)
      refine ⟨[], ?_, rfl⟩
      rw [text, he, Option.elim_none, List.append_nil]
      exact drop_end (· == ';') l.declared [';'] (by simp)
        ⟨_, _, (List.dropLast_concat_getLast hne).symm, by simpa using hend⟩
    | some e =>
      have hv := dropEnd_behind (· == ';') l.declared (e ++ [';']) '=' (by decide)
      refine ⟨'=' :: dropEndWhile (· == ';') (e ++ [';']), ?_, rfl⟩
      rw [text, he, ← hv]
      simp
  have hself := takeWhile_stopped (· != '\x7b') l.declared [] hopened rfl
  rw [List.append_nil] at hself
  rw [withoutInitializer, hu, takeWhile_stopped _ l.declared u hset hstop, hself]

theorem declared_tight (l : DeclarationLine) : ∃ b g, isBlank b = true ∧ isAllBlank g = true ∧
    tighten l.declared = l.type.tight ++ b :: (l.name.val ++ g) := by
  obtain ⟨c, hc, htype⟩ := tighten_spelling l.type
  obtain ⟨b, r, hb⟩ := List.exists_cons_of_ne_nil l.apart
  obtain ⟨d, s, hs⟩ := List.exists_cons_of_ne_nil l.name.property.1
  have hd : isNameChar d = true := identifier_chars l.name d (by simp [hs])
  have hkept : keptGap (some c) l.gap.val d = [b] := by
    simp [keptGap, hc, name_not_before d hd, hb]
  have hname := tighten_solid (some d) s l.after.val
    (fun e he => identifier_solid l.name e (by simp [hs, he]))
  refine ⟨b, tightenFrom (s.getLast?.or (some d)) l.after.val, ?_, ?_, ?_⟩
  · exact (isAllBlank_iff l.gap.val).mp l.gap.property b (by simp [hb])
  · exact tighten_blank _ l.after.val l.after.property
  · rw [tighten, declared, htype, hs, List.cons_append,
      tighten_gap (some c) l.gap.val d _ l.gap.property (name_not_blank d hd), hkept, hname]
    rfl

theorem declared_words (l : DeclarationLine) :
    words (tighten l.declared) = words l.type.tight ++ [l.name.val] := by
  obtain ⟨b, g, hb, hg, htight⟩ := declared_tight l
  have hsolid : l.name.val.any isBlank = false := by
    simpa using identifier_solid l.name
  rw [htight, words_append _ _ b hb, words_closed l.name.val g l.name.property.1 hsolid hg]

theorem name_plain (l : DeclarationLine) :
    l.name.val.dropWhile isSigil = l.name.val ∧ l.name.val.takeWhile isSigil = [] := by
  obtain ⟨d, s, hs⟩ := List.exists_cons_of_ne_nil l.name.property.1
  have hd : isNameChar d = true := identifier_chars l.name d (by simp [hs])
  have hsigil : isSigil d = false := by
    simp [isSigil, name_char_ne d '*' hd rfl, name_char_ne d '&' hd rfl]
  simp [hs, hsigil]

theorem tight_solid (s : Spelling) (h : s.opensApart = false) : words s.tight = [s.tight] := by
  rw [spelling_tight s h]
  refine words_solid _ ?_ (by simp [List.any_filter])
  obtain ⟨c, r, hr, hc⟩ := spelling_first s
  have hblank : isBlank c = false := by
    rcases hc with hc | rfl
    · exact name_not_blank c hc
    · decide
  simp [hr, hblank]

/-- The declaration is read back, unless the letters of template occur on its
line or its type has a blank in front of an opening angle. -/
theorem declaration_read (l : DeclarationLine) :
    Declaration.ofLine? l.text =
      if occursIn "template".toList l.text || l.type.opensApart then none
      else some ⟨l.type.text.filter (fun c => !isBlank c), l.name.val⟩ := by
  rw [Declaration.ofLine?, text_trim, text_declares, text_declared, declared_words]
  cases occursIn "template".toList l.text with
  | true => rfl
  | false =>
    cases hapart : l.type.opensApart with
    | true =>
      obtain ⟨u, v, vs, hwords⟩ := parted_words l.type.tight (spelling_parted l.type hapart)
      rw [hwords]
      cases vs <;> rfl
    | false =>
      have hname : (!l.name.val.isEmpty && l.name.val.all isNameChar) = true := by
        rw [l.name.property.2]
        simpa using l.name.property.1
      rw [tight_solid l.type hapart, spelling_tight l.type hapart]
      simp only [List.singleton_append, name_plain l, hname]
      simp

/-- The letters of template within a name hide a member, and so does a blank in
front of an opening angle. -/
theorem spelled_unread :
    (∃ l : DeclarationLine, l.text = "string template_name_;".toList ∧
      Declaration.ofLine? l.text = none) ∧
    ∃ l : DeclarationLine, l.text = "vector <int> ages_;".toList ∧
      Declaration.ofLine? l.text = none := by
  refine ⟨⟨⟨.named ⟨false, [], ⟨"string".toList, by decide⟩⟩, ⟨[' '], rfl⟩, by decide,
      ⟨"template_name_".toList, by decide⟩, ⟨[], rfl⟩, none, by simp⟩, rfl, ?_⟩,
    ⟨⟨.applied ⟨false, [], ⟨"vector".toList, by decide⟩⟩ ⟨[' '], rfl⟩ ⟨[], rfl⟩
        (.last (.named ⟨false, [], ⟨"int".toList, by decide⟩⟩)) ⟨[], rfl⟩, ⟨[' '], rfl⟩, by decide,
      ⟨"ages_".toList, by decide⟩, ⟨[], rfl⟩, none, by simp⟩, rfl, ?_⟩⟩
  · decide
  · decide

end DeclarationLine

end ParameterManual.Member
