import ParameterManual.Proofs.Member.Spacing
import ParameterManual.Proofs.Text.Words

/-!
# Spelled declarations

A type is an identifier in its scopes, a generic type with its arguments, or a
type with a star behind it, and blanks may stand around the opening angle and
the commas and in front of the closing angle. Tightening takes all of these
but the first blank in front of an opening angle, at which the type falls
apart.
-/

set_option autoImplicit false

namespace ParameterManual.Member
open Text

abbrev Gap := {g : Text // isAllBlank g = true}

abbrev Identifier := {t : Text // t ≠ [] ∧ t.all isNameChar = true}

/-- An identifier behind the scopes that it is found in. -/
structure Qualified where
  rooted : Bool
  scopes : List Identifier
  name : Identifier

def Qualified.text (q : Qualified) : Text :=
  (if q.rooted then [':', ':'] else []) ++
    q.scopes.flatMap (fun scope => scope.val ++ [':', ':']) ++ q.name.val

mutual

/-- A type with the gaps that it is spelled with. -/
inductive Spelling where
  | named (name : Qualified)
  | applied (name : Qualified) (before after : Gap) (arguments : Arguments) (closing : Gap)
  | pointer (target : Spelling)

inductive Arguments where
  | last (own : Spelling)
  | more (own : Spelling) (before after : Gap) (rest : Arguments)

end

mutual

def Spelling.text : Spelling → Text
  | .named name => name.text
  | .applied name before after arguments closing =>
    name.text ++ (before.val ++ '<' :: (after.val ++ (arguments.text ++ (closing.val ++ ['>']))))
  | .pointer target => target.text ++ ['*']

def Arguments.text : Arguments → Text
  | .last own => own.text
  | .more own before after rest => own.text ++ (before.val ++ ',' :: (after.val ++ rest.text))

end

mutual

def Spelling.opensApart : Spelling → Bool
  | .named _ => false
  | .applied _ before _ arguments _ => !before.val.isEmpty || arguments.opensApart
  | .pointer target => target.opensApart

def Arguments.opensApart : Arguments → Bool
  | .last own => own.opensApart
  | .more own _ _ rest => own.opensApart || rest.opensApart

end

mutual

/-- What tightening leaves of a type: a gap in front of an opening angle is
the only one that keeps its first blank. -/
def Spelling.tight : Spelling → Text
  | .named name => name.text
  | .applied name before _ arguments _ =>
    name.text ++ (before.val.take 1 ++ '<' :: (arguments.tight ++ ['>']))
  | .pointer target => target.tight ++ ['*']

def Arguments.tight : Arguments → Text
  | .last own => own.tight
  | .more own _ _ rest => own.tight ++ ',' :: rest.tight

end

def isTypeChar (c : Char) : Bool :=
  isNameChar c || isBlank c || c == ':' || c == '<' || c == '>' || c == ',' || c == '*'

theorem identifier_chars (t : Identifier) : ∀ c ∈ t.val, isNameChar c = true :=
  List.all_eq_true.mp t.property.2

theorem identifier_solid (t : Identifier) : ∀ c ∈ t.val, isBlank c = false :=
  fun c hc => name_not_blank c (identifier_chars t c hc)

theorem qualified_chars (q : Qualified) : ∀ c ∈ q.text, isNameChar c = true ∨ c = ':' := by
  intro c hc
  rw [Qualified.text] at hc
  rcases List.mem_append.mp hc with hc | hc
  · rcases List.mem_append.mp hc with hc | hc
    · cases hq : q.rooted <;> simp [hq] at hc
      exact Or.inr hc
    · obtain ⟨scope, -, hc⟩ := List.mem_flatMap.mp hc
      rcases List.mem_append.mp hc with hc | hc
      · exact Or.inl (identifier_chars scope c hc)
      · exact Or.inr (by simpa using hc)
  · exact Or.inl (identifier_chars q.name c hc)

theorem qualified_solid (q : Qualified) : ∀ c ∈ q.text, isBlank c = false := by
  intro c hc
  rcases qualified_chars q c hc with hname | rfl
  · exact name_not_blank c hname
  · decide

theorem qualified_last (q : Qualified) : ∃ c, q.text.getLast? = some c ∧ isNameChar c = true := by
  refine ⟨q.name.val.getLast q.name.property.1, ?_, identifier_chars q.name _ (List.getLast_mem _)⟩
  rw [Qualified.text, List.getLast?_append, List.getLast?_eq_some_getLast q.name.property.1,
    Option.some_or]

theorem qualified_first (q : Qualified) :
    ∃ c r, q.text = c :: r ∧ (isNameChar c = true ∨ c = ':') := by
  obtain ⟨d, hlast, -⟩ := qualified_last q
  obtain ⟨c, r, hr⟩ := List.exists_cons_of_ne_nil (List.ne_nil_of_mem (List.mem_of_getLast? hlast))
  exact ⟨c, r, hr, qualified_chars q c (by simp [hr])⟩

theorem name_not_after (c : Char) (h : isNameChar c = true) : tightAfter c = false := by
  simp [tightAfter, name_not_blank c h, name_char_ne c '<' h rfl, name_char_ne c ',' h rfl]

theorem name_not_before (c : Char) (h : isNameChar c = true) : tightBefore c = false := by
  simp [tightBefore, name_char_ne c '>' h rfl, name_char_ne c ',' h rfl]

theorem tighten_qualified (q : Qualified) : ∃ c, tightAfter c = false ∧
    ∀ last t, tightenFrom last (q.text ++ t) = q.text ++ tightenFrom (some c) t := by
  obtain ⟨c, hlast, hc⟩ := qualified_last q
  refine ⟨c, name_not_after c hc, fun last t => ?_⟩
  rw [tighten_solid last q.text t (qualified_solid q), hlast, Option.some_or]

mutual

/-- A type is tightened by itself, whatever stands around it. -/
theorem tighten_spelling : ∀ s : Spelling, ∃ c, tightAfter c = false ∧
    ∀ last t, tightenFrom last (s.text ++ t) = s.tight ++ tightenFrom (some c) t
  | .named name => tighten_qualified name
  | .applied name before after arguments closing => by
    obtain ⟨c, hc, hname⟩ := tighten_qualified name
    obtain ⟨d, -, harguments⟩ := tighten_arguments arguments
    refine ⟨'>', by decide, fun last t => ?_⟩
    have hopening : keptGap (some c) before.val '<' = before.val.take 1 := by
      simp [keptGap, hc, tightBefore]
    simp only [Spelling.text, Spelling.tight, List.append_assoc, List.cons_append]
    rw [hname, tighten_gap (some c) before.val '<' _ before.property (by decide), hopening,
      tighten_behind (some '<') after.val _ rfl after.property, harguments,
      List.nil_append, tighten_gap (some d) closing.val '>' t closing.property (by decide)]
    simp [keptGap, tightBefore]
  | .pointer target => by
    obtain ⟨c, -, htarget⟩ := tighten_spelling target
    refine ⟨'*', by decide, fun last t => ?_⟩
    rw [Spelling.text, Spelling.tight, List.append_assoc, htarget, List.append_assoc]
    exact congrArg (target.tight ++ ·) (tighten_char (some c) '*' t (by decide))

theorem tighten_arguments : ∀ a : Arguments, ∃ c, tightAfter c = false ∧
    ∀ last t, tightenFrom last (a.text ++ t) = a.tight ++ tightenFrom (some c) t
  | .last own => tighten_spelling own
  | .more own before after rest => by
    obtain ⟨c, -, hown⟩ := tighten_spelling own
    obtain ⟨d, hd, hrest⟩ := tighten_arguments rest
    refine ⟨d, hd, fun last t => ?_⟩
    simp only [Arguments.text, Arguments.tight, List.append_assoc, List.cons_append]
    rw [hown, tighten_gap (some c) before.val ',' _ before.property (by decide),
      tighten_behind (some ',') after.val _ rfl after.property, hrest]
    simp [keptGap, tightBefore]

end

theorem gap_dropped (g : Gap) : g.val.filter (fun c => !isBlank c) = [] := by
  rw [List.filter_eq_nil_iff]
  intro c hc
  simp [(isAllBlank_iff g.val).mp g.property c hc]

theorem solid_kept (t : Text) (h : ∀ c ∈ t, isBlank c = false) :
    t.filter (fun c => !isBlank c) = t :=
  List.filter_eq_self.mpr (fun c hc => by simp [h c hc])

mutual

theorem spelling_tight : ∀ s : Spelling, s.opensApart = false →
    s.tight = s.text.filter (fun c => !isBlank c)
  | .named name, _ => (solid_kept name.text (qualified_solid name)).symm
  | .applied name before after arguments closing, h => by
    obtain ⟨hbefore, harguments⟩ := Bool.or_eq_false_iff.mp h
    have hnil : before.val = [] := by simpa using hbefore
    simp only [Spelling.text, Spelling.tight, List.filter_append, List.filter_cons, hnil,
      solid_kept name.text (qualified_solid name), gap_dropped,
      spelled_tight arguments harguments]
    rfl
  | .pointer target, h => by
    rw [Spelling.text, Spelling.tight, List.filter_append, spelling_tight target h]
    rfl

theorem spelled_tight : ∀ a : Arguments, a.opensApart = false →
    a.tight = a.text.filter (fun c => !isBlank c)
  | .last own, h => spelling_tight own h
  | .more own before after rest, h => by
    obtain ⟨hown, hrest⟩ := Bool.or_eq_false_iff.mp h
    simp only [Arguments.text, Arguments.tight, List.filter_append, List.filter_cons, gap_dropped,
      spelling_tight own hown, spelled_tight rest hrest]
    rfl

end

def Parted (t : Text) : Prop :=
  ∃ a b m, t = a ++ b :: m ∧ isBlank b = true ∧ isAllBlank a = false ∧ isAllBlank m = false

theorem parted_within (u t v : Text) (h : Parted t) : Parted (u ++ (t ++ v)) := by
  obtain ⟨a, b, m, rfl, hb, ha, hm⟩ := h
  refine ⟨u ++ a, b, m ++ v, by simp, hb, ?_, ?_⟩
  · rw [isAllBlank] at ha ⊢
    rw [List.all_append, ha, Bool.and_false]
  · rw [isAllBlank] at hm ⊢
    rw [List.all_append, hm, Bool.false_and]

theorem parted_words (t : Text) (h : Parted t) : ∃ v w ws, words t = v :: w :: ws := by
  obtain ⟨a, b, m, rfl, hb, ha, hm⟩ := h
  obtain ⟨v, vs, hv⟩ := List.exists_cons_of_ne_nil (words_ne_nil a ha)
  obtain ⟨w, ws, hw⟩ := List.exists_cons_of_ne_nil (words_ne_nil m hm)
  rw [words_append a m b hb, hv, hw]
  cases vs with
  | nil => exact ⟨v, w, ws, rfl⟩
  | cons u vs => exact ⟨v, u, vs ++ w :: ws, rfl⟩

theorem opening_parted (name : Qualified) (g : Gap) (t : Text) (hg : g.val ≠ []) :
    Parted (name.text ++ (g.val.take 1 ++ '<' :: t)) := by
  obtain ⟨b, r, hb⟩ := List.exists_cons_of_ne_nil hg
  obtain ⟨c, hlast, -⟩ := qualified_last name
  refine ⟨name.text, b, '<' :: t, by simp [hb], ?_, ?_, rfl⟩
  · exact (isAllBlank_iff g.val).mp g.property b (by simp [hb])
  · have hc := List.mem_of_getLast? hlast
    rw [isAllBlank, List.all_eq_false]
    exact ⟨c, hc, by simp [qualified_solid name c hc]⟩

mutual

theorem spelling_parted : ∀ s : Spelling, s.opensApart = true → Parted s.tight
  | .named _, h => absurd h (by simp [Spelling.opensApart])
  | .applied name before _ arguments _, h => by
    by_cases hbefore : before.val = []
    · have harguments : arguments.opensApart = true := by
        simpa [Spelling.opensApart, hbefore] using h
      have := parted_within (name.text ++ (before.val.take 1 ++ ['<'])) _ ['>']
        (spelled_parted arguments harguments)
      simpa [Spelling.tight] using this
    · exact opening_parted name before _ hbefore
  | .pointer target, h => parted_within [] target.tight ['*'] (spelling_parted target h)

theorem spelled_parted : ∀ a : Arguments, a.opensApart = true → Parted a.tight
  | .last own, h => spelling_parted own h
  | .more own before after rest, h => by
    rcases Bool.or_eq_true_iff.mp h with hown | hrest
    · exact parted_within [] own.tight (',' :: rest.tight) (spelling_parted own hown)
    · have := parted_within (own.tight ++ [',']) rest.tight [] (spelled_parted rest hrest)
      simpa [Arguments.tight] using this

end

theorem gap_typed (g : Gap) (c : Char) (hc : c ∈ g.val) : isTypeChar c = true := by
  simp [isTypeChar, (isAllBlank_iff g.val).mp g.property c hc]

theorem qualified_typed (q : Qualified) (c : Char) (hc : c ∈ q.text) : isTypeChar c = true := by
  rcases qualified_chars q c hc with h | rfl
  · simp [isTypeChar, h]
  · decide

mutual

theorem spelling_chars : ∀ s : Spelling, ∀ c ∈ s.text, isTypeChar c = true
  | .named name, c, hc => qualified_typed name c hc
  | .applied name before after arguments closing, c, hc => by
    simp only [Spelling.text, List.mem_append, List.mem_cons, List.not_mem_nil, or_false] at hc
    rcases hc with hc | hc | rfl | hc | hc | hc | rfl
    · exact qualified_typed name c hc
    · exact gap_typed before c hc
    · decide
    · exact gap_typed after c hc
    · exact spelled_chars arguments c hc
    · exact gap_typed closing c hc
    · decide
  | .pointer target, c, hc => by
    rcases List.mem_append.mp hc with hc | hc
    · exact spelling_chars target c hc
    · obtain rfl : c = '*' := by simpa using hc
      decide

theorem spelled_chars : ∀ a : Arguments, ∀ c ∈ a.text, isTypeChar c = true
  | .last own, c, hc => spelling_chars own c hc
  | .more own before after rest, c, hc => by
    simp only [Arguments.text, List.mem_append, List.mem_cons] at hc
    rcases hc with hc | hc | rfl | hc | hc
    · exact spelling_chars own c hc
    · exact gap_typed before c hc
    · decide
    · exact gap_typed after c hc
    · exact spelled_chars rest c hc

end

theorem spelling_first : ∀ s : Spelling, ∃ c r, s.text = c :: r ∧ (isNameChar c = true ∨ c = ':')
  | .named name => qualified_first name
  | .applied name before after arguments closing => by
    obtain ⟨c, r, hr, hc⟩ := qualified_first name
    exact ⟨c, _, by rw [Spelling.text, hr, List.cons_append], hc⟩
  | .pointer target => by
    obtain ⟨c, r, hr, hc⟩ := spelling_first target
    exact ⟨c, _, by rw [Spelling.text, hr, List.cons_append], hc⟩

end ParameterManual.Member
