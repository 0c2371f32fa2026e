import ParameterManual.Proofs.Source.ArgumentList

/-!
# Where an argument list is cut

A comma is at the top if no literal and no bracket is open in front of it,
where a closing bracket that nothing opened closes nothing. A text is cut at
its commas at the top and nowhere else, whether its own literals and brackets
are closed or not, and nothing is lost but blanks around the pieces.
-/

set_option autoImplicit false

namespace ParameterManual.Source
open Text

def openAfter (s : Quoting) (depth : Nat) (t : Text) : Nat := (s.bare t).foldl depthAfter depth

/-- No literal and no bracket is open behind a text. -/
structure AtTop (t : Text) : Prop where
  closed : Quoting.code.after t = .code
  flat : openAfter .code 0 t = 0

instance : DecidablePred AtTop := fun t =>
  decidable_of_iff (Quoting.code.after t = .code ∧ openAfter .code 0 t = 0)
    ⟨fun ⟨closed, flat⟩ => ⟨closed, flat⟩, fun h => ⟨h.closed, h.flat⟩⟩

theorem open_append (s : Quoting) (depth : Nat) (t u : Text) :
    openAfter s depth (t ++ u) = openAfter (s.after t) (openAfter s depth t) u := by
  rw [openAfter, Quoting.bare_append, List.foldl_append]
  rfl

theorem open_covered (s : Quoting) (depth : Nat) (c : Char) (t : Text) (h : s.covers c = true) :
    openAfter s depth (c :: t) = openAfter (s.next c) depth t := by
  rw [openAfter, bare_cons, if_pos h, openAfter]

theorem open_bare (s : Quoting) (depth : Nat) (c : Char) (t : Text) (h : ¬ s.covers c = true) :
    openAfter s depth (c :: t) = openAfter s (depthAfter depth c) t := by
  rw [openAfter, bare_cons, if_neg h, next_uncovered s c h, List.foldl_cons, openAfter]

theorem separating_open (depth e : Nat) (c : Char) (h : separating depth c = some e) :
    depthAfter depth c = e := by
  rw [separating] at h
  split at h
  · cases h
  · exact Option.some.inj h

theorem level_open (s : Quoting) (depth e : Nat) (t : Text)
    (h : level separating s depth t = some e) : openAfter s depth t = e := by
  rw [level] at h
  rw [openAfter]
  generalize s.bare t = bare at h ⊢
  induction bare generalizing depth with
  | nil => exact Option.some.inj h
  | cons c bare ih =>
    rw [List.foldlM_cons] at h
    obtain ⟨next, hnext, hrest⟩ := Option.bind_eq_some_iff.mp h
    rw [List.foldl_cons, separating_open depth next c hnext]
    exact ih next hrest

/-- A count that does not get to the end stops at a comma at the top. -/
theorem level_stops (s : Quoting) (depth : Nat) (t : Text)
    (h : level separating s depth t = none) :
    ∃ before after, t = before ++ ',' :: after ∧ s.after before = .code ∧
      openAfter s depth before = 0 := by
  induction t generalizing s depth with
  | nil => cases h
  | cons c t ih =>
    by_cases hc : s.covers c = true
    · rw [level_covered _ s depth c t hc] at h
      obtain ⟨before, after, rfl, hcode, hopen⟩ := ih (s.next c) depth h
      refine ⟨c :: before, after, rfl, hcode, ?_⟩
      rw [open_covered s depth c before hc, hopen]
    · rw [level_bare _ s depth c t hc] at h
      cases hnext : separating depth c with
      | none =>
        obtain ⟨rfl, rfl⟩ := separating_stops depth c hnext
        exact ⟨[], t, rfl, uncovered_code s ',' hc, rfl⟩
      | some next =>
        rw [hnext, Option.bind_some] at h
        obtain ⟨before, after, rfl, hcode, hopen⟩ := ih s next h
        refine ⟨c :: before, after, rfl, (after_bare s c before hc).trans hcode, ?_⟩
        rw [open_bare s depth c before hc, separating_open depth next c hnext, hopen]

theorem extend_append (c : Char) (ws vs : List Text) (h : ws ≠ []) :
    extendFirst c (ws ++ vs) = extendFirst c ws ++ vs := by
  obtain ⟨w, ws, rfl⟩ := List.exists_cons_of_ne_nil h
  rfl

theorem segments_cut (s : Quoting) (depth : Nat) (before after : Text)
    (hcode : s.after before = .code) (hopen : openAfter s depth before = 0) :
    segments s depth (before ++ ',' :: after) =
      segments s depth before ++ segments .code 0 after := by
  induction before generalizing s depth with
  | nil =>
    obtain rfl : s = .code := hcode
    obtain rfl : depth = 0 := hopen
    simp [segments, Quoting.covers, Quoting.isQuote]
  | cons c before ih =>
    rw [List.cons_append]
    by_cases hc : s.covers c = true
    · rw [open_covered s depth c before hc] at hopen
      rw [segments_covered s depth c _ hc, segments_covered s depth c _ hc,
        ih (s.next c) depth hcode hopen, extend_append c _ _ (segments_ne _ _ _)]
    · rw [after_bare s c before hc] at hcode
      rw [open_bare s depth c before hc] at hopen
      rw [segments_bare s depth c _ hc, segments_bare s depth c _ hc]
      cases hnext : separating depth c with
      | none =>
        obtain ⟨rfl, rfl⟩ := separating_stops depth c hnext
        exact congrArg ([] :: ·) (ih s 0 hcode hopen)
      | some next =>
        rw [separating_open depth next c hnext] at hopen
        have hrest := ih s next hcode hopen
        simp only [hrest]
        exact extend_append c _ _ (segments_ne _ _ _)

def CutAt (ws : List Text) (before after : Text) : Prop :=
  ∃ first last, first ≠ [] ∧ last ≠ [] ∧ ws = first ++ last ∧
    joined [','] first = before ∧ joined [','] last = after

theorem top_append (t u : Text) (ht : AtTop t) (hu : AtTop u) : AtTop (t ++ u) := by
  constructor
  · rw [Quoting.after_append, ht.closed, hu.closed]
  · rw [open_append, ht.closed, ht.flat, hu.flat]

theorem joined_top (ws : List Text) (h : ∀ w ∈ ws, AtTop w) : AtTop (joined [','] ws) := by
  induction ws with
  | nil => exact ⟨rfl, rfl⟩
  | cons w ws ih =>
    obtain ⟨hw, hrest⟩ := List.forall_mem_cons.mp h
    by_cases hws : ws = []
    · simpa [hws, joined] using hw
    · rw [joined_several [','] w ws hws]
      exact top_append _ _ (top_append w [','] hw ⟨rfl, rfl⟩) (ih hrest)

theorem divided_top (first last : List Text) (hlast : last ≠ []) (h : Divided (first ++ last)) :
    ∀ w ∈ first, AtTop w := by
  induction first with
  | nil => simp
  | cons w first ih =>
    rw [List.cons_append] at h
    cases hrest : first ++ last with
    | nil => exact absurd (List.append_eq_nil_iff.mp hrest).2 hlast
    | cons v vs =>
      rw [hrest] at h ih
      cases h with
      | more _ _ _ closed whole rest =>
        exact List.forall_mem_cons.mpr ⟨⟨closed, level_open .code 0 0 w whole⟩, ih rest⟩

theorem segments_cuts (before after : Text) :
    CutAt (segments .code 0 (before ++ ',' :: after)) before after ↔ AtTop before := by
  obtain ⟨hdivided, -⟩ := segments_divided _ (before ++ ',' :: after) rfl
  constructor
  · rintro ⟨first, last, -, hlast, hws, rfl, -⟩
    rw [hws] at hdivided
    exact joined_top first (divided_top first last hlast hdivided)
  · rintro ⟨hcode, hopen⟩
    exact ⟨segments .code 0 before, segments .code 0 after, segments_ne _ _ _, segments_ne _ _ _,
      segments_cut .code 0 before after hcode hopen, (segments_divided _ before rfl).2,
      (segments_divided _ after rfl).2⟩

example : AtTop "A], ".toList ∧ ¬ AtTop "f(a".toList := by decide

theorem divided_split (t : Text) : Divided (splitArguments t) := by
  rw [splitArguments]
  split
  · exact .empty
  · exact divided_trim _ (segments_divided _ t rfl).1

/-- An argument that can be listed: trimmed, with nothing open at its end, and
without a comma at the top. Brackets that are balanced leave nothing open. -/
structure Listable (a : Text) : Prop where
  trimmed : trim a = a
  top : AtTop a
  whole : ∀ before after, a = before ++ ',' :: after → ¬ AtTop before

theorem argument_listable (a : Text) (h : Argument a) : Listable a := by
  refine ⟨h.trimmed, ⟨h.closed, level_open .code 0 0 a h.separate⟩, ?_⟩
  rintro before after rfl htop
  apply h.whole
  rw [level_append]
  cases hlevel : level separating .code 0 before with
  | none => rfl
  | some e =>
    obtain rfl : 0 = e := htop.flat.symm.trans (level_open .code 0 e before hlevel)
    rw [htop.closed]
    rfl

theorem listable_level (a : Text) (h : Listable a) : level separating .code 0 a = some 0 := by
  cases hlevel : level separating .code 0 a with
  | none =>
    obtain ⟨before, after, ha, hcode, hopen⟩ := level_stops .code 0 a hlevel
    exact absurd ⟨hcode, hopen⟩ (h.whole before after ha)
  | some e =>
    rw [← level_open .code 0 e a hlevel, h.top.flat]

theorem listable_divided (arguments : List Text) (h : ∀ a ∈ arguments, Listable a) :
    Divided arguments := by
  induction arguments with
  | nil => exact .empty
  | cons a others ih =>
    obtain ⟨ha, hothers⟩ := List.forall_mem_cons.mp h
    have hlevel := listable_level a ha
    cases others with
    | nil => exact .last a (by simp [hlevel])
    | cons b more => exact .more a b more ha.top.closed hlevel (ih hothers)

/-- A text that is not blank is cut at its commas at the top and nowhere else,
and its pieces are what is between them, trimmed. Listed with a comma and a
space, the pieces of any text are read back, and so are all arguments that can
be listed, except for one empty argument. -/
theorem split_lossless :
    (∀ t, isAllBlank t = false → ∃ ws, joined [','] ws = t ∧ ws.map trim = splitArguments t ∧
      ∀ before after, t = before ++ ',' :: after → (CutAt ws before after ↔ AtTop before)) ∧
    (∀ t, splitArguments (listed (splitArguments t)) = splitArguments t) ∧
    ∀ arguments, (∀ a ∈ arguments, Listable a) → arguments ≠ [[]] →
      splitArguments (listed arguments) = arguments := by
  refine ⟨?_, ?_, ?_⟩
  · intro t hblank
    refine ⟨segments .code 0 t, (segments_divided _ t rfl).2, by simp [splitArguments, hblank], ?_⟩
    rintro before after rfl
    exact segments_cuts before after
  · intro t
    exact split_divided _ (split_trimmed t) (split_sole t) (divided_split t)
  · intro arguments h hsole
    exact split_divided arguments (fun a ha => (h a ha).trimmed) hsole
      (listable_divided arguments h)

def strayText : Text := " A],f(a, b) , \"x, y ".toList

def strayPieces : List Text := ["A]".toList, "f(a, b)".toList, "\"x, y".toList]

def nestedArguments : List Text :=
  ["f(a, [b])".toList, "\"x, (\"".toList, [], "\x7b1, 2\x7d".toList]

theorem split_lossless_stray :
    (∃ ws, joined [','] ws = strayText ∧ ws.map trim = strayPieces ∧
      ∀ before after, strayText = before ++ ',' :: after → (CutAt ws before after ↔ AtTop before)) ∧
    splitArguments (listed strayPieces) = strayPieces ∧
    (∀ a ∈ nestedArguments, Argument a) ∧
    splitArguments (listed nestedArguments) = nestedArguments := by
  have hsplit : splitArguments strayText = strayPieces := by decide
  have hnested : ∀ a ∈ nestedArguments, Argument a := by decide
  have hcuts := split_lossless.1 strayText (by decide)
  have hpieces := split_lossless.2.1 strayText
  rw [hsplit] at hcuts hpieces
  exact ⟨hcuts, hpieces, hnested, split_lossless.2.2 nestedArguments
    (fun a ha => argument_listable a (hnested a ha)) (by decide)⟩

end ParameterManual.Source
