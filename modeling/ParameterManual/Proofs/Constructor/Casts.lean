import ParameterManual.Constructor.Value
import ParameterManual.Proofs.Source.Matching
import ParameterManual.Proofs.Source.Separators

/-!
# Casts around one argument

A numeric cast is a numeric type in front of parentheses that hold one
argument and match, counted outside literals. The parentheses inside are
checked by a count of all of them, those of literals included, so the
argument is taken out of a cast and of nothing else where the two counts
agree.
-/

set_option autoImplicit false

namespace ParameterManual.Constructor
open Source Text

def isParenthesis (c : Char) : Bool := c == '(' || c == ')'

def ParenthesesBare (t : Text) : Prop :=
  (Quoting.code.bare t).filter isParenthesis = t.filter isParenthesis

instance (t : Text) : Decidable (ParenthesesBare t) := by
  unfold ParenthesesBare
  infer_instance

/-- A numeric type, maybe blanks, and an opening parenthesis in front of one
argument, with a closing parenthesis as the last character. -/
structure Shaped (t inner : Text) : Prop where
  spelled : ∃ type ∈ numericTypes, ∃ gap, isAllBlank gap = true ∧
    t = type ++ gap ++ '(' :: (inner ++ [')'])
  ink : isAllBlank inner = false
  single : ∀ before after, inner = before ++ ',' :: after → ¬ AtTop before

/-- A cast of one argument: its two parentheses match. -/
structure NumericCast (t inner : Text) : Prop extends Shaped t inner where
  matched : Matched inner

/-- What a text stands for if a cast stands for its argument and every other
text for itself. -/
structure CastResult (t result : Text) : Prop where
  cast : ∀ inner, NumericCast t inner → result = trim inner
  other : (∀ inner, ¬ NumericCast t inner) → result = t

theorem split_single (t : Text) : (splitArguments t).length = 1 ↔
    isAllBlank t = false ∧ ∀ before after, t = before ++ ',' :: after → ¬ AtTop before := by
  rw [splitArguments]
  cases hblank : t.isAllBlank with
  | true => simp
  | false =>
    simp only [Bool.false_eq_true, if_false, List.length_map, true_and]
    constructor
    · rintro hlength before after rfl htop
      rw [segments_cut .code 0 before after htop.closed htop.flat, List.length_append] at hlength
      have hbefore := List.length_pos_iff.mpr (segments_ne .code 0 before)
      have hafter := List.length_pos_iff.mpr (segments_ne .code 0 after)
      omega
    · intro huncut
      obtain ⟨w, ws, hws⟩ := List.exists_cons_of_ne_nil (segments_ne .code 0 t)
      rcases segments_found .code 0 t w ws hws with ⟨rfl, -, -⟩ | ⟨rest, ht, hcode, hzero, -⟩
      · rw [hws, List.length_singleton]
      · exact absurd ⟨hcode, level_open .code 0 0 w hzero⟩ (huncut w rest ht)

theorem shaped_split (t inner type gap : Text) (htype : type ∈ numericTypes)
    (hgap : isAllBlank gap = true) (ht : t = type ++ gap ++ '(' :: (inner ++ [')']))
    (hsplit : (splitArguments inner).length = 1) : Shaped t inner := by
  obtain ⟨hink, hsingle⟩ := (split_single inner).mp hsplit
  exact ⟨⟨type, htype, gap, hgap, ht⟩, hink, hsingle⟩

theorem castArgument_iff (type t result : Text) : castArgument? type t = some result ↔
    ∃ gap inner, isAllBlank gap = true ∧ t = type ++ gap ++ '(' :: (inner ++ [')']) ∧
      balancedFrom 0 inner = true ∧ (splitArguments inner).length = 1 ∧ result = trim inner := by
  have hcheck (inner : Text) :
      (if (balancedFrom 0 inner && (splitArguments inner).length == 1) = true then
        some (trim inner) else none) = some result ↔
      balancedFrom 0 inner = true ∧ (splitArguments inner).length = 1 ∧ result = trim inner := by
    by_cases h : (balancedFrom 0 inner && (splitArguments inner).length == 1) = true
    · obtain ⟨hbalanced, hsingle⟩ := Bool.and_eq_true_iff.mp h
      rw [if_pos h, Option.some_inj]
      simp [hbalanced, beq_iff_eq.mp hsingle, eq_comm]
    · rw [if_neg h]
      simp only [Bool.and_eq_true, beq_iff_eq] at h
      simp only [reduceCtorEq, false_iff]
      exact fun hall => h ⟨hall.1, hall.2.1⟩
  simp only [castArgument?, Option.bind_eq_bind, Option.bind_eq_some_iff, afterLead_iff,
    beforeTail_iff, hcheck]
  constructor
  · rintro ⟨after, rfl, opened, hopened, inner, rfl, hinner⟩
    refine ⟨after.takeWhile isBlank, inner, List.all_takeWhile, ?_, hinner⟩
    rw [trimStart] at hopened
    conv => lhs; rw [← List.takeWhile_append_dropWhile (p := isBlank) (l := after), hopened]
    simp
  · rintro ⟨gap, inner, hgap, rfl, hinner⟩
    refine ⟨gap ++ '(' :: (inner ++ [')']), by simp, inner ++ [')'], ?_, inner, rfl, hinner⟩
    rw [trimStart, drop_front isBlank gap _ ((isAllBlank_iff gap).mp hgap) ⟨'(', _, rfl, rfl⟩]
    rfl

theorem cast_front (type gap : Text) (htype : type ∈ numericTypes) (hgap : isAllBlank gap = true) :
    ∀ c ∈ type ++ gap, Quoting.isQuote c = false ∧ c ≠ '(' := by
  have hnumeric : numericTypes.all
      (fun type => type.all (fun c => !Quoting.isQuote c && c != '(')) = true := by decide
  intro c hc
  rcases List.mem_append.mp hc with hc | hc
  · have hchecked := List.all_eq_true.mp (List.all_eq_true.mp hnumeric type htype) c hc
    simpa using hchecked
  · have hblank := (isAllBlank_iff gap).mp hgap c hc
    exact ⟨blank_not_quote c hblank, blank_ne c '(' hblank rfl⟩

theorem shaped_unique (t first second : Text) (h : Shaped t first) (h' : Shaped t second) :
    first = second := by
  obtain ⟨type, htype, gap, hgap, ht⟩ := h.spelled
  obtain ⟨type', htype', gap', hgap', ht'⟩ := h'.spelled
  have hcut := opening_append _ (first ++ [')'])
    (outside_unquoted _ _ (cast_front type gap htype hgap))
  have hcut' := opening_append _ (second ++ [')'])
    (outside_unquoted _ _ (cast_front type' gap' htype' hgap'))
  rw [← ht] at hcut
  rw [← ht', hcut] at hcut'
  exact List.append_cancel_right (Prod.mk.inj (Option.some.inj hcut')).2

theorem cast_enclosed (t inner other : Text) (h : Shaped t inner) (hcast : NumericCast t other) :
    Enclosed inner := by
  rw [shaped_unique t inner other h hcast.toShaped, enclosed_matched]
  exact hcast.matched

theorem shaped_shorter (t inner : Text) (h : Shaped t inner) : trim inner ≠ t := by
  obtain ⟨type, -, gap, -, rfl⟩ := h.spelled
  intro heq
  have hlength := congrArg List.length heq
  have htrim := (trim_sublist inner).length_le
  simp only [List.length_append, List.length_cons, List.length_nil] at hlength
  omega

theorem withoutCast_cases (t : Text) :
    (∃ inner, Shaped t inner ∧ balancedFrom 0 inner = true ∧ withoutCast t = trim inner) ∨
      ((∀ inner, Shaped t inner → balancedFrom 0 inner = false) ∧ withoutCast t = t) := by
  rw [withoutCast]
  cases hfind : numericTypes.findSome? (castArgument? · t) with
  | some result =>
    obtain ⟨type, htype, hargument⟩ := List.exists_of_findSome?_eq_some hfind
    obtain ⟨gap, inner, hgap, ht, hbalanced, hsplit, rfl⟩ := (castArgument_iff _ _ _).mp hargument
    exact Or.inl ⟨inner, shaped_split t inner type gap htype hgap ht hsplit, hbalanced, rfl⟩
  | none =>
    refine Or.inr ⟨?_, rfl⟩
    intro inner h
    obtain ⟨type, htype, gap, hgap, ht⟩ := h.spelled
    by_contra hbalanced
    have hargument : castArgument? type t = some (trim inner) :=
      (castArgument_iff type t _).mpr ⟨gap, inner, hgap, ht, by simpa using hbalanced,
        (split_single inner).mpr ⟨h.ink, h.single⟩, rfl⟩
    rw [List.findSome?_eq_none_iff.mp hfind type htype] at hargument
    cases hargument

/-- A cast stands for its argument and every other text for itself exactly if
both counts of parentheses agree on what is inside. -/
theorem cast_exact (t : Text) : CastResult t (withoutCast t) ↔
    ∀ inner, Shaped t inner → (balancedFrom 0 inner = true ↔ Matched inner) := by
  rcases withoutCast_cases t with ⟨inner, hshaped, hbalanced, hresult⟩ | ⟨hnone, hresult⟩
  · rw [hresult]
    constructor
    · intro h other hother
      obtain rfl := shaped_unique t inner other hshaped hother
      refine iff_of_true hbalanced (by_contra fun hmatched => ?_)
      refine shaped_shorter t inner hshaped (h.other fun other hcast => hmatched ?_)
      exact (enclosed_matched inner).mp (cast_enclosed t inner other hshaped hcast)
    · intro h
      constructor
      · intro other hcast
        rw [shaped_unique t inner other hshaped hcast.toShaped]
      · intro hno
        exact absurd ⟨hshaped, (h inner hshaped).mp hbalanced⟩ (hno inner)
  · rw [hresult]
    constructor
    · intro h inner hshaped
      refine iff_of_false (by simp [hnone inner hshaped]) (fun hmatched => ?_)
      exact shaped_shorter t inner hshaped (h.cast inner ⟨hshaped, hmatched⟩).symm
    · intro h
      refine ⟨fun inner hcast => ?_, fun _ => rfl⟩
      have hbalanced := (h inner hcast.toShaped).mpr hcast.matched
      rw [hnone inner hcast.toShaped] at hbalanced
      cases hbalanced

theorem balanced_fold (depth : Nat) (t : Text) :
    balancedFrom depth t = true ↔ t.foldlM (nesting '(' ')') depth = some 0 := by
  induction t generalizing depth with
  | nil => simp [balancedFrom]
  | cons c t ih =>
    rw [List.foldlM_cons]
    by_cases ho : c = '('
    · subst ho
      exact ih (depth + 1)
    by_cases hk : c = ')'
    · subst hk
      cases depth with
      | zero => simp [balancedFrom, nesting]
      | succ depth => exact ih depth
    · rw [nesting_ignores '(' ')' c ⟨ho, hk⟩ depth, balancedFrom.eq_def]
      simp only [if_neg ho, if_neg hk]
      exact ih depth

theorem fold_parentheses (depth : Nat) (t : Text) :
    (t.filter isParenthesis).foldlM (nesting '(' ')') depth =
      t.foldlM (nesting '(' ')') depth := by
  induction t generalizing depth with
  | nil => rfl
  | cons c t ih =>
    by_cases hc : isParenthesis c = true
    · rw [List.filter_cons_of_pos hc, List.foldlM_cons, List.foldlM_cons]
      exact congrArg _ (funext ih)
    · have hother : c ≠ '(' ∧ c ≠ ')' := by simpa [isParenthesis] using hc
      rw [List.filter_cons_of_neg hc, List.foldlM_cons, nesting_ignores '(' ')' c hother depth]
      exact ih depth

theorem balanced_matched (t : Text) (hclosed : Quoting.code.after t = .code)
    (hbare : ParenthesesBare t) : balancedFrom 0 t = true ↔ Matched t := by
  rw [ParenthesesBare] at hbare
  rw [← enclosed_matched, balanced_fold, ← fold_parentheses, ← hbare, fold_parentheses]
  exact ⟨fun h => ⟨hclosed, h⟩, fun h => h.matched⟩

theorem shaped_inner (t inner : Text) (h : Shaped t inner) (hclosed : Quoting.code.after t = .code)
    (hbare : ParenthesesBare t) :
    Quoting.code.after inner = .code ∧ ParenthesesBare inner := by
  obtain ⟨type, htype, gap, hgap, rfl⟩ := h.spelled
  have hfront := cast_front type gap htype hgap
  generalize hlead : type ++ gap = lead at hclosed hbare hfront
  have hcode : Quoting.code.after lead = .code := (outside_unquoted _ lead hfront).closed
  have hlead : Quoting.code.bare lead = lead := bare_unquoted lead (fun c hc => (hfront c hc).1)
  have hopen : Quoting.code.bare ('(' :: (inner ++ [')'])) =
      '(' :: Quoting.code.bare (inner ++ [')']) := rfl
  rw [Quoting.after_append, hcode] at hclosed
  change Quoting.code.after (inner ++ [')']) = .code at hclosed
  rw [Quoting.after_append] at hclosed
  have hinner : Quoting.code.after inner = .code :=
    code_before_next _ (after_opened .code inner trivial) ')' rfl hclosed
  have hlast : Quoting.code.bare (inner ++ [')']) = Quoting.code.bare inner ++ [')'] := by
    rw [Quoting.bare_append, hinner]
    rfl
  refine ⟨hinner, ?_⟩
  rw [ParenthesesBare, Quoting.bare_append, hcode, hlead, hopen, hlast, List.filter_append,
    List.filter_append, List.append_cancel_left_eq, List.filter_cons_of_pos rfl,
    List.filter_cons_of_pos rfl, List.cons_inj_right, List.filter_append,
    List.filter_append, List.append_cancel_right_eq] at hbare
  exact hbare

/-- Taking casts off is exact if and only if the parentheses inside, counted
with those of literals, are balanced just when they match outside literals. In
particular it is exact for every text that closes its literals and has no
parenthesis in one. -/
theorem cast_stripped (t : Text) :
    (CastResult t (withoutCast t) ↔
      ∀ inner, Shaped t inner → (balancedFrom 0 inner = true ↔ Matched inner)) ∧
    (Quoting.code.after t = .code → ParenthesesBare t → CastResult t (withoutCast t)) := by
  refine ⟨cast_exact t, fun hclosed hbare => (cast_exact t).mpr fun inner hshaped => ?_⟩
  obtain ⟨hinner, hparentheses⟩ := shaped_inner t inner hshaped hclosed hbare
  exact balanced_matched inner hinner hparentheses

def nestedCast : Text := "Double ( f(\"a, b\", g(1)) )".toList

def castProduct : Text := "Double(a) * unsigned(b)".toList

theorem cast_stripped_nested :
    Quoting.code.after nestedCast = .code ∧ ParenthesesBare nestedCast ∧
      withoutCast nestedCast = "f(\"a, b\", g(1))".toList ∧
      Quoting.code.after castProduct = .code ∧ ParenthesesBare castProduct ∧
      withoutCast castProduct = castProduct := by
  have hcast : Shaped nestedCast " f(\"a, b\", g(1)) ".toList :=
    shaped_split _ _ "Double".toList " ".toList (by decide) (by decide) (by decide) (by decide)
  have hmatched : Matched " f(\"a, b\", g(1)) ".toList :=
    (enclosed_matched _).mp ⟨by decide, by decide⟩
  have hproduct : Shaped castProduct "a) * unsigned(b".toList :=
    shaped_split _ _ "Double".toList [] (by decide) (by decide) (by decide) (by decide)
  have hopen : ¬ Enclosed "a) * unsigned(b".toList := fun h => absurd h.matched (by decide)
  have hnested := (cast_stripped nestedCast).2 (by decide) (by decide)
  have hother := (cast_stripped castProduct).2 (by decide) (by decide)
  exact ⟨by decide, by decide, (hnested.cast _ ⟨hcast, hmatched⟩).trans (by decide), by decide,
    by decide, hother.other fun other h => hopen (cast_enclosed _ _ other hproduct h)⟩

def quotedCast : Text := "unsigned('(')".toList

def quotedProduct : Text := "Double('(') * size(')')".toList

/-- A cast is not taken off for a parenthesis in its literal, and what is no
cast loses its ends for two of them. -/
theorem quoted_parentheses_counted :
    (trim quotedCast = quotedCast ∧ Quoting.code.after quotedCast = .code ∧
      NumericCast quotedCast "'('".toList ∧ withoutCast quotedCast = quotedCast) ∧
    (trim quotedProduct = quotedProduct ∧ Quoting.code.after quotedProduct = .code ∧
      (∀ inner, ¬ NumericCast quotedProduct inner) ∧
      withoutCast quotedProduct = "'(') * size(')'".toList) := by
  have hcast : Shaped quotedCast "'('".toList :=
    shaped_split _ _ "unsigned".toList [] (by decide) (by decide) (by decide) (by decide)
  have hmatched : Matched "'('".toList := (enclosed_matched _).mp ⟨by decide, by decide⟩
  have hproduct : Shaped quotedProduct "'(') * size(')'".toList :=
    shaped_split _ _ "Double".toList [] (by decide) (by decide) (by decide) (by decide)
  have hopen : ¬ Enclosed "'(') * size(')'".toList := fun h => absurd h.matched (by decide)
  exact ⟨⟨by decide, by decide, ⟨hcast, hmatched⟩, by decide⟩, by decide, by decide,
    fun other h => hopen (cast_enclosed _ _ other hproduct h), by decide⟩

end ParameterManual.Constructor
