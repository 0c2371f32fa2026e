import ParameterManual.Statement.Parser
import ParameterManual.Proofs.Source.Enclosed

/-!
# Binds read back

A bind whose angles balance and whose arguments keep their parentheses inside
literals is read as its type and the split of its arguments. What follows the
arguments is a chain of modifiers, once its own end is taken off.
-/

set_option autoImplicit false

namespace ParameterManual.Statement
open Source Text

def anglesBalanced : (depth : Nat) → Text → Bool
  | depth, [] => depth == 0
  | depth, c :: t =>
    if c = '<' then anglesBalanced (depth + 1) t
    else if c = '>' then
      match depth with
      | 0 => false
      | depth + 1 => anglesBalanced depth t
    else anglesBalanced depth t

theorem angles_plain (depth : Nat) (c : Char) (t : Text) (ho : c ≠ '<') (hc : c ≠ '>') :
    anglesBalanced depth (c :: t) = anglesBalanced depth t := by
  simp [anglesBalanced.eq_def depth (c :: t), ho, hc]

theorem angles_blank (depth : Nat) (gap t : Text) (hg : isAllBlank gap = true) :
    anglesBalanced depth (gap ++ t) = anglesBalanced depth t := by
  induction gap with
  | nil => rfl
  | cons c gap ih =>
    obtain ⟨hc, hgap⟩ := Bool.and_eq_true_iff.mp hg
    have hplain := angles_plain depth c (gap ++ t) (blank_ne c _ hc rfl) (blank_ne c _ hc rfl)
    exact hplain.trans (ih hgap)

theorem angles_front (depth : Nat) (piece t u : Text)
    (h : ∀ later, anglesBalanced later t = anglesBalanced later u) :
    anglesBalanced depth (piece ++ t) = anglesBalanced depth (piece ++ u) := by
  induction piece generalizing depth with
  | nil => exact h depth
  | cons c piece ih =>
    rw [List.cons_append, List.cons_append, anglesBalanced.eq_def, anglesBalanced.eq_def depth]
    simp only [ih]

theorem angles_laid (w : Text) (pieces : List Text) (h : Lays w pieces) (depth : Nat) :
    anglesBalanced depth w = anglesBalanced depth pieces.flatten := by
  obtain ⟨tokens, gap, rfl, hg, hgap, rfl⟩ := h
  induction tokens generalizing depth with
  | nil => simpa [laidOut, Spaced.pieces] using angles_blank depth gap [] hgap
  | cons token rest ih =>
    obtain ⟨htoken, hrest⟩ := List.forall_mem_cons.mp hg
    rw [laidOut, List.append_assoc, List.append_assoc, angles_blank depth token.1 _ htoken]
    exact angles_front depth token.2 _ _ (fun later => ih later hrest)

theorem angle_cut (depth : Nat) (t rest : Text) (hb : anglesBalanced depth t = true)
    (hp : ∀ c ∈ t, c ≠ '(' ∧ c ≠ ';') :
    cutAtAngle depth (t ++ '>' :: rest) = some (t, rest) := by
  induction t generalizing depth with
  | nil =>
    obtain rfl : depth = 0 := by simpa [anglesBalanced] using hb
    simp [cutAtAngle]
  | cons c t ih =>
    have hself := hp c (by simp)
    have hrest : ∀ d ∈ t, d ≠ '(' ∧ d ≠ ';' := fun d hd => hp d (by simp [hd])
    rw [List.cons_append]
    by_cases ho : c = '<'
    · subst ho
      have := ih (depth + 1) (by simpa [anglesBalanced] using hb) hrest
      simp [cutAtAngle.eq_def depth, this]
    · by_cases hc : c = '>'
      · subst hc
        cases depth with
        | zero => simp [anglesBalanced] at hb
        | succ depth =>
          have := ih depth (by simpa [anglesBalanced] using hb) hrest
          simp [cutAtAngle.eq_def (depth + 1), this]
      · have := ih depth (by rwa [angles_plain depth c t ho hc] at hb) hrest
        simp [cutAtAngle.eq_def depth (c :: (t ++ _)), ho, hc, hself, this]

/-- What is left of a text behind the arguments of a bind when the end of the
statement is taken off. -/
def unended (tail : Text) : Text := trimEnd (dropEndWhile (· == ';') (trimEnd tail))

theorem terminator_behind (t tail : Text) (c : Char) (hfirst : ∃ d r, t = d :: r ∧ isBlank d = false)
    (hc : isBlank c = false ∧ c ≠ ';') :
    withoutTerminator (t ++ c :: tail) = t ++ c :: unended tail := by
  have hsemi : (c == ';') = false := by simpa using hc.2
  have htrim : trim (t ++ c :: tail) = t ++ c :: trimEnd tail := by
    obtain ⟨d, r, rfl, hd⟩ := hfirst
    have hstart : trimStart (d :: r ++ c :: tail) = d :: r ++ c :: tail :=
      List.dropWhile_cons_of_neg (by simp [hd])
    rw [trim, hstart]
    exact dropEnd_behind isBlank (d :: r) tail c hc.1
  have hbehind := dropEnd_behind (· == ';') t (trimEnd tail) c hsemi
  rw [withoutTerminator, htrim, hbehind]
  exact dropEnd_behind isBlank t _ c hc.1

/-- A bind of a closed type and closed arguments, with anything behind its
arguments. -/
theorem parse_bind (template between arguments tail : Text)
    (ht : anglesBalanced 0 template = true) (hp : ∀ c ∈ template, c ≠ '(' ∧ c ≠ ';')
    (hb : isAllBlank between = true) (ha : Outside (fun c => c ≠ '(' ∧ c ≠ ')') arguments) :
    parse (bindLead ++ (template ++ '>' :: (between ++ '(' :: (arguments ++ ')' :: tail)))) =
      (fun chain => some (.bind template.trim (splitArguments arguments) chain)) <$>
        modifiers (unended tail) := by
  have hfirst (t : Text) : ∃ d r, bindLead ++ t = d :: r ∧ isBlank d = false := ⟨_, _, rfl, rfl⟩
  have hended : withoutTerminator
      (bindLead ++ (template ++ '>' :: (between ++ '(' :: (arguments ++ ')' :: tail)))) =
        bindLead ++ (template ++ '>' :: (between ++ '(' :: (arguments ++ ')' :: unended tail))) := by
    have h := terminator_behind (bindLead ++ (template ++ '>' :: (between ++ '(' :: arguments))) tail
      ')' (hfirst _) ⟨rfl, by decide⟩
    simpa using h
  have htable (t : Text) : startsWith bindTableLead (bindLead ++ t) = false := rfl
  rw [parse, hended]
  simp only [htable, Bool.false_eq_true, if_false, afterLead_append]
  have hhead : Outside (· ≠ '(') between :=
    outside_blank _ (fun c hc => blank_ne c '(' hc rfl) between hb
  have hmatched := level_ignored _ _ (nesting_ignores '(' ')') .code 0 arguments ha.only
  have hcall := call_read between arguments (unended tail) hhead ⟨ha.closed, hmatched⟩
  have hnone : trim between = [] := (trim_nil_iff between).mpr hb
  have hbind : parseBind (template ++ '>' :: (between ++ '(' :: (arguments ++ ')' :: unended tail))) =
      (fun chain => .bind template.trim (splitArguments arguments) chain) <$>
        modifiers (unended tail) := by
    rw [parseBind, angle_cut 0 template _ ht hp]
    simp only [callOf, hcall, hnone]
    rfl
  rw [hbind]
  cases modifiers (unended tail) <;> rfl

/-! ## What follows the terminator -/

theorem unended_closed (gap behind : Text) (hg : isAllBlank gap = true)
    (h : (trimEnd behind).all (· == ';') = true) : unended (gap ++ ';' :: behind) = [] := by
  have hend : trimEnd (gap ++ ';' :: behind) = gap ++ ';' :: trimEnd behind :=
    dropEnd_behind isBlank gap behind ';' rfl
  -- all from the terminator on is dropped, and of the blanks some are left
  have hdrop : (dropEndWhile (· == ';') (gap ++ ';' :: trimEnd behind)).Sublist gap := by
    have hall : ∀ c ∈ (';' :: trimEnd behind).reverse, (c == ';') = true := by
      intro c hc
      rcases List.mem_cons.mp (List.mem_reverse.mp hc) with rfl | hc
      · rfl
      · exact List.all_eq_true.mp h c hc
    rw [dropEndWhile, List.reverse_append, List.dropWhile_append_of_pos hall]
    exact dropEnd_sublist (· == ';') gap
  rw [unended, hend]
  apply List.rdropWhile_eq_nil_iff.mpr
  exact fun c hc => (isAllBlank_iff gap).mp hg c (hdrop.subset hc)

theorem unended_more (gap behind : Text) (h : (trimEnd behind).all (· == ';') = false) :
    ∃ rest, unended (gap ++ ';' :: behind) = gap ++ ';' :: rest := by
  obtain ⟨front, c, back, hsplit, hc⟩ : ∃ front c back, trimEnd behind = front ++ c :: back ∧
      (c == ';') = false := by
    obtain ⟨c, hm, hc⟩ : ∃ c ∈ trimEnd behind, (c == ';') = false := by simpa using h
    obtain ⟨front, back, hsplit⟩ := List.append_of_mem hm
    exact ⟨front, c, back, hsplit, hc⟩
  have hend : trimEnd (gap ++ ';' :: behind) = gap ++ ';' :: (front ++ c :: back) := by
    rw [← hsplit]
    exact dropEnd_behind isBlank gap behind ';' rfl
  have hdrop := dropEnd_behind (· == ';') (gap ++ ';' :: front) back c hc
  rw [List.append_assoc, List.cons_append] at hdrop
  refine ⟨trimEnd (front ++ c :: dropEndWhile (· == ';') back), ?_⟩
  rw [unended, hend, hdrop, List.append_assoc, List.cons_append]
  exact dropEnd_behind isBlank gap _ ';' rfl

theorem modifiers_none : modifiers [] = .ok [] := rfl

theorem modifiers_refused (gap rest : Text) (hg : isAllBlank gap = true) :
    ∃ what, modifiers (gap ++ ';' :: rest) = .error what := by
  have htrim : trim (gap ++ ';' :: rest) = ';' :: trimEnd rest := by
    rw [trim, trimStart, drop_front isBlank gap _ ((isAllBlank_iff gap).mp hg) ⟨';', rest, rfl, rfl⟩]
    exact dropEnd_behind isBlank [] rest ';' rfl
  have harrow : afterLead? "->".toList (';' :: trimEnd rest) = none := rfl
  refine ⟨.afterBind (';' :: trimEnd rest), ?_⟩
  rw [modifiers, modifiersFrom, htrim]
  simp only [harrow]

end ParameterManual.Statement
