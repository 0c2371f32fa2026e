import ParameterManual.Proofs.Outcome
import ParameterManual.Proofs.Statement.Printed

/-!
# Reading undoes writing

A statement in canonical form is read back from what is written for it. So is
every statement that was read, from whatever text.
-/

set_option autoImplicit false

namespace ParameterManual.Statement
open Source Text

theorem angle_found (depth : Nat) (t w rest : Text) (h : cutAtAngle depth t = some (w, rest)) :
    anglesBalanced depth w = true ∧ ∀ c ∈ w, c ≠ '(' ∧ c ≠ ';' := by
  induction t generalizing depth w with
  | nil => cases h
  | cons c t ih =>
    -- a character of the type, with the depth after it
    have kept (e : Nat) (hc : c ≠ '(' ∧ c ≠ ';')
        (hb : ∀ v, anglesBalanced depth (c :: v) = anglesBalanced e v)
        (h : (cutAtAngle e t).map (fun cut => (c :: cut.1, cut.2)) = some (w, rest)) :
        anglesBalanced depth w = true ∧ ∀ c ∈ w, c ≠ '(' ∧ c ≠ ';' := by
      obtain ⟨⟨v, tail⟩, hv, hcut⟩ := Option.map_eq_some_iff.mp h
      obtain ⟨rfl, rfl⟩ := Prod.mk.inj hcut
      obtain ⟨hbalanced, hplain⟩ := ih e v hv
      constructor
      · rw [hb, hbalanced]
      · exact List.forall_mem_cons.mpr ⟨hc, hplain⟩
    by_cases ho : c = '<'
    · subst ho
      apply kept (depth + 1) (by decide) (fun v => by simp [anglesBalanced.eq_def depth])
      simpa [cutAtAngle.eq_def depth] using h
    · by_cases hc : c = '>'
      · subst hc
        cases depth with
        | zero =>
          obtain ⟨rfl, rfl⟩ : w = [] ∧ rest = t := by simpa [cutAtAngle, eq_comm] using h
          simp [anglesBalanced]
        | succ depth =>
          apply kept depth (by decide) (fun v => by simp [anglesBalanced.eq_def (depth + 1)])
          simpa [cutAtAngle.eq_def (depth + 1)] using h
      · by_cases hstop : c = '(' ∨ c = ';'
        · simp [cutAtAngle.eq_def depth, ho, hc, hstop] at h
        · apply kept depth (not_or.mp hstop)
            (fun v => by simp [anglesBalanced.eq_def depth (c :: v), ho, hc])
          simpa [cutAtAngle.eq_def depth, ho, hc, hstop] using h

theorem angles_trailing (depth : Nat) (t g : Text) (hg : isAllBlank g = true) :
    anglesBalanced depth (t ++ g) = anglesBalanced depth t := by
  have hfront := angles_front depth t g [] (fun later => by simpa using angles_blank later g [] hg)
  simpa using hfront

theorem angles_trim (depth : Nat) (t : Text) :
    anglesBalanced depth (trim t) = anglesBalanced depth t := by
  obtain ⟨g, r, ht, hg, hr⟩ := trim_split t
  conv => rhs; rw [ht]
  rw [angles_trailing depth _ r hr, angles_blank depth g _ hg]

theorem callOf_found (t : Text) (call : Call) (h : callOf t = .ok call) :
    trim call.head = call.head ∧ Outside (· ≠ '(') call.head ∧
      Restorable (splitArguments call.arguments) := by
  rw [callOf] at h
  split at h
  · rename_i found hfound
    obtain rfl : found = call := Except.ok.inj h
    obtain ⟨head, hhead, houtside, henclosed, -⟩ := call_found t found hfound
    rw [← hhead]
    exact ⟨trim_trim head, outside_trim _ head houtside, split_restorable _ henclosed⟩
  · cases h

theorem soleCall_found (t : Text) (arguments : List Text) (h : soleCall t = .ok arguments) :
    Restorable arguments := by
  obtain ⟨call, hcall, h⟩ := bind_ok h
  obtain ⟨-, -, hrestorable⟩ := callOf_found t call hcall
  split at h
  · obtain rfl : splitArguments call.arguments = arguments := Except.ok.inj h
    exact hrestorable
  · cases h

theorem modifiers_found (fuel : Nat) (t : Text) (modifiers : List Modifier)
    (h : modifiersFrom fuel t = .ok modifiers) : ∀ m ∈ modifiers, Chained m := by
  induction fuel generalizing t modifiers with
  | zero =>
    obtain rfl : [] = modifiers := Except.ok.inj h
    simp
  | succ fuel ih =>
    rw [modifiersFrom] at h
    split at h
    · obtain rfl : [] = modifiers := Except.ok.inj h
      simp
    · split at h
      · cases h
      · rename_i chained _
        obtain ⟨call, hcall, h⟩ := bind_ok h
        obtain ⟨others, hothers, h⟩ := bind_ok h
        obtain rfl : ⟨call.head, splitArguments call.arguments⟩ :: others = modifiers :=
          Except.ok.inj h
        obtain ⟨htrim, hhead, harguments⟩ := callOf_found chained call hcall
        exact List.forall_mem_cons.mpr ⟨⟨htrim, hhead, harguments⟩, ih call.rest others hothers⟩

theorem bind_found (t : Text) (s : Statement) (h : parseBind t = .ok s) : Printable s := by
  rw [parseBind] at h
  split at h
  · cases h
  · rename_i template rest hcut
    obtain ⟨call, hcall, h⟩ := bind_ok h
    split at h
    · obtain ⟨chain, hchain, h⟩ := bind_ok h
      obtain rfl : Statement.bind (trim template) (splitArguments call.arguments) chain = s :=
        Except.ok.inj h
      obtain ⟨hbalanced, hplain⟩ := angle_found 0 t template rest hcut
      obtain ⟨-, -, harguments⟩ := callOf_found rest call hcall
      apply Printable.bind
      · exact trim_trim template
      · rw [angles_trim, hbalanced]
      · exact fun c hc => hplain c ((trim_sublist template).subset hc)
      · exact harguments
      · exact modifiers_found _ _ chain hchain
    · cases h

theorem parse_found (t : Text) (s : Statement) (h : parse t = .ok (some s)) : Printable s := by
  rw [parse] at h
  split at h
  · obtain ⟨arguments, hcall, hs⟩ := map_ok h
    obtain rfl := Option.some.inj hs
    exact .bindTable arguments (soleCall_found _ arguments hcall)
  · split at h
    · obtain ⟨own, hbind, hs⟩ := map_ok h
      obtain rfl := Option.some.inj hs
      exact bind_found _ own hbind
    · split at h
      · obtain ⟨arguments, hcall, hs⟩ := map_ok h
        obtain rfl := Option.some.inj hs
        exact .register arguments (soleCall_found _ arguments hcall)
      · cases h

/-- Arguments in canonical form. One empty argument cannot be told from none. -/
def CanonicalArguments (arguments : List Text) : Prop :=
  arguments ≠ [[]] ∧ ∀ argument ∈ arguments, Argument argument

instance : DecidablePred CanonicalArguments := fun _ => inferInstanceAs (Decidable (_ ∧ _))

structure CanonicalModifier (m : Modifier) : Prop where
  trimmed : trim m.name = m.name
  plain : ∀ c ∈ m.name, c ≠ '(' ∧ Quoting.isQuote c = false
  arguments : CanonicalArguments m.arguments

instance : DecidablePred CanonicalModifier := fun m =>
  have : Decidable (∀ c ∈ m.name, c ≠ '(' ∧ Quoting.isQuote c = false) := List.decidableBAll _ _
  decidable_of_iff (trim m.name = m.name ∧ (∀ c ∈ m.name, c ≠ '(' ∧ Quoting.isQuote c = false) ∧
      CanonicalArguments m.arguments)
    ⟨fun ⟨trimmed, plain, arguments⟩ => ⟨trimmed, plain, arguments⟩,
      fun h => ⟨h.trimmed, h.plain, h.arguments⟩⟩

/-- The statements that are written with nothing to lose. -/
def Canonical : Statement → Prop
  | .bind template arguments modifiers =>
    (trim template = template ∧ anglesBalanced 0 template = true ∧
      ∀ c ∈ template, c ≠ '(' ∧ c ≠ ';') ∧
    CanonicalArguments arguments ∧ ∀ m ∈ modifiers, CanonicalModifier m
  | .bindTable arguments => CanonicalArguments arguments
  | .register arguments => CanonicalArguments arguments

instance : DecidablePred Canonical := fun
  | .bind template _ _ =>
    have : Decidable (∀ c ∈ template, c ≠ '(' ∧ c ≠ ';') := List.decidableBAll _ _
    inferInstanceAs (Decidable (_ ∧ _))
  | .bindTable _ => inferInstanceAs (Decidable (CanonicalArguments _))
  | .register _ => inferInstanceAs (Decidable (CanonicalArguments _))

theorem canonical_arguments (arguments : List Text) (h : CanonicalArguments arguments) :
    Restorable arguments := arguments_restorable arguments h.2 h.1

theorem canonical_chained (m : Modifier) (h : CanonicalModifier m) : Chained m := by
  constructor
  · exact h.trimmed
  · exact outside_unquoted _ m.name (fun c hc => ⟨(h.plain c hc).2, (h.plain c hc).1⟩)
  · exact canonical_arguments m.arguments h.arguments

theorem canonical_printable (s : Statement) (h : Canonical s) : Printable s := by
  cases s with
  | bind template arguments modifiers =>
    obtain ⟨⟨htrim, hbalanced, hplain⟩, hown, hchain⟩ := h
    exact .bind template arguments modifiers htrim hbalanced hplain
      (canonical_arguments arguments hown) (fun m hm => canonical_chained m (hchain m hm))
  | bindTable arguments => exact .bindTable arguments (canonical_arguments arguments h)
  | register arguments => exact .register arguments (canonical_arguments arguments h)

/-- Reading undoes writing, for every statement in canonical form and for
every statement that was read from some text, with either registration. -/
theorem parse_text (r : Registration) :
    (∀ s, Canonical s → parse (s.text r) = .ok (some s)) ∧
      ∀ t s, parse t = .ok (some s) → parse (s.text r) = .ok (some s) := by
  constructor
  · intro s hs
    exact parse_printable s (canonical_printable s hs) r
  · intro t s ht
    exact parse_printable s (parse_found t s ht) r

def rateBind : Statement :=
  .bind "Pair<int, Map<double>>".toList
    ["\"rate, (x\"".toList, "&rate_".toList, "f(a, [b])".toList, []]
    [⟨"lower".toList, ["0".toList, "\x7b1, 2\x7d".toList]⟩, ⟨"fixed".toList, []⟩]

def strayRegistration : Statement := .register ["A]".toList, "&b_".toList]

theorem parse_text_stray :
    Canonical rateBind ∧ parse (rateBind.text .addressable) = .ok (some rateBind) ∧
      parse "  RegisterAsAddressable(A],&b_ ) ;;".toList = .ok (some strayRegistration) ∧
      parse (strayRegistration.text .estimable) = .ok (some strayRegistration) := by
  have hcanonical : Canonical rateBind := by decide
  have hparse : parse "  RegisterAsAddressable(A],&b_ ) ;;".toList =
      .ok (some strayRegistration) := rfl
  exact ⟨hcanonical, (parse_text .addressable).1 rateBind hcanonical, hparse,
    (parse_text .estimable).2 _ strayRegistration hparse⟩

end ParameterManual.Statement
