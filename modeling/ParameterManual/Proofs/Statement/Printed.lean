import ParameterManual.Proofs.Source.ArgumentList
import ParameterManual.Proofs.Statement.Bind

/-!
# Statements written out

A statement is written as its lead, its arguments with commas between them,
its chain of modifiers and the terminator. What is written so is read back as
the statement, and every statement that is read can be written so.
-/

set_option autoImplicit false

namespace ParameterManual
open Source Text

def Modifier.text (m : Modifier) : Text :=
  "->".toList ++ (m.name ++ '(' :: (listed m.arguments ++ [')']))

namespace Statement

inductive Registration where
  | addressable
  | estimable
  deriving DecidableEq, Repr

def Registration.lead : Registration → Text
  | .addressable => addressableLead
  | .estimable => estimableLead

def text (r : Registration) : Statement → Text
  | .bind template arguments modifiers =>
    bindLead ++ template ++ ">(".toList ++ listed arguments ++ ")".toList ++
      modifiers.flatMap Modifier.text ++ ";".toList
  | .bindTable arguments => bindTableLead ++ listed arguments ++ ");".toList
  | .register arguments => r.lead ++ listed arguments ++ ");".toList

structure Chained (m : Modifier) : Prop where
  trimmed : trim m.name = m.name
  name : Outside (· ≠ '(') m.name
  arguments : Restorable m.arguments

/-- What a statement has once it was read. -/
inductive Printable : Statement → Prop
  | bind (template : Text) (arguments : List Text) (modifiers : List Modifier)
      (trimmed : trim template = template) (balanced : anglesBalanced 0 template = true)
      (plain : ∀ c ∈ template, c ≠ '(' ∧ c ≠ ';') (own : Restorable arguments)
      (chain : ∀ m ∈ modifiers, Chained m) : Printable (.bind template arguments modifiers)
  | bindTable (arguments : List Text) (own : Restorable arguments) :
      Printable (.bindTable arguments)
  | register (arguments : List Text) (own : Restorable arguments) :
      Printable (.register arguments)

theorem terminated (lead rest : Text) (h : Ink lead) :
    withoutTerminator (lead ++ rest ++ ");".toList) = lead ++ rest ++ [')'] := by
  obtain ⟨c, r, rfl, hc⟩ := h.first
  have hended := terminator_behind (c :: r ++ rest) [';'] ')' ⟨c, r ++ rest, rfl, hc⟩ (by decide)
  have hnone : unended [';'] = [] := unended_closed [] [] rfl rfl
  simpa [hnone] using hended

theorem callOf_read (head : Text) (arguments : List Text) (rest : Text)
    (hh : Outside (· ≠ '(') head) (ha : Restorable arguments) :
    callOf (head ++ '(' :: (listed arguments ++ ')' :: rest)) =
      .ok ⟨trim head, listed arguments, rest⟩ := by
  rw [callOf, call_read head _ rest hh ha.enclosed]

theorem soleCall_read (head : Text) (arguments : List Text) (hh : Outside (· ≠ '(') head)
    (ha : Restorable arguments) :
    soleCall (head ++ ['('] ++ listed arguments ++ [')']) = .ok arguments := by
  have hcall := callOf_read head arguments [] hh ha
  simp only [List.append_assoc, List.cons_append, List.nil_append]
  rw [soleCall, hcall]
  change Except.ok (splitArguments (listed arguments)) = _
  rw [split_listed arguments ha]

theorem chain_last (modifiers : List Modifier) (front : Text) :
    ∃ r, front ++ [')'] ++ modifiers.flatMap Modifier.text = r ++ [')'] := by
  induction modifiers generalizing front with
  | nil => exact ⟨front, by simp⟩
  | cons m others ih =>
    obtain ⟨r, hr⟩ := ih (front ++ ')' :: ("->".toList ++ (m.name ++ '(' :: listed m.arguments)))
    refine ⟨r, ?_⟩
    rw [← hr, List.flatMap_cons, Modifier.text]
    simp

theorem chain_trim (m : Modifier) (others : List Modifier) :
    trim ((m :: others).flatMap Modifier.text) = '-' :: '>' ::
      (m.name ++ '(' :: (listed m.arguments ++ ')' :: others.flatMap Modifier.text)) := by
  obtain ⟨r, hr⟩ := chain_last others ("->".toList ++ (m.name ++ '(' :: listed m.arguments))
  have htext : (m :: others).flatMap Modifier.text = '-' :: '>' ::
      (m.name ++ '(' :: (listed m.arguments ++ ')' :: others.flatMap Modifier.text)) := by
    simp [Modifier.text]
  rw [trim_ink_self _ ⟨⟨'-', _, htext, rfl⟩, ⟨r, ')', ?_, rfl⟩⟩, htext]
  rw [← hr, List.flatMap_cons, Modifier.text]
  simp

theorem modifiers_read (modifiers : List Modifier) (h : ∀ m ∈ modifiers, Chained m)
    (fuel : Nat) (hfuel : modifiers.length ≤ fuel) :
    modifiersFrom fuel (modifiers.flatMap Modifier.text) = .ok modifiers := by
  induction modifiers generalizing fuel with
  | nil => cases fuel <;> rfl
  | cons m others ih =>
    obtain ⟨fuel, rfl⟩ := Nat.exists_eq_succ_of_ne_zero (show fuel ≠ 0 by simp at hfuel; omega)
    have hm := h m (by simp)
    have hothers := ih (fun o ho => h o (by simp [ho])) fuel (by simpa using hfuel)
    rw [modifiersFrom, chain_trim]
    change (callOf _ >>= _) = _
    rw [callOf_read m.name m.arguments _ hm.name hm.arguments]
    change (modifiersFrom fuel (others.flatMap Modifier.text) >>= _) = _
    rw [hothers]
    change Except.ok (⟨trim m.name, splitArguments (listed m.arguments)⟩ :: others) = _
    rw [hm.trimmed, split_listed m.arguments hm.arguments]

theorem chain_length (modifiers : List Modifier) :
    modifiers.length ≤ (modifiers.flatMap Modifier.text).length := by
  induction modifiers with
  | nil => simp
  | cons m others ih =>
    rw [List.flatMap_cons, List.length_append, Modifier.text]
    simp only [List.length_cons, List.length_append]
    omega

theorem bind_read (template : Text) (arguments : List Text) (modifiers : List Modifier)
    (trimmed : trim template = template) (balanced : anglesBalanced 0 template = true)
    (plain : ∀ c ∈ template, c ≠ '(' ∧ c ≠ ';') (own : Restorable arguments)
    (chain : ∀ m ∈ modifiers, Chained m) :
    parseBind (template ++ '>' :: ('(' :: (listed arguments ++ ')' ::
      modifiers.flatMap Modifier.text))) = .ok (.bind template arguments modifiers) := by
  have hcall := callOf_read [] arguments (modifiers.flatMap Modifier.text)
    (outside_nil _) own
  have hchain : Statement.modifiers (modifiers.flatMap Modifier.text) = .ok modifiers :=
    modifiers_read modifiers chain _ (Nat.le_succ_of_le (chain_length modifiers))
  rw [parseBind, angle_cut 0 template _ balanced plain]
  change (callOf ([] ++ '(' :: _) >>= _) = _
  rw [hcall]
  change (Statement.modifiers (modifiers.flatMap Modifier.text) >>= _) = _
  rw [hchain]
  change Except.ok (Statement.bind (trim template) (splitArguments (listed arguments)) modifiers) = _
  rw [trimmed, split_listed arguments own]

theorem lead_called (lead : Text) (h : lead ∈ [bindTableLead, addressableLead, estimableLead]) :
    ∃ head, lead = head ++ ['('] ∧ Outside (· ≠ '(') head := by
  simp only [List.mem_cons, List.not_mem_nil, or_false] at h
  rcases h with rfl | rfl | rfl
  · exact ⟨"parameters_.BindTable".toList, by decide, outside_checked _ _ (by decide)⟩
  · exact ⟨"RegisterAsAddressable".toList, by decide, outside_checked _ _ (by decide)⟩
  · exact ⟨"RegisterAsEstimable".toList, by decide, outside_checked _ _ (by decide)⟩

theorem table_read (arguments : List Text) (own : Restorable arguments) :
    parse (bindTableLead ++ listed arguments ++ ");".toList) =
      .ok (some (.bindTable arguments)) := by
  have hink : Ink bindTableLead := ink_of_solid bindTableLead (by decide) (by decide)
  have hstart : startsWith bindTableLead (bindTableLead ++ listed arguments ++ [')']) = true := by
    rw [startsWith, List.append_assoc, afterLead_append]
    rfl
  have hcall : soleCall (bindTableLead ++ listed arguments ++ [')']) = .ok arguments := by
    obtain ⟨head, hlead, hhead⟩ := lead_called bindTableLead (by simp)
    rw [hlead]
    exact soleCall_read head arguments hhead own
  rw [parse, terminated _ _ hink, if_pos hstart, hcall]
  rfl

theorem registration_read (r : Registration) (arguments : List Text) (own : Restorable arguments) :
    parse (r.lead ++ listed arguments ++ ");".toList) = .ok (some (.register arguments)) := by
  have hink : Ink r.lead := by
    cases r <;> exact ink_of_solid _ (by decide) (by decide)
  have htable : startsWith bindTableLead (r.lead ++ listed arguments ++ [')']) = false := by
    cases r <;> rfl
  have hbind : afterLead? bindLead (r.lead ++ listed arguments ++ [')']) = none := by
    cases r <;> rfl
  have hstart : startsRegistration (r.lead ++ listed arguments ++ [')']) = true := by
    cases r <;> rfl
  have hcall : soleCall (r.lead ++ listed arguments ++ [')']) = .ok arguments := by
    obtain ⟨head, hlead, hhead⟩ := lead_called r.lead (by cases r <;> simp [Registration.lead])
    rw [hlead]
    exact soleCall_read head arguments hhead own
  rw [parse, terminated _ _ hink, if_neg (Bool.eq_false_iff.mp htable), hbind]
  change (if startsRegistration _ = true then _ else _) = _
  rw [if_pos hstart, hcall]
  rfl

/-- What is written out is read back as the statement. -/
theorem parse_printable (s : Statement) (h : Printable s) (r : Registration) :
    parse (s.text r) = .ok (some s) := by
  cases h with
  | bind template arguments modifiers trimmed balanced plain own chain =>
    have hread := bind_read template arguments modifiers trimmed balanced plain own chain
    obtain ⟨front, hfront⟩ :=
      chain_last modifiers (bindLead ++ template ++ ">(".toList ++ listed arguments)
    have hbody : front ++ [')'] = bindLead ++ (template ++ '>' :: ('(' :: (listed arguments ++
        ')' :: modifiers.flatMap Modifier.text))) := by
      rw [← hfront]
      simp
    have htext : text r (.bind template arguments modifiers) = front ++ ')' :: [';'] := by
      have hlast : front ++ ')' :: [';'] = front ++ [')'] ++ ";".toList := by simp
      rw [hlast, ← hfront]
      rfl
    have hfirst : ∃ c r, front = c :: r ∧ isBlank c = false := by
      cases front with
      | nil => cases hbody
      | cons c front =>
        obtain ⟨rfl, -⟩ := List.cons.inj hbody
        exact ⟨'p', front, rfl, rfl⟩
    have hended : withoutTerminator (front ++ ')' :: [';']) = front ++ [')'] :=
      terminator_behind front [';'] ')' hfirst (by decide)
    have htable : startsWith bindTableLead (front ++ [')']) = false := by
      rw [hbody]
      rfl
    rw [htext, parse, hended,
      if_neg (Bool.eq_false_iff.mp htable), hbody, afterLead_append]
    change some <$> parseBind _ = _
    rw [hread]
    rfl
  | bindTable arguments own => exact table_read arguments own
  | register arguments own => exact registration_read r arguments own

end Statement

end ParameterManual
