import Mathlib.Data.List.Chain
import ParameterManual.Proofs.Member.Spacing

/-!
# What tightening leaves

Tightening takes blanks only. What is left has no blank behind a blank, an
opening angle or a comma and none in front of a closing angle or a comma, so a
second tightening finds nothing to take. Between two characters that are not
blank the first blank of the gap stays, unless one of the two takes it away.
-/

set_option autoImplicit false

namespace ParameterManual.Member
open Text

def solid (t : Text) : Text := t.filter (fun c => !isBlank c)

/-- Two characters that may follow each other in a tight text. -/
def MayMeet (c d : Char) : Prop :=
  (isBlank d = true → isBlank c = false ∧ c ≠ '<' ∧ c ≠ ',') ∧
    (isBlank c = true → d ≠ '>' ∧ d ≠ ',')

instance (c d : Char) : Decidable (MayMeet c d) := by
  unfold MayMeet
  infer_instance

/-- Two characters that are not blank and leave no gap between them. -/
def Closes (a b : Char) : Prop := a = '<' ∨ a = ',' ∨ b = '>' ∨ b = ','

instance (a b : Char) : Decidable (Closes a b) := by
  unfold Closes
  infer_instance

/-- Nothing behind a character that is not blank counts for what stands in
front of it. -/
theorem ahead_front (before : Text) (a : Char) (t : Text) (ha : isBlank a = false) :
    closedAhead (before ++ a :: t) = closedAhead (before ++ [a]) := by
  induction before with
  | nil => rw [List.nil_append, List.nil_append, ahead_solid a t ha, ahead_solid a [] ha]
  | cons c before ih =>
    rw [List.cons_append, List.cons_append]
    cases hc : isBlank c with
    | true => rw [ahead_blank c _ hc, ahead_blank c _ hc, ih]
    | false => rw [ahead_solid c _ hc, ahead_solid c _ hc]

theorem tighten_cases (last : Option Char) (c : Char) (t : Text) :
    (isBlank c = true ∧ (last.any tightAfter = true ∨ closedAhead t = true) ∧
        tightenFrom last (c :: t) = tightenFrom last t) ∨
      ((isBlank c = true → last.any tightAfter = false ∧ closedAhead t = false) ∧
        tightenFrom last (c :: t) = c :: tightenFrom (some c) t) := by
  cases hc : isBlank c with
  | false => exact Or.inr ⟨by simp, tighten_char last c t hc⟩
  | true =>
    by_cases h : last.any tightAfter = true ∨ closedAhead t = true
    · exact Or.inl ⟨rfl, h, tighten_taken last c t hc h⟩
    · obtain ⟨hlast, hnext⟩ : last.any tightAfter = false ∧ closedAhead t = false := by
        simpa [not_or] using h
      exact Or.inr ⟨fun _ => ⟨hlast, hnext⟩, tighten_left last c t hlast hnext⟩

theorem tighten_solids (last : Option Char) (t : Text) : solid (tightenFrom last t) = solid t := by
  induction t generalizing last with
  | nil => rfl
  | cons c t ih =>
    rcases tighten_cases last c t with ⟨hc, -, htake⟩ | ⟨-, hleave⟩
    · rw [htake, ih last, solid, solid, List.filter_cons_of_neg (by simp [hc])]
    · rw [hleave, solid, List.filter_cons, ← solid, ih (some c), solid, solid, List.filter_cons]

theorem after_meets (c d : Char) (hd : isBlank d = false) (hc : isBlank c = true)
    (h : tightBefore d = false) : MayMeet c d := by
  simpa [MayMeet, hd, hc, tightBefore] using h

theorem before_meets (c d : Char) (hd : isBlank d = true) (h : tightAfter c = false) :
    MayMeet c d := by
  have hc : (¬ c = '<' ∧ ¬ c = ',') ∧ isBlank c = false := by simpa [tightAfter] using h
  simp [MayMeet, hd, hc]

theorem solid_meets (c d : Char) (hc : isBlank c = false) (hd : isBlank d = false) :
    MayMeet c d := by
  simp [MayMeet, hc, hd]

/-- The induction knows of a last character that is blank that it was left in
view of what comes next. -/
theorem tighten_chain (last : Option Char) (t : Text)
    (h : last.any isBlank = true → closedAhead t = false) :
    List.IsChain MayMeet (last.toList ++ tightenFrom last t) := by
  induction t generalizing last with
  | nil => cases last <;> simp [tightenFrom]
  | cons c t ih =>
    rcases tighten_cases last c t with ⟨hc, -, htake⟩ | ⟨hkept, hleave⟩
    · rw [htake]
      apply ih
      intro hlast
      rw [← ahead_blank c t hc]
      exact h hlast
    · have hrest := ih (some c) (fun hc => (hkept hc).2)
      rw [hleave]
      cases last with
      | none => exact hrest
      | some l =>
        refine List.isChain_cons_cons.mpr ⟨?_, hrest⟩
        cases hc : isBlank c with
        | true => exact before_meets l c hc (hkept hc).1
        | false =>
          cases hl : isBlank l with
          | false => exact solid_meets l c hl hc
          | true =>
            have hnext := h hl
            rw [ahead_solid c t hc] at hnext
            exact after_meets l c hc hl hnext

theorem chain_unclosed (c : Char) (t : Text) (hc : isBlank c = true)
    (h : List.IsChain MayMeet (c :: t)) : closedAhead t = false := by
  cases t with
  | nil => rfl
  | cons d t =>
    obtain ⟨hbehind, hbefore⟩ := (List.isChain_cons_cons.mp h).1
    have hd : isBlank d = false := by
      cases hd : isBlank d with
      | false => rfl
      | true => exact absurd hc (by simp [(hbehind hd).1])
    rw [ahead_solid d t hd]
    simpa [tightBefore] using hbefore hc

theorem chain_tightened (last : Option Char) (t : Text)
    (h : List.IsChain MayMeet (last.toList ++ t)) : tightenFrom last t = t := by
  induction t generalizing last with
  | nil => rfl
  | cons c t ih =>
    have hbehind : List.IsChain MayMeet (c :: t) := h.right_of_append
    have hrest := ih (some c) hbehind
    cases hc : isBlank c with
    | false => rw [tighten_char last c t hc, hrest]
    | true =>
      have hlast : last.any tightAfter = false := by
        cases last with
        | none => rfl
        | some l =>
          obtain ⟨hl, hopen, hcomma⟩ := (List.isChain_cons_cons.mp h).1.1 hc
          simp [tightAfter, hl, hopen, hcomma]
      rw [tighten_left last c t hlast (chain_unclosed c t hc hbehind), hrest]

theorem tighten_front (last : Option Char) (before : Text) (a : Char) (ha : isBlank a = false) :
    ∃ front, solid front = solid before ∧
      ∀ t, tightenFrom last (before ++ a :: t) = front ++ a :: tightenFrom (some a) t := by
  induction before generalizing last with
  | nil => exact ⟨[], rfl, fun t => tighten_char last a t ha⟩
  | cons c before ih =>
    rcases tighten_cases last c (before ++ [a]) with ⟨hc, htaken, -⟩ | ⟨hkept, -⟩
    · obtain ⟨front, hsolid, hfront⟩ := ih last
      refine ⟨front, ?_, ?_⟩
      · rw [hsolid, solid, solid, List.filter_cons_of_neg (by simp [hc])]
      · intro t
        rw [List.cons_append, tighten_taken last c _ hc, hfront t]
        rwa [ahead_front before a t ha]
    · obtain ⟨front, hsolid, hfront⟩ := ih (some c)
      refine ⟨c :: front, ?_, ?_⟩
      · rw [solid, List.filter_cons, ← solid, hsolid, solid, solid, List.filter_cons]
      · intro t
        have hleft : tightenFrom last (c :: (before ++ a :: t)) =
            c :: tightenFrom (some c) (before ++ a :: t) := by
          cases hc : isBlank c with
          | false => exact tighten_char last c _ hc
          | true =>
            obtain ⟨hlast, hnext⟩ := hkept hc
            rw [← ahead_front before a t ha] at hnext
            exact tighten_left last c _ hlast hnext
        rw [List.cons_append, hleft, hfront t, List.cons_append]

theorem gap_left (a : Char) (gap : Text) (b : Char) (ha : isBlank a = false) :
    keptGap (some a) gap b = if Closes a b then [] else gap.take 1 := by
  have hiff : (tightAfter a || tightBefore b) = true ↔ Closes a b := by
    simp [tightAfter, tightBefore, Closes, ha, or_assoc]
  rw [keptGap, Option.any_some]
  by_cases h : Closes a b
  · rw [if_pos h, if_pos (hiff.mpr h)]
  · rw [if_neg h, if_neg (fun hclosed => h (hiff.mp hclosed))]

/-- Tightening keeps the characters that are not blank, changes nothing a
second time and leaves only neighbours that may meet. Of a gap between two characters
that are not blank its first blank stays, unless the two close the gap. -/
theorem tighten_spacing (t : Text) :
    solid (tighten t) = solid t ∧ tighten (tighten t) = tighten t ∧
      List.IsChain MayMeet (tighten t) ∧
      ∀ before a gap b after, t = before ++ a :: (gap ++ b :: after) → isBlank a = false →
        isBlank b = false → isAllBlank gap = true →
          ∃ front back, solid front = solid before ∧ solid back = solid after ∧
            tighten t = front ++ a :: ((if Closes a b then [] else gap.take 1) ++ b :: back) := by
  have hchain : List.IsChain MayMeet (tighten t) := tighten_chain none t (by simp)
  refine ⟨tighten_solids none t, chain_tightened none _ hchain, hchain, ?_⟩
  rintro before a gap b after rfl ha hb hgap
  obtain ⟨front, hsolid, hfront⟩ := tighten_front none before a ha
  refine ⟨front, tightenFrom (some b) after, hsolid, tighten_solids (some b) after, ?_⟩
  rw [tighten, hfront, tighten_gap (some a) gap b after hgap hb, gap_left a gap b ha]

def spacedDeclaration : Text := "map< string ,\tDouble\u3000>  values_".toList

theorem tighten_spacing_declaration :
    solid (tighten spacedDeclaration) = "map<string,Double>values_".toList ∧
      tighten (tighten spacedDeclaration) = tighten spacedDeclaration ∧
      List.IsChain MayMeet (tighten spacedDeclaration) ∧
      ∃ front back, solid front = "map<string,Double".toList ∧ solid back = "alues_".toList ∧
        tighten spacedDeclaration = front ++ '>' :: (" ".toList ++ 'v' :: back) := by
  obtain ⟨hsolid, htwice, hchain, hgap⟩ := tighten_spacing spacedDeclaration
  obtain ⟨front, back, hfront, hback, htight⟩ := hgap "map< string ,\tDouble\u3000".toList '>'
    "  ".toList 'v' "alues_".toList (by decide) (by decide) (by decide) (by decide)
  have hdeclared : solid spacedDeclaration = "map<string,Double>values_".toList := by decide
  have hbefore : solid "map< string ,\tDouble\u3000".toList = "map<string,Double".toList := by
    decide
  have hafter : solid "alues_".toList = "alues_".toList := by decide
  rw [if_neg (by decide)] at htight
  exact ⟨hsolid.trans hdeclared, htwice, hchain, front, back, hfront.trans hbefore,
    hback.trans hafter, htight⟩

end ParameterManual.Member
