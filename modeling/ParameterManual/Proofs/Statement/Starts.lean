import ParameterManual.Proofs.Outcome
import ParameterManual.Proofs.Text.Replacing
import ParameterManual.Statement.Parser

/-!
# How statements begin

A statement begins with one of four leads, in which there is no blank and no
semicolon. Trimming a text and taking off its terminator leaves a lead at its
front where it is, so a text reads as no statement exactly if, trimmed, it
does not begin like one.
-/

set_option autoImplicit false

namespace ParameterManual.Statement
open Text

def leads : List Text := [bindLead, bindTableLead, addressableLead, estimableLead]

theorem start_iff (t : Text) : isStart t = true ↔ ∃ lead ∈ leads, ∃ rest, t = lead ++ rest := by
  have hlead (lead : Text) : startsWith lead t = true ↔ ∃ rest, t = lead ++ rest := by
    constructor
    · exact startsWith_split lead t
    · rintro ⟨rest, rfl⟩
      exact startsWith_append lead rest
  simp only [isStart, startsRegistration, leads, Bool.or_eq_true, hlead, List.mem_cons,
    List.not_mem_nil, or_false, exists_eq_or_imp, exists_eq_left, or_assoc]

theorem lead_solid (lead : Text) (h : lead ∈ leads) :
    lead ≠ [] ∧ ∀ c ∈ lead, isBlank c = false ∧ c ≠ ';' := by
  have hall : leads.all (fun lead =>
      !lead.isEmpty && lead.all (fun c => !isBlank c && c != ';')) = true := rfl
  simpa using List.all_eq_true.mp hall lead h

theorem start_first (t : Text) (h : isStart t = true) :
    ∃ c r, t = c :: r ∧ isBlank c = false := by
  obtain ⟨lead, hlead, rest, rfl⟩ := (start_iff t).mp h
  obtain ⟨hne, hsolid⟩ := lead_solid lead hlead
  obtain ⟨c, r, rfl⟩ := List.exists_cons_of_ne_nil hne
  exact ⟨c, r ++ rest, rfl, (hsolid c (by simp)).1⟩

theorem start_append (t u : Text) (h : isStart t = true) : isStart (t ++ u) = true := by
  obtain ⟨lead, hlead, rest, rfl⟩ := (start_iff t).mp h
  exact (start_iff _).mpr ⟨lead, hlead, rest ++ u, List.append_assoc lead rest u⟩

/-- The lead of a bind is no inner part of a lead, so what stands before it
does not begin like a statement only because of it. -/
theorem start_before_bind (t u : Text) (hne : t ≠ [])
    (h : isStart (t ++ (bindLead ++ u)) = true) : isStart t = true := by
  obtain ⟨lead, hlead, rest, hsplit⟩ := (start_iff _).mp h
  rcases List.append_eq_append_iff.mp hsplit with ⟨more, rfl, hmore⟩ | ⟨more, rfl, -⟩
  · cases more with
    | nil => exact (start_iff t).mpr ⟨t, by simpa using hlead, [], by simp⟩
    | cons c more =>
      -- the lead would go on with the first character of the other
      obtain ⟨rfl, -⟩ : 'p' = c ∧ _ := List.cons.inj hmore
      have hinner : 'p' ∈ (t ++ 'p' :: more).tail := by
        obtain ⟨d, r, rfl⟩ := List.exists_cons_of_ne_nil hne
        simp
      have hall : leads.all (fun lead => !lead.tail.contains 'p') = true := rfl
      have hfree := List.all_eq_true.mp hall _ hlead
      rw [List.contains_iff_mem.mpr hinner] at hfree
      cases hfree
  · exact (start_iff _).mpr ⟨lead, hlead, more, rfl⟩

theorem start_dropEnd (p : Char → Bool) (t : Text)
    (hp : ∀ c, p c = true → isBlank c = true ∨ c = ';') :
    isStart (dropEndWhile p t) = isStart t := by
  rw [Bool.eq_iff_iff]
  constructor
  · intro h
    obtain ⟨dropped, hdropped⟩ := List.rdropWhile_prefix p t
    have := start_append (dropEndWhile p t) dropped h
    rwa [← hdropped]
  · intro h
    obtain ⟨lead, hlead, rest, rfl⟩ := (start_iff t).mp h
    obtain ⟨hne, hsolid⟩ := lead_solid lead hlead
    -- the scan from the end stops at the last character of the lead
    obtain ⟨front, c, rfl⟩ := (List.eq_nil_or_concat lead).resolve_left hne
    obtain ⟨hblank, hsemi⟩ := hsolid c (by simp)
    have hc : p c = false := by
      rw [← Bool.not_eq_true]
      intro hdrops
      rcases hp c hdrops with h | h
      · rw [hblank] at h
        cases h
      · exact hsemi h
    refine (start_iff _).mpr ⟨_, hlead, dropEndWhile p rest, ?_⟩
    simpa using dropEnd_behind p front rest c hc

theorem start_trimEnd (t : Text) : isStart (trimEnd t) = isStart t :=
  start_dropEnd isBlank t (fun _ hc => Or.inl hc)

theorem start_trim (t : Text) (h : isStart t = true) : isStart t.trim = true := by
  obtain ⟨c, r, rfl, hc⟩ := start_first t h
  rw [trim, trimStart, List.dropWhile_cons_of_neg (by simp [hc]), start_trimEnd, h]

theorem start_terminated (t : Text) : isStart (withoutTerminator t) = isStart t.trim := by
  rw [withoutTerminator, start_trimEnd]
  exact start_dropEnd _ _ (fun c hc => Or.inr (by simpa using hc))

theorem read_some {α : Type} (x : Except Malformation α) (f : α → Statement) :
    (fun a => some (f a)) <$> x ≠ .ok none := by
  intro h
  obtain ⟨a, -, ha⟩ := map_ok h
  cases ha

/-- A text is read as no statement exactly if, trimmed, it does not begin like
one. The two look for the leads in different orders, and only a lead that is
found decides. -/
theorem parse_none_iff (t : Text) : parse t = .ok none ↔ isStart t.trim = false := by
  rw [← start_terminated, parse]
  split
  · rename_i htable
    exact iff_of_false (read_some _ _) (by simp [isStart, htable])
  · rename_i htable
    split
    · rename_i after hbind
      exact iff_of_false (read_some _ _) (by simp [isStart, startsWith, hbind])
    · rename_i hbind
      have hnone : startsWith bindLead (withoutTerminator t) = false := by rw [startsWith, hbind]; rfl
      split
      · rename_i hregister
        exact iff_of_false (read_some _ _) (by simp [isStart, hregister])
      · rename_i hregister
        exact iff_of_true rfl (by simp [isStart, hnone, htable, hregister])

end ParameterManual.Statement
