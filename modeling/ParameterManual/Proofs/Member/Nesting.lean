import ParameterManual.Member.Table
import ParameterManual.Proofs.Constructor.Site
import ParameterManual.Proofs.Source.Breaking

/-!
# Where a reading of a class stands

The definition of a class is read one character at a time, outside literals:
its heading, then its body, which the brace that opened it closes. The scan
for members goes by net counts of whole lines. It keeps step with the reading
behind an opening that is laid out in one of two ways, until the body is left.
-/

set_option autoImplicit false

namespace ParameterManual.MemberTable
open Source Member Constructor

def namesClass (className line : Text) : Bool :=
  match Text.afterLead? "class".toList line with
  | some (c :: rest) =>
    Text.isBlank c &&
      match Text.afterLead? className.asciiLower (Text.trimStart rest).asciiLower with
      | some after => !after.head?.any Text.isNameChar
      | none => false
  | _ => false

/-- A reading stands outside the class, in its heading, inside some blocks of
its body, or behind it. -/
inductive Spot where
  | outside
  | heading
  | body (blocks : Nat)
  | ended
  deriving DecidableEq, Repr

namespace Spot

def read : Spot → Char → Spot
  | .outside, _ => .outside
  | .heading, c =>
    if c = '\x7b' then .body 0 else if c = '\x7d' ∨ c = ';' then .outside else .heading
  | .body blocks, c => (nesting '\x7b' '\x7d' blocks c).elim .ended .body
  | .ended, _ => .ended

def line (σ : Spot) (text : Text) : Spot := (Quoting.code.bare text).foldl read σ

def enter (className : Text) (σ : Spot) (text : Text) : Spot :=
  if σ = .outside ∧ namesClass className text = true then line .heading text else σ.line text

/-- How many braces of the class are open. -/
def level : Spot → Int
  | .body blocks => blocks + 1
  | _ => 0

def opened : Spot → Bool
  | .outside => false
  | .heading => false
  | .body _ => true
  | .ended => true

end Spot

/-- The declarations on the lines that begin at depth one of the class body. -/
def declaredAtOne (className : Text) : Spot → List Text → List Declaration
  | _, [] => []
  | σ, line :: rest =>
    (if σ = .body 0 then (Declaration.ofLine? line).toList else []) ++
      declaredAtOne className (σ.enter className line) rest

theorem reads_opened (cs : Text) (σ : Spot) (h : σ.opened = true) :
    (cs.foldl Spot.read σ).opened = true := by
  induction cs generalizing σ with
  | nil => exact h
  | cons c cs ih =>
    refine ih (σ.read c) ?_
    cases σ with
    | outside => cases h
    | heading => cases h
    | body blocks =>
      rw [Spot.read]
      cases nesting '\x7b' '\x7d' blocks c <;> rfl
    | ended => rfl

theorem enter_opened (className : Text) (σ : Spot) (text : Text) (h : σ.opened = true) :
    σ.enter className text = σ.line text := by
  cases σ with
  | outside => cases h
  | heading => cases h
  | body blocks => simp [Spot.enter]
  | ended => simp [Spot.enter]

theorem lines_opened (className : Text) (lines : List Text) (σ : Spot) (h : σ.opened = true) :
    (lines.foldl (Spot.enter className) σ).opened = true := by
  induction lines generalizing σ with
  | nil => exact h
  | cons line rest ih =>
    refine ih _ ?_
    rw [enter_opened className σ line h]
    exact reads_opened _ σ h

theorem read_unopened (σ : Spot) (c : Char) (h : σ.opened = false) (hc : c ≠ '\x7b') :
    (σ.read c).opened = false := by
  cases σ with
  | outside => rfl
  | heading =>
    simp only [Spot.read, if_neg hc]
    split <;> rfl
  | body blocks => cases h
  | ended => cases h

theorem reads_unopened (cs : Text) (σ : Spot) (h : σ.opened = false) (hc : ∀ c ∈ cs, c ≠ '\x7b') :
    (cs.foldl Spot.read σ).opened = false := by
  induction cs generalizing σ with
  | nil => exact h
  | cons c cs ih =>
    exact ih (σ.read c) (read_unopened σ c h (hc c (by simp))) (fun d hd => hc d (by simp [hd]))

theorem enter_unopened (className : Text) (σ : Spot) (text : Text) (h : σ.opened = false)
    (hb : '\x7b' ∉ text) : (σ.enter className text).opened = false := by
  have hbare : ∀ c ∈ Quoting.code.bare text, c ≠ '\x7b' := by
    rintro c hc rfl
    exact hb (bare_mem _ _ _ hc)
  rw [Spot.enter]
  split
  · exact reads_unopened _ .heading rfl hbare
  · exact reads_unopened _ σ h hbare

theorem lines_unopened (className : Text) (lines : List Text) (σ : Spot) (h : σ.opened = false)
    (hb : ∀ line ∈ lines, '\x7b' ∉ line) :
    (lines.foldl (Spot.enter className) σ).opened = false := by
  induction lines generalizing σ with
  | nil => exact h
  | cons line rest ih =>
    exact ih _ (enter_unopened className σ line h (hb line (by simp)))
      (fun l hl => hb l (by simp [hl]))

theorem reads_outside (cs : Text) : cs.foldl Spot.read .outside = .outside := by
  induction cs with
  | nil => rfl
  | cons c cs ih => exact ih

theorem reads_ended (cs : Text) : cs.foldl Spot.read .ended = .ended := by
  induction cs with
  | nil => rfl
  | cons c cs ih => exact ih

theorem body_cases (blocks : Nat) (c : Char) :
    (Spot.body blocks).read c = .ended ∨
      ∃ next, (Spot.body blocks).read c = .body next ∧ (next : Int) = blocks + braceWeight c := by
  rw [Spot.read]
  cases hnext : nesting '\x7b' '\x7d' blocks c with
  | none => exact Or.inl rfl
  | some next =>
    have hweight := nesting_weight blocks next c hnext
    exact Or.inr ⟨next, rfl, by omega⟩

theorem reads_body (cs : Text) (blocks : Nat) :
    cs.foldl Spot.read (.body blocks) = .ended ∨
      ∃ next, cs.foldl Spot.read (.body blocks) = .body next ∧
        (next : Int) = blocks + netBraces cs := by
  induction cs generalizing blocks with
  | nil => exact Or.inr ⟨blocks, rfl, by simp [netBraces]⟩
  | cons c cs ih =>
    rw [List.foldl_cons, netBraces]
    rcases body_cases blocks c with hended | ⟨next, hread, hnext⟩
    · rw [hended, reads_ended]
      exact Or.inl rfl
    · rw [hread]
      rcases ih next with hended | ⟨last, hlast, hcount⟩
      · exact Or.inl hended
      · exact Or.inr ⟨last, hlast, by omega⟩

theorem line_cases (blocks : Nat) (text : Text) :
    (Spot.body blocks).line text = .ended ∨
      ∃ next, (Spot.body blocks).line text = .body next ∧
        (next : Int) = blocks + braceDelta text := by
  rw [Spot.line, braceDelta, delta_bare]
  exact reads_body _ blocks

theorem reads_heading (cs : Text) (blocks : Nat) (h : cs.foldl Spot.read .heading = .body blocks) :
    netBraces cs = blocks + 1 := by
  induction cs with
  | nil => cases h
  | cons c cs ih =>
    rw [List.foldl_cons] at h
    by_cases hopen : c = '\x7b'
    · subst hopen
      rcases reads_body cs 0 with hended | ⟨next, hread, hnext⟩
      · rw [show Spot.heading.read '\x7b' = .body 0 from rfl, hended] at h
        cases h
      · rw [show Spot.heading.read '\x7b' = .body 0 from rfl, hread] at h
        obtain rfl := Spot.body.inj h
        change (1 : Int) + netBraces cs = _
        omega
    · by_cases hend : c = '\x7d' ∨ c = ';'
      · have hread : Spot.heading.read c = .outside := by simp [Spot.read, hopen, hend]
        rw [hread, reads_outside] at h
        cases h
      · have hread : Spot.heading.read c = .heading := by simp [Spot.read, hopen, hend]
        rw [hread] at h
        have hclose : c ≠ '\x7d' := fun hc => hend (Or.inl hc)
        rw [netBraces, ih h]
        simp [braceWeight, hopen, hclose]

/-- The line that opens the body leaves as many braces open as its net count says. -/
theorem opening_level (className : Text) (σ : Spot) (text : Text) (blocks : Nat)
    (hσ : σ.opened = false) (h : σ.enter className text = .body blocks) :
    braceDelta text = blocks + 1 := by
  have hline : Spot.heading.line text = .body blocks := by
    rw [Spot.enter] at h
    split at h
    · exact h
    · cases σ with
      | outside =>
        rw [Spot.line, reads_outside] at h
        cases h
      | heading => exact h
      | body blocks => cases hσ
      | ended => cases hσ
  rw [braceDelta, delta_bare]
  exact reads_heading _ blocks hline

structure Early (className : Text) (lines : List Text) : Prop where
  unnamed : ∀ line ∈ lines, opensClass className line = false
  outside : lines.foldl (Spot.enter className) .outside = .outside

/-- Lines up to the one that opens the class body, and how many blocks are
open behind it. The line that names the class opens the body by its last
character, the only brace that it leaves open; or it leaves that to a later
line, the first one with an opening brace. -/
inductive Opening (className : Text) : List Text → Nat → Prop
  | named (early : List Text) (first : Text) (before : Early className early)
      (names : opensClass className first = true) (ends : first.endsWithChar '\x7b' = true)
      (opens : Spot.outside.enter className first = .body 0) :
      Opening className (early ++ [first]) 0
  | later (early : List Text) (first : Text) (between : List Text) (last : Text) (blocks : Nat)
      (before : Early className early) (names : opensClass className first = true)
      (ends : first.endsWithChar '\x7b' = false)
      (unopened : (Spot.outside.enter className first).opened = false)
      (braceless : ∀ line ∈ between, '\x7b' ∉ line)
      (opens : ((first :: between).foldl (Spot.enter className) .outside).enter className last =
        .body blocks) :
      Opening className (early ++ (first :: between) ++ [last]) blocks

theorem opening_brace (className : Text) (σ : Spot) (text : Text) (blocks : Nat)
    (hσ : σ.opened = false) (h : σ.enter className text = .body blocks) : '\x7b' ∈ text := by
  refine Decidable.byContradiction (fun hb => ?_)
  have hunopened := enter_unopened className σ text hσ hb
  rw [h] at hunopened
  cases hunopened

theorem declarations_early (className : Text) (early rest : List Text)
    (h : ∀ line ∈ early, opensClass className line = false) :
    declarations className (early ++ rest) = declarations className rest := by
  induction early with
  | nil => rfl
  | cons line early ih =>
    rw [List.cons_append, declarations, h line (by simp)]
    exact ih (fun l hl => h l (by simp [hl]))

theorem awaiting_opened (lines : List Text) (last : Text) (rest : List Text)
    (h : ∀ line ∈ lines, '\x7b' ∉ line) (hlast : '\x7b' ∈ last) :
    declarationsAwaitingBrace (lines ++ last :: rest) =
      bodyDeclarations (max (braceDelta last) 1) rest := by
  induction lines with
  | nil =>
    rw [List.nil_append, declarationsAwaitingBrace, List.contains_iff_mem.mpr hlast, if_pos rfl]
  | cons line lines ih =>
    have hline : line.contains '\x7b' = false := by simpa using h line (by simp)
    rw [List.cons_append, declarationsAwaitingBrace, hline]
    exact ih (fun l hl => h l (by simp [hl]))

theorem declaredAtOne_early (className : Text) (lines rest : List Text) (σ : Spot)
    (h : (lines.foldl (Spot.enter className) σ).opened = false) :
    declaredAtOne className σ (lines ++ rest) =
      declaredAtOne className (lines.foldl (Spot.enter className) σ) rest := by
  induction lines generalizing σ with
  | nil => rfl
  | cons line lines ih =>
    have hσ : σ ≠ .body 0 := by
      rintro rfl
      have hopened := lines_opened className (line :: lines) (.body 0) rfl
      rw [h] at hopened
      cases hopened
    rw [List.cons_append, declaredAtOne, if_neg hσ]
    exact ih _ h

theorem declaredAtOne_opened (className : Text) (front rest : List Text) (last : Text)
    (blocks : Nat) (hfront : (front.foldl (Spot.enter className) .outside).opened = false)
    (hopens : (front.foldl (Spot.enter className) .outside).enter className last = .body blocks) :
    declaredAtOne className .outside (front ++ [last] ++ rest) =
      declaredAtOne className (.body blocks) rest := by
  have hne : front.foldl (Spot.enter className) .outside ≠ .body 0 := by
    intro hbody
    rw [hbody] at hfront
    cases hfront
  rw [List.append_assoc, declaredAtOne_early className _ _ _ hfront, List.singleton_append,
    declaredAtOne, if_neg hne, hopens]
  rfl

section Opened

variable {className : Text} {shown : List Text} {blocks : Nat}
variable (h : Opening className shown blocks)
include h

theorem Opening.declarations_body (rest : List Text) :
    declarations className (shown ++ rest) = bodyDeclarations (Spot.body blocks).level rest := by
  cases h with
  | named early first before names ends opens =>
    rw [List.append_assoc, declarations_early className early _ before.unnamed,
      List.singleton_append, declarations, names, ends]
    rfl
  | later early first between last blocks before names ends unopened braceless opens =>
    have hunopened := lines_unopened className between _ unopened braceless
    have hdelta := opening_level className _ last blocks hunopened opens
    have hbrace := opening_brace className _ last blocks hunopened opens
    have hmax : max (braceDelta last) 1 = (Spot.body blocks).level := by
      rw [hdelta, Spot.level]
      omega
    rw [List.append_assoc, List.append_assoc, declarations_early className early _ before.unnamed,
      List.cons_append, declarations, names, ends, ← hmax]
    exact awaiting_opened between last rest braceless hbrace

theorem Opening.declared_body (rest : List Text) :
    declaredAtOne className .outside (shown ++ rest) =
      declaredAtOne className (.body blocks) rest := by
  cases h with
  | named early first before names ends opens =>
    exact declaredAtOne_opened className early rest first 0 (by rw [before.outside]; rfl)
      (by rw [before.outside]; exact opens)
  | later early first between last blocks before names ends unopened braceless opens =>
    refine declaredAtOne_opened className _ rest last blocks ?_ ?_
    · rw [List.foldl_append, before.outside]
      exact lines_unopened className between _ unopened braceless
    · rw [List.foldl_append, before.outside]
      exact opens

end Opened

/-- Whether on the line on which the body is left all other braces are closed
at the end. -/
def leftForGood : Spot → List Text → Bool
  | .ended, _ => true
  | _, [] => true
  | σ, line :: rest =>
    (σ.line line != .ended || decide (σ.level + braceDelta line ≤ 0)) &&
      leftForGood (σ.line line) rest

theorem body_level (blocks : Nat) : ¬ (Spot.body blocks).level ≤ 0 := by
  rw [Spot.level]
  omega

theorem level_one (blocks : Nat) : (Spot.body blocks).level = 1 ↔ Spot.body blocks = .body 0 := by
  simp only [Spot.level, Spot.body.injEq]
  omega

theorem body_next (blocks : Nat) (line : Text) (rest : List Text)
    (h : leftForGood (.body blocks) (line :: rest) = true) :
    ((Spot.body blocks).line line = .ended ∧ (Spot.body blocks).level + braceDelta line ≤ 0) ∨
      ∃ next, (Spot.body blocks).line line = .body next ∧
        (Spot.body blocks).level + braceDelta line = (Spot.body next).level ∧
        leftForGood (.body next) rest = true := by
  obtain ⟨hleft, hrest⟩ := Bool.and_eq_true_iff.mp h
  rcases line_cases blocks line with hended | ⟨next, hnext, hcount⟩
  · exact Or.inl ⟨hended, by simpa [hended] using hleft⟩
  · refine Or.inr ⟨next, hnext, ?_, hnext ▸ hrest⟩
    simp only [Spot.level]
    omega

theorem declaredAtOne_ended (className : Text) (lines : List Text) :
    declaredAtOne className .ended lines = [] := by
  induction lines with
  | nil => rfl
  | cons line rest ih =>
    rw [declaredAtOne, enter_opened className .ended line rfl, Spot.line, reads_ended, ih]
    rfl

/-- In the body the scan keeps step with the reading, and takes no line behind
it for one of the body, if the body is left for good. -/
theorem body_at_one (className : Text) (lines : List Text) (blocks : Nat)
    (h : leftForGood (.body blocks) lines = true) :
    bodyDeclarations (Spot.body blocks).level lines =
      declaredAtOne className (.body blocks) lines := by
  induction lines generalizing blocks with
  | nil => rfl
  | cons line rest ih =>
    rw [bodyDeclarations, declaredAtOne, enter_opened className (.body blocks) line rfl]
    simp only [level_one]
    rcases body_next blocks line rest h with ⟨hended, hclosed⟩ | ⟨next, hnext, hlevel, hrest⟩
    · rw [if_pos hclosed, hended, declaredAtOne_ended, List.append_nil]
    · rw [hlevel, if_neg (body_level next), hnext, ih next hrest]

end ParameterManual.MemberTable
