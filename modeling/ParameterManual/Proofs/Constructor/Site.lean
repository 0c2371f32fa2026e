import ParameterManual.Constructor.Body
import ParameterManual.Proofs.Source.Scanning

/-!
# Where a reading of a constructor stands

A constructor is read one character at a time, outside literals: its name,
its signature, its initializers, its body. A brace opens the body unless it
is nested or holds the value of a member. A semicolon before the body ends
the constructor, and so does the brace that closes the body.
-/

set_option autoImplicit false

namespace ParameterManual.Constructor
open Source

/-- The parts of a constructor before its body. -/
inductive Part where
  | name
  | signature
  | initializers
  deriving DecidableEq, Repr

/-- Before the body a reading stands inside some parentheses and some braces,
behind the last character that was no blank; in the body, inside some blocks. -/
inductive Site where
  | heading (part : Part) (parens braces : Nat) (last : Char)
  | body (blocks : Nat)
  | ended
  deriving DecidableEq, Repr

def Part.after (part : Part) (c : Char) : Part :=
  match part with
  | .name => if c = '(' then .signature else .name
  | .signature => if c = ':' then .initializers else .signature
  | .initializers => .initializers

def parensAfter (parens : Nat) (c : Char) : Nat :=
  if c = '(' then parens + 1 else if c = ')' then parens - 1 else parens

/-- Whether a brace behind a character holds the value of a member or a base:
it follows the name, or the angle that closes the arguments of a template. -/
def Part.holdsValue (part : Part) (last : Char) : Bool :=
  part == .initializers && (Text.isNameChar last || last == '>')

namespace Site

def start : Site := .heading .name 0 0 ' '

def read : Site → Char → Site
  | .ended, _ => .ended
  | .body blocks, c =>
    if c = '\x7b' then .body (blocks + 1)
    else if c = '\x7d' then if blocks = 0 then .ended else .body (blocks - 1)
    else .body blocks
  | .heading part parens braces last, c =>
    if c = '\x7b' then
      if parens = 0 ∧ braces = 0 ∧ part.holdsValue last = false then .body 0
      else .heading part parens (braces + 1) c
    else if c = '\x7d' then
      if braces = 0 then .ended else .heading part parens (braces - 1) c
    else if c = ';' ∧ parens = 0 ∧ braces = 0 then .ended
    else
      .heading (if parens = 0 ∧ braces = 0 then part.after c else part) (parensAfter parens c) braces
        (if Text.isBlank c then last else c)

def line (σ : Site) (text : Text) : Site := (Quoting.code.bare text).foldl read σ

def isBody : Site → Bool
  | .body _ => true
  | _ => false

/-- How many braces are open. -/
def level : Site → Int
  | .heading _ _ braces _ => braces
  | .body blocks => blocks + 1
  | .ended => 0

end Site

example : (Site.start.line "A::A(int n = f(), B b = \x7b\x7d) : Base<int>\x7bn\x7d, c_\x7b'\x7b'\x7d \x7b".toList) =
    .body 0 := rfl

example : (Site.start.line "A::A() = default; void f() \x7b".toList) = .ended := rfl

def netBraces : Text → Int
  | [] => 0
  | c :: bare => braceWeight c + netBraces bare

theorem delta_bare (s : Quoting) (text : Text) : braceDeltaFrom s text = netBraces (s.bare text) := by
  induction text generalizing s with
  | nil => rfl
  | cons c text ih =>
    rw [braceDeltaFrom, bare_cons, ih (s.next c)]
    by_cases hc : s.covers c = true
    · simp [hc]
    · simp [hc, netBraces]

theorem reads_ended (cs : Text) : cs.foldl Site.read .ended = .ended := by
  induction cs with
  | nil => rfl
  | cons c cs ih => exact ih

theorem line_ended (text : Text) : Site.ended.line text = .ended := reads_ended _

theorem read_level (σ : Site) (c : Char) (h : σ.read c ≠ .ended) :
    (σ.read c).level = σ.level + braceWeight c := by
  by_cases hopen : c = '\x7b'
  · subst hopen
    cases σ with
    | ended => exact absurd rfl h
    | body blocks => simp [Site.read, Site.level, braceWeight]
    | heading part parens braces last =>
      by_cases hbody : parens = 0 ∧ braces = 0 ∧ part.holdsValue last = false
      · simp [Site.read, Site.level, braceWeight, hbody]
      · simp [Site.read, Site.level, braceWeight, hbody]
  · by_cases hclose : c = '\x7d'
    · subst hclose
      cases σ with
      | ended => exact absurd rfl h
      | body blocks =>
        by_cases hb : blocks = 0
        · simp [Site.read, hb] at h
        · simp [Site.read, Site.level, braceWeight, hb]
          omega
      | heading part parens braces last =>
        by_cases hb : braces = 0
        · simp [Site.read, hb] at h
        · simp [Site.read, Site.level, braceWeight, hb]
          omega
    · cases σ with
      | ended => exact absurd rfl h
      | body blocks => simp [Site.read, Site.level, braceWeight, hopen, hclose]
      | heading part parens braces last =>
        by_cases hend : c = ';' ∧ parens = 0 ∧ braces = 0
        · simp [Site.read, hend] at h
        · simp [Site.read, Site.level, braceWeight, hopen, hclose, hend]

theorem reads_level (cs : Text) (σ : Site) (h : cs.foldl Site.read σ ≠ .ended) :
    (cs.foldl Site.read σ).level = σ.level + netBraces cs := by
  induction cs generalizing σ with
  | nil => simp [netBraces]
  | cons c cs ih =>
    have hfirst : σ.read c ≠ .ended := by
      intro hended
      rw [List.foldl_cons, hended, reads_ended] at h
      exact h rfl
    rw [List.foldl_cons] at h ⊢
    rw [ih _ h, read_level σ c hfirst, netBraces, Int.add_assoc]

theorem line_level (σ : Site) (text : Text) (h : σ.line text ≠ .ended) :
    (σ.line text).level = σ.level + braceDelta text := by
  rw [braceDelta, delta_bare]
  exact reads_level _ σ h

/-- Whether the braces that are open at the start of a line are never all
closed on it, not even for a moment. -/
def StaysOpen (depth : Int) (text : Text) : Prop :=
  ∀ front, front <+: Quoting.code.bare text → depth + netBraces front ≠ 0

theorem front_cons (depth : Int) (c : Char) (cs : Text) :
    (∀ front, front <+: c :: cs → depth + netBraces front ≠ 0) ↔
      depth ≠ 0 ∧ ∀ front, front <+: cs → depth + braceWeight c + netBraces front ≠ 0 := by
  constructor
  · intro h
    constructor
    · simpa [netBraces] using h [] List.nil_prefix
    · intro front hfront
      have hopen := h (c :: front) (List.cons_prefix_cons.mpr ⟨rfl, hfront⟩)
      rwa [netBraces, ← Int.add_assoc] at hopen
  · rintro ⟨hd, hrest⟩ front hfront
    rcases List.prefix_cons_iff.mp hfront with rfl | ⟨more, rfl, hmore⟩
    · simpa [netBraces] using hd
    · rw [netBraces, ← Int.add_assoc]
      exact hrest more hmore

theorem body_cases (blocks : Nat) (c : Char) :
    ((Site.body blocks).read c = .ended ∧ (Site.body blocks).level + braceWeight c = 0) ∨
      ∃ next, (Site.body blocks).read c = .body next ∧
        (Site.body next).level = (Site.body blocks).level + braceWeight c := by
  by_cases hopen : c = '\x7b'
  · subst hopen
    exact Or.inr ⟨blocks + 1, rfl, by simp [Site.level, braceWeight]⟩
  · by_cases hclose : c = '\x7d'
    · subst hclose
      cases blocks with
      | zero => exact Or.inl ⟨rfl, rfl⟩
      | succ inner =>
        right
        refine ⟨inner, rfl, ?_⟩
        change (inner : Int) + 1 = ((inner + 1 : Nat) : Int) + 1 + -1
        omega
    · have hread : (Site.body blocks).read c = .body blocks := by simp [Site.read, hopen, hclose]
      exact Or.inr ⟨blocks, hread, by simp [braceWeight, hopen, hclose]⟩

theorem reads_body (cs : Text) (blocks : Nat) :
    (cs.foldl Site.read (.body blocks)).isBody = true ↔
      ∀ front, front <+: cs → (Site.body blocks).level + netBraces front ≠ 0 := by
  induction cs generalizing blocks with
  | nil =>
    have hnone : ∀ front : Text, front <+: [] → (Site.body blocks).level + netBraces front ≠ 0 := by
      intro front hfront
      rw [List.prefix_nil.mp hfront, netBraces, Site.level]
      omega
    exact iff_of_true rfl hnone
  | cons c cs ih =>
    rw [front_cons, List.foldl_cons]
    rcases body_cases blocks c with ⟨hended, hzero⟩ | ⟨next, hread, hlevel⟩
    · rw [hended, reads_ended]
      apply iff_of_false (by simp [Site.isBody])
      rintro ⟨-, hrest⟩
      exact hrest [] List.nil_prefix (by simpa [netBraces] using hzero)
    · have hne : (Site.body blocks).level ≠ 0 := by
        rw [Site.level]
        omega
      rw [hread, ih next, hlevel]
      exact (and_iff_right hne).symm

theorem line_body (blocks : Nat) (text : Text) :
    ((Site.body blocks).line text).isBody = true ↔ StaysOpen (Site.body blocks).level text :=
  reads_body _ blocks

end ParameterManual.Constructor
