import ParameterManual.Proofs.Constructor.Ranges
import ParameterManual.Proofs.Constructor.Site

/-!
# The body that statements are collected from

The scan goes by one net count of braces for each line, and enters at any
line with a brace from the constructor on. A line that it takes for one of
the body is one if the constructor's own body opens before it and is not left
in between, which a net count does not show.
-/

set_option autoImplicit false

namespace ParameterManual.Constructor
open Source

/-- Where a reading of the constructor of a class stands at the start of a
line. It begins with the line that names the constructor. -/
def siteAt (className : Text) (lines : List Text) (number : Nat) : Site :=
  ((lines.take (number - 1)).dropWhile (fun line => !opensConstructor className line)).foldl
    Site.line Site.start

/-- Whether a line starts inside the body of the constructor of a class. -/
def InOwnBody (className : Text) (lines : List Text) (number : Nat) : Prop :=
  (siteAt className lines number).isBody = true

instance (className : Text) (lines : List Text) : DecidablePred (InOwnBody className lines) :=
  fun _ => inferInstanceAs (Decidable (_ = true))

def BodyOpens (className : Text) (lines : List Text) (number : Nat) : Prop :=
  ¬ InOwnBody className lines number ∧ InOwnBody className lines (number + 1)

def netLines : List Text → Int
  | [] => 0
  | line :: rest => braceDelta line + netLines rest

def Entry.depthAt (e : Entry) (number : Nat) : Int :=
  e.depth + netLines (e.lines.take (number - e.number))

/-- A reading that no brace has been open in. -/
def Unopened (σ : Site) : Prop := σ = .ended ∨ ∃ part parens last, σ = .heading part parens 0 last

theorem unopened_level (σ : Site) (h : Unopened σ) : σ.level = 0 := by
  rcases h with rfl | ⟨part, parens, last, rfl⟩ <;> rfl

theorem unopened_body (σ : Site) (h : Unopened σ) : ¬ σ.isBody = true := by
  rcases h with rfl | ⟨part, parens, last, rfl⟩ <;> simp [Site.isBody]

theorem read_unopened (σ : Site) (c : Char) (h : Unopened σ) (hc : c ≠ '\x7b') :
    Unopened (σ.read c) := by
  rcases h with rfl | ⟨part, parens, last, rfl⟩
  · exact Or.inl rfl
  · rw [Site.read, if_neg hc]
    split
    · exact Or.inl rfl
    · split
      · exact Or.inl rfl
      · exact Or.inr ⟨_, _, _, rfl⟩

theorem reads_unopened (cs : Text) (σ : Site) (h : Unopened σ) (hc : ∀ c ∈ cs, c ≠ '\x7b') :
    Unopened (cs.foldl Site.read σ) := by
  induction cs generalizing σ with
  | nil => exact h
  | cons c cs ih =>
    have hread := read_unopened σ c h (hc c (by simp))
    exact ih (σ.read c) hread (fun d hd => hc d (by simp [hd]))

theorem line_unopened (σ : Site) (line : Text) (h : Unopened σ) (hl : '\x7b' ∉ line) :
    Unopened (σ.line line) := by
  apply reads_unopened _ σ h
  rintro c hc rfl
  exact hl (bare_mem _ _ _ hc)

theorem lines_unopened (lines : List Text) (σ : Site) (h : Unopened σ)
    (hl : ∀ line ∈ lines, '\x7b' ∉ line) : Unopened (lines.foldl Site.line σ) := by
  induction lines generalizing σ with
  | nil => exact h
  | cons line rest ih =>
    exact ih (σ.line line) (line_unopened σ line h (hl line (by simp)))
      (fun l hm => hl l (by simp [hm]))

/-- Lines, the first with a number, up to the body that is entered: those
before the constructor, those from its name on that hold no brace, and the
one that does. -/
structure Approach (className : Text) (first : Nat) (lines : List Text) (e : Entry)
    (early heading : List Text) (last : Text) : Prop where
  split : lines = early ++ (heading ++ last :: e.lines)
  number : e.number = first + early.length + heading.length + 1
  unnamed : ∀ line ∈ early, opensConstructor className line = false
  named : ∃ opener more, heading ++ [last] = opener :: more ∧
    opensConstructor className opener = true
  braceless : ∀ line ∈ heading, '\x7b' ∉ line
  delta : braceDelta last = e.depth
  positive : 0 < e.depth

theorem awaiting_approach (first : Nat) (lines : List Text) (e : Entry)
    (h : entryAwaiting first lines = some e) :
    ∃ heading last, lines = heading ++ last :: e.lines ∧ e.number = first + heading.length + 1 ∧
      (∀ line ∈ heading, '\x7b' ∉ line) ∧ braceDelta last = e.depth ∧ 0 < e.depth := by
  induction lines generalizing first with
  | nil => cases h
  | cons line rest ih =>
    by_cases hb : '\x7b' ∈ line
    · by_cases hd : 0 < braceDelta line
      · simp only [entryAwaiting, List.contains_eq_mem, hb, hd, decide_true, if_true,
          Option.some.injEq] at h
        subst h
        exact ⟨[], line, rfl, rfl, by simp, rfl, hd⟩
      · simp [entryAwaiting, hb, hd] at h
    · have hr : entryAwaiting (first + 1) rest = some e := by simpa [entryAwaiting, hb] using h
      obtain ⟨heading, last, rfl, hn, hbraceless, hdelta⟩ := ih (first + 1) hr
      refine ⟨line :: heading, last, rfl, ?_, List.forall_mem_cons.mpr ⟨hb, hbraceless⟩, hdelta⟩
      rw [hn, List.length_cons]
      omega

theorem from_approach (className : Text) (first : Nat) (lines : List Text) (e : Entry)
    (h : entryFrom className first lines = some e) :
    ∃ early heading last, Approach className first lines e early heading last := by
  induction lines generalizing first with
  | nil => cases h
  | cons line rest ih =>
    by_cases ho : opensConstructor className line = true
    · have ha : entryAwaiting first (line :: rest) = some e := by simpa [entryFrom, ho] using h
      obtain ⟨heading, last, hlines, hn, hbraceless, hdelta, hpos⟩ := awaiting_approach _ _ _ ha
      have hnamed : ∃ opener more, heading ++ [last] = opener :: more ∧
          opensConstructor className opener = true := by
        cases heading with
        | nil => exact ⟨last, [], rfl, (List.cons.inj hlines).1 ▸ ho⟩
        | cons opener more => exact ⟨opener, more ++ [last], rfl, (List.cons.inj hlines).1 ▸ ho⟩
      exact ⟨[], heading, last, hlines, hn, by simp, hnamed, hbraceless, hdelta, hpos⟩
    · have hr : entryFrom className (first + 1) rest = some e := by simpa [entryFrom, ho] using h
      obtain ⟨early, heading, last, ⟨rfl, hn, hunnamed, hnamed, hbraceless, hdelta, hpos⟩⟩ :=
        ih (first + 1) hr
      have hline : ∀ l ∈ line :: early, opensConstructor className l = false :=
        List.forall_mem_cons.mpr ⟨Bool.eq_false_iff.mpr ho, hunnamed⟩
      have hnumber : e.number = first + (line :: early).length + heading.length + 1 := by
        rw [hn, List.length_cons]
        omega
      exact ⟨line :: early, heading, last, rfl, hnumber, hline, hnamed, hbraceless, hdelta, hpos⟩

theorem siteAt_early (className : Text) (early rest : List Text) (number : Nat)
    (h : ∀ line ∈ early, opensConstructor className line = false) :
    siteAt className (early ++ rest) number =
      ((rest.take (number - 1 - early.length)).dropWhile
        (fun line => !opensConstructor className line)).foldl Site.line Site.start := by
  rw [siteAt, List.take_append, List.dropWhile_append_of_pos]
  intro line hline
  simp [h line (List.mem_of_mem_take hline)]

section Approached

variable {className : Text} {lines : List Text} {e : Entry} {early heading : List Text} {last : Text}

theorem siteAt_entered (h : Approach className 1 lines e early heading last) (number : Nat)
    (hn : e.number ≤ number) :
    siteAt className lines number = (e.lines.take (number - e.number)).foldl Site.line
      ((heading ++ [last]).foldl Site.line Site.start) := by
  obtain ⟨first, more, hfirst, hnamed⟩ := h.named
  have htake : (heading ++ last :: e.lines).take (number - 1 - early.length) =
      first :: (more ++ e.lines.take (number - e.number)) := by
    have hsplit : heading ++ last :: e.lines = (heading ++ [last]) ++ e.lines := by simp
    have hlength : (heading ++ [last]).length = heading.length + 1 := by simp
    have hnumber := h.number
    have hcount : number - 1 - early.length = (heading ++ [last]).length + (number - e.number) := by
      omega
    rw [hsplit, hcount, List.take_length_add_append, hfirst, List.cons_append]
  rw [h.split, siteAt_early className early _ number h.unnamed, htake,
    List.dropWhile_cons_of_neg (by simp [hnamed]), ← List.cons_append, ← hfirst, List.foldl_append]

theorem siteAt_before (h : Approach className 1 lines e early heading last) (number : Nat)
    (hn : number < e.number) : Unopened (siteAt className lines number) := by
  rw [h.split, siteAt_early className early _ number h.unnamed, List.take_append_of_le_length]
  · apply lines_unopened
    · exact Or.inr ⟨.name, 0, ' ', rfl⟩
    · intro line hline
      have hheading := List.mem_of_mem_take ((List.dropWhile_sublist _).subset hline)
      exact h.braceless line hheading
  · have hnumber := h.number
    omega

theorem lines_ended (texts : List Text) : texts.foldl Site.line .ended = .ended := by
  induction texts with
  | nil => rfl
  | cons text texts ih => rw [List.foldl_cons, line_ended, ih]

theorem lines_level (texts : List Text) (σ : Site) (h : texts.foldl Site.line σ ≠ .ended) :
    (texts.foldl Site.line σ).level = σ.level + netLines texts := by
  induction texts generalizing σ with
  | nil => simp [netLines]
  | cons text texts ih =>
    have hfirst : σ.line text ≠ .ended := by
      intro hended
      rw [List.foldl_cons, hended, lines_ended] at h
      exact h rfl
    rw [List.foldl_cons] at h ⊢
    rw [ih _ h, line_level σ text hfirst, netLines, Int.add_assoc]

/-- Until the constructor has ended, the braces that are open at the start of
a line are as many as the net counts say. -/
theorem siteAt_level (h : Approach className 1 lines e early heading last) (number : Nat)
    (hn : e.number ≤ number) (hsite : siteAt className lines number ≠ .ended) :
    (siteAt className lines number).level = e.depthAt number := by
  rw [siteAt_entered h number hn] at hsite ⊢
  have hentered : (heading ++ [last]).foldl Site.line Site.start ≠ .ended := by
    intro hended
    rw [hended, lines_ended] at hsite
    exact hsite rfl
  have hstart : Unopened (heading.foldl Site.line Site.start) :=
    lines_unopened heading _ (Or.inr ⟨.name, 0, ' ', rfl⟩) h.braceless
  rw [lines_level _ _ hsite]
  rw [List.foldl_append, List.foldl_cons, List.foldl_nil] at hentered ⊢
  rw [line_level _ last hentered, unopened_level _ hstart, h.delta, Entry.depthAt, Int.zero_add]

theorem siteAt_next (h : Approach className 1 lines e early heading last) (number : Nat)
    (hn : e.number ≤ number) (line : Text) (hline : lines[number - 1]? = some line) :
    siteAt className lines (number + 1) = (siteAt className lines number).line line := by
  have hown : e.lines[number - e.number]? = some line := by
    have hsplit : lines = (early ++ heading ++ [last]) ++ e.lines := by simp [h.split]
    have hnumber := h.number
    have hlength : (early ++ heading ++ [last]).length = e.number - 1 := by
      simp only [List.length_append, List.length_singleton]
      omega
    rw [hsplit, List.getElem?_append_right (by omega), hlength] at hline
    rw [← hline]
    congr 1
    omega
  rw [siteAt_entered h (number + 1) (by omega), siteAt_entered h number hn,
    Nat.sub_add_comm hn, List.take_add_one, hown]
  simp

theorem body_next (h : Approach className 1 lines e early heading last) (number : Nat)
    (hn : e.number ≤ number) (hb : InOwnBody className lines number) :
    InOwnBody className lines (number + 1) ↔
      ∀ line, lines[number - 1]? = some line → StaysOpen (e.depthAt number) line := by
  obtain ⟨blocks, hsite⟩ : ∃ blocks, siteAt className lines number = .body blocks := by
    rw [InOwnBody] at hb
    cases hs : siteAt className lines number with
    | body blocks => exact ⟨blocks, rfl⟩
    | heading part parens braces last => simp [hs, Site.isBody] at hb
    | ended => simp [hs, Site.isBody] at hb
  have hlevel := siteAt_level h number hn (by simp [hsite])
  rw [hsite] at hlevel
  cases hline : lines[number - 1]? with
  | none =>
    have hlength := List.getElem?_eq_none_iff.mp hline
    have hsame : siteAt className lines (number + 1) = siteAt className lines number := by
      rw [siteAt, siteAt, List.take_of_length_le hlength, List.take_of_length_le (by omega)]
    rw [InOwnBody, hsame]
    exact iff_of_true hb (by simp)
  | some line =>
    rw [InOwnBody, siteAt_next h number hn line hline, hsite, line_body, hlevel]
    simp

end Approached

/-- No line between two lets the braces that are open before it all close. -/
def KeptOpen (lines : List Text) (e : Entry) (first number : Nat) : Prop :=
  ∀ between, first < between → between < number →
    ∀ line, lines[between - 1]? = some line → StaysOpen (e.depthAt between) line

/-- A line is in the constructor's own body if and only if the body opens on a
line before it, that of the entrance or a later one, and is kept open since. -/
theorem own_body_iff (className : Text) (lines : List Text) (e : Entry)
    (he : entrance? className lines = some e) (number : Nat) :
    InOwnBody className lines number ↔
      ∃ first, e.number ≤ first + 1 ∧ first < number ∧ BodyOpens className lines first ∧
        KeptOpen lines e first number := by
  obtain ⟨early, heading, last, h⟩ := from_approach className 1 lines e he
  constructor
  · intro hb
    induction number with
    | zero =>
      have hpos := h.number
      exact absurd hb (unopened_body _ (siteAt_before h 0 (by omega)))
    | succ number ih =>
      have hentered : e.number ≤ number + 1 := by
        by_contra hearly
        exact unopened_body _ (siteAt_before h (number + 1) (by omega)) hb
      by_cases hbefore : InOwnBody className lines number
      · obtain ⟨first, hfirst, hlt, hopens, hkept⟩ := ih hbefore
        have hstays := (body_next h number (by omega) hbefore).mp hb
        refine ⟨first, hfirst, by omega, hopens, ?_⟩
        intro between hlow hhigh line hline
        by_cases hlast : between = number
        · subst hlast
          exact hstays line hline
        · exact hkept between hlow (by omega) line hline
      · exact ⟨number, hentered, by omega, ⟨hbefore, hb⟩, fun between hlow hhigh => by omega⟩
  · rintro ⟨first, hfirst, hlt, hopens, hkept⟩
    -- the body goes on line by line
    have hall : ∀ n, first + 1 ≤ n → n ≤ number → InOwnBody className lines n := by
      intro n hlow
      induction n, hlow using Nat.le_induction with
      | base => exact fun _ => hopens.2
      | succ n hlow ih =>
        intro hhigh
        have hbody := ih (by omega)
        exact (body_next h n (by omega) hbody).mpr (hkept n (by omega) (by omega))
    exact hall number hlt (Nat.le_refl number)

theorem body_depth (depth : Int) (lines : List Text) (hd : 0 < depth) (i : Nat)
    (hi : i < (bodyLines depth lines).length) : 0 < depth + netLines (lines.take i) := by
  induction lines generalizing depth i with
  | nil => simp [bodyLines] at hi
  | cons line rest ih =>
    cases i with
    | zero => simpa [netLines] using hd
    | succ i =>
      by_cases hnext : 0 < depth + braceDelta line
      · have hrest := ih (depth + braceDelta line) hnext i (by simpa [bodyLines, hnext] using hi)
        simpa [netLines, Int.add_assoc] using hrest
      · simp [bodyLines, hnext] at hi

/-- A collected statement starts where the net counts of the lines are inside
braces. It starts in the constructor's own body if and only if that body
opened before it and was kept open since. -/
theorem collected_in_body (className file content : Text) (list : List Collected)
    (h : collect className file content = .ok (some list)) :
    ∀ s ∈ list, ∃ e, entrance? className (codeLines content) = some e ∧
      e.number ≤ s.location.line ∧ 0 < e.depthAt s.location.line ∧
      (InOwnBody className (codeLines content) s.location.line ↔
        ∃ first, e.number ≤ first + 1 ∧ first < s.location.line ∧
          BodyOpens className (codeLines content) first ∧
          KeptOpen (codeLines content) e first s.location.line) := by
  intro s hs
  obtain ⟨e, he, rfl⟩ := collect_gathered className file content list h (List.ne_nil_of_mem hs)
  obtain ⟨early, heading, last, happroach⟩ := from_approach className 1 (codeLines content) e he
  obtain ⟨before, beyond, -, hn⟩ := entry_split className (codeLines content) e he
  have hlaid := gathered_laidOut file before e.body [] none (by simp)
  rw [← hn] at hlaid
  have hfirst : e.number ≤ s.location.line := by
    have := hlaid.first_le s hs
    rw [firstLine] at this
    omega
  obtain ⟨count, hspans⟩ := hlaid.spans s hs
  have hinside : s.location.line - e.number < e.body.length := by
    have hbound := hspans.inside
    have hpos := hspans.count_pos
    have hline := hspans.number_pos
    rw [List.append_nil, List.length_append] at hbound
    omega
  have hdepth := body_depth e.depth e.lines happroach.positive _ hinside
  exact ⟨e, he, hfirst, hdepth, own_body_iff className (codeLines content) e he _⟩

def bracedHeading : Text :=
  "A::A(int n)\n  : b_\x7bn\x7d \x7b\n  RegisterAsEstimable(PARAM_B, &b_);\n\x7d\n".toList

theorem collected_in_body_braced :
    collect "A".toList "A.cpp".toList bracedHeading =
        .ok (some [⟨"RegisterAsEstimable(PARAM_B, &b_);".toList, ⟨"A.cpp".toList, 3⟩⟩]) ∧
      ∃ e, entrance? "A".toList (codeLines bracedHeading) = some e ∧ 0 < e.depthAt 3 ∧
        ∃ first, e.number ≤ first + 1 ∧ first < 3 ∧
          BodyOpens "A".toList (codeLines bracedHeading) first ∧
          KeptOpen (codeLines bracedHeading) e first 3 := by
  have hcollect : collect "A".toList "A.cpp".toList bracedHeading =
      .ok (some [⟨"RegisterAsEstimable(PARAM_B, &b_);".toList, ⟨"A.cpp".toList, 3⟩⟩]) := rfl
  have hbody : InOwnBody "A".toList (codeLines bracedHeading) 3 := by decide
  obtain ⟨e, he, -, hdepth, hiff⟩ := collected_in_body _ _ _ _ hcollect _ (List.mem_singleton_self _)
  exact ⟨hcollect, e, he, hdepth, hiff.mp hbody⟩

def defaultedConstructor : Text :=
  "A::A() = default;\nvoid A::DoBuild() \x7b\n  RegisterAsEstimable(PARAM_B, &b_);\n\x7d\n".toList

/-- The statement of the other function is collected. -/
theorem defaulted_body_collected :
    ¬ ∀ list, collect "A".toList "A.cpp".toList defaultedConstructor = .ok (some list) →
      ∀ s ∈ list, InOwnBody "A".toList (codeLines defaultedConstructor) s.location.line := by
  intro h
  have hline := h [⟨"RegisterAsEstimable(PARAM_B, &b_);".toList, ⟨"A.cpp".toList, 3⟩⟩] rfl _
    (List.mem_singleton_self _)
  exact absurd hline (by decide)

def closingLine : Text :=
  "A::A() \x7b\n\x7d void A::DoBuild() \x7b\n  RegisterAsEstimable(PARAM_B, &b_);\n\x7d\n".toList

example : collect "A".toList "A.cpp".toList closingLine =
      .ok (some [⟨"RegisterAsEstimable(PARAM_B, &b_);".toList, ⟨"A.cpp".toList, 3⟩⟩]) ∧
    ¬ InOwnBody "A".toList (codeLines closingLine) 3 := ⟨rfl, by decide⟩

end ParameterManual.Constructor
