import ParameterManual.Proofs.Constructor.Body
import ParameterManual.Proofs.Source.Comments

/-!
# Lines between the constructor's name and its body

A line between the one that names the constructor and the one that opens its
body plays no part in what is collected as long as it has no opening brace at
all. A brace that is closed on its line or that stands in a literal ends the
search for the body, and then nothing is collected.
-/

set_option autoImplicit false

namespace ParameterManual.Constructor
open Source

def texts (result : Except Failure (Option (List Collected))) : Option (Option (List Text)) :=
  result.toOption.map (Option.map (List.map Collected.text))

theorem gather_texts (file : Text) (body : List Text) (a b : Option Collected) (m n : Nat)
    (h : a.map Collected.text = b.map Collected.text) :
    (gather file a m body).1.map Collected.text = (gather file b n body).1.map Collected.text ∧
      (gather file a m body).2.map Collected.text = (gather file b n body).2.map Collected.text := by
  induction body generalizing a b m n with
  | nil => exact ⟨rfl, h⟩
  | cons line rest ih =>
    have hc : (continued file m line a).map Collected.text =
        (continued file n line b).map Collected.text := by
      cases a <;> cases b <;> simp_all [continued]
    have hcomplete : (completed file m line a).map Collected.text =
        (completed file n line b).map Collected.text := by
      revert hc
      simp only [completed]
      cases continued file m line a <;> cases continued file n line b <;>
        simp [Collected.isComplete, List.filter]
      intro ht
      rw [ht]
      split <;> simp [ht]
    have hleft : (leftOver file m line a).map Collected.text =
        (leftOver file n line b).map Collected.text := by
      revert hc
      simp only [leftOver]
      cases continued file m line a <;> cases continued file n line b <;>
        simp [Collected.isComplete, Option.filter]
      intro ht
      rw [ht]
    obtain ⟨hi, hj⟩ := ih (leftOver file m line a) (leftOver file n line b) (m + 1) (n + 1) hleft
    exact ⟨by simp [gather, hcomplete, hi], by simp [gather, hj]⟩

theorem body_texts (file : Text) (depth : Int) (m n : Nat) (lines : List Text) :
    texts (some <$> bodyStatements file none depth m lines) =
      texts (some <$> bodyStatements file none depth n lines) := by
  obtain ⟨hlist, hlast⟩ := gather_texts file (bodyLines depth lines) none none m n rfl
  rw [body_gather, body_gather]
  generalize gather file none m (bodyLines depth lines) = g at hlist hlast
  generalize gather file none n (bodyLines depth lines) = g' at hlist hlast
  obtain ⟨list, last⟩ := g
  obtain ⟨list', last'⟩ := g'
  cases closes depth lines <;> cases last <;> cases last' <;>
    simp_all [settled, texts, Functor.map, Except.map, Except.toOption]

theorem awaiting_texts (file : Text) (m n : Nat) (lines : List Text) :
    texts (some <$> statementsAwaitingBrace file m lines) =
      texts (some <$> statementsAwaitingBrace file n lines) := by
  induction lines generalizing m n with
  | nil => rfl
  | cons line rest ih =>
    by_cases hb : '\x7b' ∈ line
    · by_cases hd : 0 < braceDelta line
      · simpa [statementsAwaitingBrace, hb, hd] using body_texts file _ (m + 1) (n + 1) rest
      · simp [statementsAwaitingBrace, hb, hd]
    · simpa [statementsAwaitingBrace, hb] using ih (m + 1) (n + 1)

theorem awaiting_skip (file : Text) (number : Nat) (between after : List Text)
    (h : ∀ line ∈ between, '\x7b' ∉ line) :
    statementsAwaitingBrace file number (between ++ after) =
      statementsAwaitingBrace file (number + between.length) after := by
  induction between generalizing number with
  | nil => rfl
  | cons line rest ih =>
    have hb : '\x7b' ∉ line := h line (by simp)
    rw [List.cons_append, statementsAwaitingBrace]
    simp only [List.contains_eq_mem, hb, decide_false, Bool.false_eq_true, if_false]
    rw [ih (number + 1) (fun l hl => h l (by simp [hl])), List.length_cons]
    congr 1
    omega

theorem awaiting_balanced (file : Text) (number : Nat) (between after : List Text)
    (hbal : ∀ line ∈ between, braceDelta line = 0) (h : ∃ line ∈ between, '\x7b' ∈ line) :
    statementsAwaitingBrace file number (between ++ after) = .ok [] := by
  induction between generalizing number with
  | nil => simp at h
  | cons line rest ih =>
    by_cases hb : '\x7b' ∈ line
    · have hd : braceDelta line = 0 := hbal line (by simp)
      simp [statementsAwaitingBrace, hb, hd]
    · obtain ⟨l, hl, hlb⟩ := h
      have hrest : l ∈ rest := by
        rcases List.mem_cons.mp hl with rfl | hl
        · exact absurd hlb hb
        · exact hl
      simpa [statementsAwaitingBrace, hb] using
        ih (number + 1) (fun l hl => hbal l (by simp [hl])) ⟨l, hrest, hlb⟩

theorem from_opener (className file : Text) (number : Nat) (before : List Text) (opener : Text)
    (after : List Text) (hb : ∀ line ∈ before, opensConstructor className line = false)
    (ho : opensConstructor className opener = true) :
    statementsFrom className file number (before ++ opener :: after) =
      some <$> statementsAwaitingBrace file (number + before.length) (opener :: after) := by
  induction before generalizing number with
  | nil => simp [statementsFrom, ho]
  | cons line rest ih =>
    have hl : opensConstructor className line = false := hb line (by simp)
    rw [List.cons_append, statementsFrom]
    simp only [hl, Bool.false_eq_true, if_false]
    rw [ih (number + 1) (fun l hm => hb l (by simp [hm])), List.length_cons]
    congr 2
    omega

/-- After a line that opens no body, balanced lines can be taken out without a
change to the texts exactly when none of them has an opening brace, or there
was nothing to collect. -/
theorem awaiting_removed (file : Text) (number : Nat) (opener : Text) (between after : List Text)
    (hopener : braceDelta opener ≤ 0) (hbal : ∀ line ∈ between, braceDelta line = 0) :
    (texts (some <$> statementsAwaitingBrace file number (opener :: (between ++ after))) =
        texts (some <$> statementsAwaitingBrace file number (opener :: after)) ↔
      (∀ line ∈ between, '\x7b' ∉ line) ∨
        texts (some <$> statementsAwaitingBrace file number (opener :: after)) = some (some [])) ∧
    ((∃ line ∈ between, '\x7b' ∈ line) →
      texts (some <$> statementsAwaitingBrace file number (opener :: (between ++ after))) =
        some (some [])) := by
  by_cases hb : '\x7b' ∈ opener
  · -- the search ends with this line already
    have hempty (rest : List Text) :
        texts (some <$> statementsAwaitingBrace file number (opener :: rest)) = some (some []) := by
      have hd : ¬ 0 < braceDelta opener := by omega
      simp only [statementsAwaitingBrace, List.contains_eq_mem, hb, decide_true, if_true, hd,
        if_false]
      rfl
    exact ⟨iff_of_true ((hempty _).trans (hempty _).symm) (Or.inr (hempty after)),
      fun _ => hempty _⟩
  · have hskip (rest : List Text) : statementsAwaitingBrace file number (opener :: rest) =
        statementsAwaitingBrace file (number + 1) rest :=
      awaiting_skip file number [opener] rest (by simpa using hb)
    rw [hskip, hskip]
    by_cases hany : ∃ line ∈ between, '\x7b' ∈ line
    · have hempty : texts (some <$> statementsAwaitingBrace file (number + 1) (between ++ after)) =
          some (some []) := by
        rw [awaiting_balanced file _ between _ hbal hany]
        rfl
      obtain ⟨line, hl, hlb⟩ := hany
      refine ⟨⟨fun h => Or.inr (h ▸ hempty), ?_⟩, fun _ => hempty⟩
      rintro (hnone | hnothing)
      · exact absurd hlb (hnone line hl)
      · rw [hempty, hnothing]
    · have hnone : ∀ line ∈ between, '\x7b' ∉ line := fun line hl hlb => hany ⟨line, hl, hlb⟩
      refine ⟨iff_of_true ?_ (Or.inl hnone), fun h => absurd h hany⟩
      rw [awaiting_skip file _ between _ hnone]
      exact awaiting_texts file _ _ _

/-- Lines with balanced braces between the constructor's name and its body can
be taken out of a file without a change to the collected texts exactly when
none of them has an opening brace, or there was nothing to collect. Comments
must end in the lines where they begin. -/
theorem initializer_lines_removed (className file content shorter : Text)
    (before between after : List Text) (opener : Text)
    (hcontent : content.lines = before ++ opener :: (between ++ after))
    (hshorter : shorter.lines = before ++ opener :: after)
    (hcomment : openComment (openComment false (before ++ [opener])) between =
      openComment false (before ++ [opener]))
    (hfirst : ∀ line ∈ codeOf false before, opensConstructor className line = false)
    (hopens : opensConstructor className (codeLine (openComment false before) opener) = true)
    (hopener : braceDelta (codeLine (openComment false before) opener) ≤ 0)
    (hbalanced : ∀ line ∈ codeOf (openComment false (before ++ [opener])) between,
      braceDelta line = 0) :
    (texts (collect className file content) = texts (collect className file shorter) ↔
      (∀ line ∈ codeOf (openComment false (before ++ [opener])) between, '\x7b' ∉ line) ∨
        texts (collect className file shorter) = some (some [])) ∧
    ((∃ line ∈ codeOf (openComment false (before ++ [opener])) between, '\x7b' ∈ line) →
      texts (collect className file content) = some (some [])) := by
  have hopen : openComment false (before ++ [opener]) =
      (stripComments (openComment false before) opener).2 := openComment_append false before [opener]
  rw [hopen] at hcomment hbalanced ⊢
  have hlong : codeLines content = codeOf false before ++
      codeLine (openComment false before) opener ::
        (codeOf (stripComments (openComment false before) opener).2 between ++
          codeOf (stripComments (openComment false before) opener).2 after) := by
    rw [codeLines, ← codeOf, hcontent, codeOf_append, codeOf_cons, codeOf_append, hcomment]
  have hshort : codeLines shorter = codeOf false before ++
      codeLine (openComment false before) opener ::
        codeOf (stripComments (openComment false before) opener).2 after := by
    rw [codeLines, ← codeOf, hshorter, codeOf_append, codeOf_cons]
  rw [collect, collect, hlong, hshort, from_opener className file 1 _ _ _ hfirst hopens,
    from_opener className file 1 _ _ _ hfirst hopens]
  exact awaiting_removed file _ _ _ _ hopener hbalanced

theorem initializer_lines_removed_parentheses :
    texts (collect "A".toList "A.cpp".toList
        "A::A()\n: b_(0)\n\x7b\n  RegisterAsEstimable(PARAM_B, &b_);\n\x7d\n".toList) =
      some (some ["RegisterAsEstimable(PARAM_B, &b_);".toList]) ∧
    texts (collect "A".toList "A.cpp".toList
        "A::A()\n: b_(0)\n\x7b\n  RegisterAsEstimable(PARAM_B, &b_);\n\x7d\n".toList) =
      texts (collect "A".toList "A.cpp".toList
        "A::A()\n\x7b\n  RegisterAsEstimable(PARAM_B, &b_);\n\x7d\n".toList) :=
  ⟨rfl, (initializer_lines_removed "A".toList "A.cpp".toList _ _ [] [": b_(0)".toList]
    ["\x7b".toList, "  RegisterAsEstimable(PARAM_B, &b_);".toList, "\x7d".toList] "A::A()".toList
    rfl rfl rfl (by simp [codeOf, stripLines]) rfl (by decide) (by decide)).1.mpr
      (Or.inl (by decide))⟩

/-- A member with a braced initializer on a line of its own: its statement is
collected without that line, and not with it. -/
theorem braced_initializer_hides_body :
    braceDelta ": b_\x7b0\x7d".toList = 0 ∧
    texts (collect "A".toList "A.cpp".toList
        "A::A()\n: b_\x7b0\x7d\n\x7b\n  RegisterAsEstimable(PARAM_B, &b_);\n\x7d\n".toList) ≠
      texts (collect "A".toList "A.cpp".toList
        "A::A()\n\x7b\n  RegisterAsEstimable(PARAM_B, &b_);\n\x7d\n".toList) := by
  have hlost : texts (collect "A".toList "A.cpp".toList
      "A::A()\n: b_\x7b0\x7d\n\x7b\n  RegisterAsEstimable(PARAM_B, &b_);\n\x7d\n".toList) =
    some (some []) := rfl
  have hkept : texts (collect "A".toList "A.cpp".toList
      "A::A()\n\x7b\n  RegisterAsEstimable(PARAM_B, &b_);\n\x7d\n".toList) =
    some (some ["RegisterAsEstimable(PARAM_B, &b_);".toList]) := rfl
  refine ⟨rfl, ?_⟩
  rw [hlost, hkept]
  simp

end ParameterManual.Constructor
