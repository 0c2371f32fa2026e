import ParameterManual.Proofs.Source.Comments
import ParameterManual.Proofs.Text.Spacing

/-!
# Lines whose comments are taken out

A line without its comments has none: where a comment is cut out, no slash
stands before it, so nothing that follows completes a marker. What is written
behind a line is read with what the line leaves open.
-/

set_option autoImplicit false

namespace ParameterManual.Source
open Text

def opensComment : Quoting → Text → Bool
  | _, [] => false
  | _, [_] => false
  | s, c :: d :: t =>
    (decide (s = .code) && c == '/' && (d == '/' || d == '*')) || opensComment (s.next c) (d :: t)

theorem opens_plain (s : Quoting) (c : Char) (t : Text) (h : ¬ (s = .code ∧ c = '/')) :
    opensComment s (c :: t) = opensComment (s.next c) t := by
  cases t with
  | nil => rfl
  | cons d t =>
    have hself : (decide (s = .code) && c == '/') = false := by simpa using h
    rw [opensComment, hself]
    rfl

theorem uncommented_front (s : Quoting) (t u : Text) (h : opensComment s (t ++ u) = false) :
    opensComment s t = false := by
  induction t generalizing s with
  | nil => rfl
  | cons c t ih =>
    cases t with
    | nil => rfl
    | cons d t =>
      obtain ⟨hopener, hrest⟩ := Bool.or_eq_false_iff.mp h
      rw [opensComment, hopener, ih (s.next c) hrest]
      rfl

theorem strip_plain (s : Quoting) (c d : Char) (t : Text)
    (h : ¬ (s = .code ∧ c = '/' ∧ (d = '/' ∨ d = '*'))) :
    stripCode s (c :: d :: t) =
      (c :: (stripCode (s.next c) (d :: t)).1, (stripCode (s.next c) (d :: t)).2) := by
  rw [stripCode, if_neg (by tauto), if_neg (by tauto)]

theorem strip_uncommented (s : Quoting) (t : Text) (h : opensComment s t = false) :
    stripCode s t = (t, false) := by
  induction t generalizing s with
  | nil => simp [stripCode]
  | cons c t ih =>
    cases t with
    | nil => simp [stripCode]
    | cons d t =>
      obtain ⟨hopener, hrest⟩ := Bool.or_eq_false_iff.mp h
      rw [strip_plain s c d t (by simpa using hopener), ih (s.next c) hrest]

theorem strip_slash (d : Char) (t : Text) (h : d ≠ '/') :
    ∃ r, (stripCode .code (d :: t)).1 = d :: r := by
  cases t with
  | nil => exact ⟨[], by simp [stripCode]⟩
  | cons e t =>
    rw [strip_plain .code d e t (fun hc => h hc.2.1)]
    exact ⟨_, rfl⟩

mutual

theorem stripped_code (s : Quoting) : (t : Text) → opensComment s (stripCode s t).1 = false
  | [] => by simp [stripCode, opensComment]
  | [c] => by simp [stripCode, opensComment]
  | c :: d :: t => by
    by_cases hline : s = .code ∧ c = '/' ∧ d = '/'
    · rw [stripCode, if_pos hline]
      rfl
    · by_cases hblock : s = .code ∧ c = '/' ∧ d = '*'
      · rw [stripCode, if_neg hline, if_pos hblock, hblock.1]
        exact stripped_block t
      · have hrest := stripped_code (s.next c) (d :: t)
        rw [strip_plain s c d t (by tauto)]
        by_cases hslash : s = .code ∧ c = '/'
        · -- the next character stays, so the slash still opens no comment
          obtain ⟨rfl, rfl⟩ := hslash
          have hd : d ≠ '/' ∧ d ≠ '*' := by simpa using And.intro hline hblock
          obtain ⟨r, hr⟩ := strip_slash d t hd.1
          change opensComment .code ('/' :: (stripCode .code (d :: t)).1) = false
          change opensComment .code (stripCode .code (d :: t)).1 = false at hrest
          rw [hr] at hrest ⊢
          rw [opensComment, Bool.or_eq_false_iff]
          exact ⟨by simp [hd], hrest⟩
        · rw [opens_plain s c _ hslash]
          exact hrest

theorem stripped_block : (t : Text) → opensComment .code (stripBlock t).1 = false
  | [] => by simp [stripBlock, opensComment]
  | [c] => by simp [stripBlock, opensComment]
  | c :: d :: t => by
    rw [stripBlock]
    split
    · exact stripped_code .code t
    · exact stripped_block (d :: t)

end

theorem stripped_line (inBlock : Bool) (line : Text) :
    opensComment .code (stripComments inBlock line).1 = false := by
  cases inBlock with
  | false => exact stripped_code .code line
  | true => exact stripped_block line

theorem stripped_lines (inBlock : Bool) (lines : List Text) :
    ∀ line ∈ stripLines inBlock lines, opensComment .code line = false := by
  induction lines generalizing inBlock with
  | nil => simp [stripLines]
  | cons line rest ih =>
    rw [stripLines, List.forall_mem_cons]
    exact ⟨stripped_line inBlock line, ih _⟩

mutual

theorem strip_sublist (s : Quoting) : (t : Text) → (stripCode s t).1.Sublist t
  | [] => by simp [stripCode]
  | [c] => by simp [stripCode]
  | c :: d :: t => by
    rw [stripCode]
    split
    · exact List.nil_sublist _
    · split
      · exact ((block_sublist t).cons d).cons c
      · exact (strip_sublist (s.next c) (d :: t)).cons_cons c

theorem block_sublist : (t : Text) → (stripBlock t).1.Sublist t
  | [] => by simp [stripBlock]
  | [c] => by simp [stripBlock]
  | c :: d :: t => by
    rw [stripBlock]
    split
    · exact ((strip_sublist .code t).cons d).cons c
    · exact (block_sublist (d :: t)).cons c

end

theorem line_sublist (inBlock : Bool) (line : Text) :
    (stripComments inBlock line).1.Sublist line := by
  cases inBlock with
  | false => exact strip_sublist .code line
  | true => exact block_sublist line

/-- What no line holds, no line without its comments holds. -/
theorem stripped_free (c : Char) (inBlock : Bool) (lines : List Text)
    (h : ∀ line ∈ lines, c ∉ line) : ∀ line ∈ stripLines inBlock lines, c ∉ line := by
  induction lines generalizing inBlock with
  | nil => simp [stripLines]
  | cons line rest ih =>
    obtain ⟨hline, hrest⟩ := List.forall_mem_cons.mp h
    rw [stripLines, List.forall_mem_cons]
    exact ⟨fun hc => hline ((line_sublist inBlock line).subset hc), ih _ hrest⟩

theorem codeOf_uncommented (lines : List Text)
    (h : ∀ line ∈ lines, opensComment .code line = false) :
    codeOf false lines = lines.map Text.trim ∧ openComment false lines = false := by
  induction lines with
  | nil => exact ⟨rfl, rfl⟩
  | cons line rest ih =>
    have hstrip : stripComments false line = (line, false) :=
      strip_uncommented .code line (h line (by simp))
    obtain ⟨hcode, hopen⟩ := ih (fun l hl => h l (by simp [hl]))
    rw [codeOf_cons, openComment, codeLine, hstrip]
    exact ⟨by rw [hcode, List.map_cons], hopen⟩

/-- Where a line stops in a line comment, in code or a literal, or in a block
comment, and how it is read with more text behind it. -/
inductive Continues (s : Quoting) (more : Text) : Text × Bool → Text × Bool → Prop
  | comment (r : Text) : Continues s more (r, false) (r, false)
  | code (r : Text) : Continues s more (r, false)
      (r ++ (stripCode (s.after r) more).1, (stripCode (s.after r) more).2)
  | block (r : Text) : Continues s more (r, true) (r ++ (stripBlock more).1, (stripBlock more).2)

theorem Continues.kept {s : Quoting} {more : Text} {x y : Text × Bool} (c : Char)
    (h : Continues (s.next c) more x y) : Continues s more (c :: x.1, x.2) (c :: y.1, y.2) := by
  cases h with
  | comment r => exact .comment (c :: r)
  | code r => exact .code (c :: r)
  | block r => exact .block (c :: r)

mutual

/-- More text goes on from the end of a line if it cannot complete a marker. -/
theorem code_continues (more : Text) (h : ∀ c ∈ more.head?, c ≠ '/' ∧ c ≠ '*') (s : Quoting) :
    (t : Text) → Continues s more (stripCode s t) (stripCode s (t ++ more))
  | [] => by
    have hnil : stripCode s [] = ([], false) := by simp [stripCode]
    rw [hnil]
    exact .code []
  | [c] => by
    have hsingle : stripCode s [c] = ([c], false) := by simp [stripCode]
    have hmore : stripCode s (c :: more) =
        ([c] ++ (stripCode (s.next c) more).1, (stripCode (s.next c) more).2) := by
      cases more with
      | nil => simp [stripCode]
      | cons d more =>
        have hd := h d (by simp)
        exact strip_plain s c d more (by tauto)
    rw [hsingle, List.singleton_append, hmore]
    exact .code [c]
  | c :: d :: t => by
    by_cases hline : s = .code ∧ c = '/' ∧ d = '/'
    · rw [List.cons_append, List.cons_append, stripCode, stripCode, if_pos hline, if_pos hline]
      exact .comment []
    · by_cases hblock : s = .code ∧ c = '/' ∧ d = '*'
      · rw [List.cons_append, List.cons_append, stripCode, stripCode, if_neg hline, if_neg hline,
          if_pos hblock, if_pos hblock, hblock.1]
        exact block_continues more h t
      · have hopener : ¬ (s = .code ∧ c = '/' ∧ (d = '/' ∨ d = '*')) := by tauto
        rw [List.cons_append, List.cons_append, strip_plain s c d t hopener,
          strip_plain s c d (t ++ more) hopener]
        exact (code_continues more h (s.next c) (d :: t)).kept c

theorem block_continues (more : Text) (h : ∀ c ∈ more.head?, c ≠ '/' ∧ c ≠ '*') :
    (t : Text) → Continues .code more (stripBlock t) (stripBlock (t ++ more))
  | [] => by
    have hnil : stripBlock [] = ([], true) := by simp [stripBlock]
    rw [hnil]
    exact .block []
  | [c] => by
    have hsingle : stripBlock [c] = ([], true) := by simp [stripBlock]
    have hmore : stripBlock (c :: more) = stripBlock more := by
      cases more with
      | nil => simp [stripBlock]
      | cons d more =>
        have hd := h d (by simp)
        rw [stripBlock, if_neg (by tauto)]
    rw [hsingle, List.singleton_append, hmore]
    exact .block []
  | c :: d :: t => by
    rw [List.cons_append, List.cons_append, stripBlock, stripBlock]
    split
    · exact code_continues more h .code t
    · exact block_continues more h (d :: t)

end

theorem line_continues (more : Text) (h : ∀ c ∈ more.head?, c ≠ '/' ∧ c ≠ '*') (inBlock : Bool)
    (line : Text) :
    Continues .code more (stripComments inBlock line) (stripComments inBlock (line ++ more)) := by
  cases inBlock with
  | false => exact code_continues more h .code line
  | true => exact block_continues more h line

/-- Two lines that are read the same, but for blanks at their ends. -/
def SameLine (inBlock : Bool) (line other : Text) : Prop :=
  codeLine inBlock line = codeLine inBlock other ∧
    (stripComments inBlock line).2 = (stripComments inBlock other).2

theorem line_blank (inBlock : Bool) (line : Text) (c : Char) (hc : isBlank c = true) :
    SameLine inBlock (line ++ [c]) line := by
  have hmarker : ∀ d ∈ ([c] : Text).head?, d ≠ '/' ∧ d ≠ '*' := by
    rintro d ⟨⟩
    exact ⟨blank_ne c '/' hc rfl, blank_ne c '*' hc rfl⟩
  have hline := line_continues [c] hmarker inBlock line
  rw [SameLine, codeLine, codeLine]
  generalize stripComments inBlock line = before at hline ⊢
  generalize stripComments inBlock (line ++ [c]) = behind at hline ⊢
  cases hline with
  | comment r => exact ⟨rfl, rfl⟩
  | code r =>
    have hsingle (s : Quoting) : stripCode s [c] = ([c], false) := by simp [stripCode]
    rw [hsingle]
    exact ⟨trim_behind r c hc, rfl⟩
  | block r =>
    have hsingle : stripBlock [c] = ([], true) := by simp [stripBlock]
    rw [hsingle, List.append_nil]
    exact ⟨rfl, rfl⟩

/-- A comment behind a line that leaves neither a literal nor a comment open
changes nothing. -/
theorem line_comment (inBlock : Bool) (line text : Text)
    (hblock : (stripComments inBlock line).2 = false)
    (hclosed : Quoting.code.after (stripComments inBlock line).1 = .code) :
    SameLine inBlock (line ++ " //".toList ++ text) line := by
  rw [List.append_assoc]
  have hline := line_continues (" //".toList ++ text) (by simp) inBlock line
  rw [SameLine, codeLine, codeLine]
  generalize stripComments inBlock line = before at hline hblock hclosed ⊢
  generalize stripComments inBlock (line ++ (" //".toList ++ text)) = behind at hline ⊢
  cases hline with
  | comment r => exact ⟨rfl, rfl⟩
  | code r =>
    have hgap : stripCode .code (" //".toList ++ text) = ([' '], false) := by
      simp [stripCode, Quoting.next, Quoting.isQuote]
    rw [hclosed, hgap]
    exact ⟨trim_behind r ' ' rfl, rfl⟩
  | block r => cases hblock

end ParameterManual.Source
