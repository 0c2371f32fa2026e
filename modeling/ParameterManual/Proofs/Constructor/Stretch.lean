import ParameterManual.Proofs.Constructor.Body

/-!
# A stretch of a constructor body

The lines before a stretch of a constructor body enter the body and leave it
open. Where a body is entered and how far it goes is decided by the lines up
to there, and what a stretch gathers by its own lines.
-/

set_option autoImplicit false

namespace ParameterManual.Constructor
open Source

def openDepth? : (depth : Int) → List Text → Option Int
  | depth, [] => some depth
  | depth, line :: rest =>
    if 0 < depth + braceDelta line then openDepth? (depth + braceDelta line) rest else none

theorem body_append (depth later : Int) (lines others : List Text)
    (h : openDepth? depth lines = some later) :
    bodyLines depth (lines ++ others) = lines ++ bodyLines later others ∧
      closes depth (lines ++ others) = closes later others := by
  induction lines generalizing depth with
  | nil =>
    obtain rfl : depth = later := by simpa [openDepth?] using h
    exact ⟨rfl, rfl⟩
  | cons line rest ih =>
    by_cases hd : 0 < depth + braceDelta line
    · obtain ⟨hb, hc⟩ := ih _ (by simpa [openDepth?, hd] using h)
      exact ⟨by simp [bodyLines, hd, hb], by simp [closes, hd, hc]⟩
    · simp [openDepth?, hd] at h

theorem body_closed (depth : Int) (lines others : List Text) (h : openDepth? depth lines = none) :
    bodyLines depth (lines ++ others) = bodyLines depth lines ∧
      closes depth (lines ++ others) = closes depth lines := by
  induction lines generalizing depth with
  | nil => cases h
  | cons line rest ih =>
    by_cases hd : 0 < depth + braceDelta line
    · obtain ⟨hb, hc⟩ := ih _ (by simpa [openDepth?, hd] using h)
      exact ⟨by simp [bodyLines, hd, hb], by simp [closes, hd, hc]⟩
    · exact ⟨by simp [bodyLines, hd], by simp [closes, hd]⟩

theorem open_pos (depth later : Int) (lines : List Text) (hd : 0 < depth)
    (h : openDepth? depth lines = some later) : 0 < later := by
  induction lines generalizing depth with
  | nil =>
    obtain rfl : depth = later := by simpa [openDepth?] using h
    exact hd
  | cons line rest ih =>
    by_cases hl : 0 < depth + braceDelta line
    · exact ih _ hl (by simpa [openDepth?, hl] using h)
    · simp [openDepth?, hl] at h

theorem open_level (depth : Int) (lines : List Text) (hd : 0 < depth)
    (h : ∀ line ∈ lines, braceDelta line = 0) : openDepth? depth lines = some depth := by
  induction lines with
  | nil => rfl
  | cons line rest ih =>
    have hline := h line (by simp)
    simpa [openDepth?, hline, hd] using ih (fun l hl => h l (by simp [hl]))

theorem awaiting_front (number : Nat) (lines : List Text) (e : Entry)
    (h : entryAwaiting number lines = some e) :
    0 < e.depth ∧ ∃ early, lines = early ++ e.lines ∧
      ∀ others, entryAwaiting number (early ++ others) = some { e with lines := others } := by
  induction lines generalizing number with
  | nil => simp [entryAwaiting] at h
  | cons line rest ih =>
    by_cases hb : '\x7b' ∈ line
    · by_cases hd : 0 < braceDelta line
      · obtain rfl : ⟨number + 1, braceDelta line, rest⟩ = e := by
          simpa [entryAwaiting, hb, hd] using h
        exact ⟨hd, [line], rfl, fun others => by simp [entryAwaiting, hb, hd]⟩
      · simp [entryAwaiting, hb, hd] at h
    · obtain ⟨hpos, early, rfl, hothers⟩ := ih (number + 1) (by simpa [entryAwaiting, hb] using h)
      exact ⟨hpos, line :: early, rfl,
        fun others => by simpa [entryAwaiting, hb] using hothers others⟩

/-- Where the body is entered is decided by the lines before it. -/
theorem entry_front (className : Text) (lines : List Text) (e : Entry)
    (h : entrance? className lines = some e) :
    0 < e.depth ∧ ∃ early, lines = early ++ e.lines ∧
      ∀ others, entrance? className (early ++ others) = some { e with lines := others } := by
  simp only [entrance?] at h ⊢
  generalize 1 = number at h ⊢
  induction lines generalizing number with
  | nil => simp [entryFrom] at h
  | cons line rest ih =>
    by_cases ho : opensConstructor className line = true
    · have ha : entryAwaiting number (line :: rest) = some e := by simpa [entryFrom, ho] using h
      obtain ⟨hpos, early, hsplit, hothers⟩ := awaiting_front number (line :: rest) e ha
      cases early with
      | nil => cases hothers []
      | cons first early =>
        obtain ⟨rfl, -⟩ := List.cons.inj hsplit
        exact ⟨hpos, line :: early, hsplit,
          fun others => by simpa [entryFrom, ho] using hothers others⟩
    · obtain ⟨hpos, early, rfl, hothers⟩ := ih (number + 1) (by simpa [entryFrom, ho] using h)
      exact ⟨hpos, line :: early, rfl, fun others => by simpa [entryFrom, ho] using hothers others⟩

theorem entry_append (className : Text) (lines others : List Text) (e : Entry)
    (h : entrance? className lines = some e) :
    entrance? className (lines ++ others) = some { e with lines := e.lines ++ others } ∧
      0 < e.depth := by
  obtain ⟨hpos, early, hsplit, hothers⟩ := entry_front className lines e h
  rw [hsplit, List.append_assoc]
  exact ⟨hothers (e.lines ++ others), hpos⟩

theorem gather_append (file : Text) (underWay between : Option Collected) (number : Nat)
    (lines others : List Text) (list : List Collected)
    (h : gather file underWay number lines = (list, between)) :
    gather file underWay number (lines ++ others) =
      (list ++ (gather file between (number + lines.length) others).1,
        (gather file between (number + lines.length) others).2) := by
  induction lines generalizing underWay number list with
  | nil =>
    obtain ⟨rfl, rfl⟩ : [] = list ∧ underWay = between := by simpa [gather] using h
    simp
  | cons line rest ih =>
    obtain ⟨hlist, hbetween⟩ := Prod.mk.inj h
    have hrest := ih (leftOver file number line underWay) (number + 1) _
      (Prod.ext rfl hbetween)
    have hn : number + 1 + rest.length = number + (line :: rest).length := by
      rw [List.length_cons]
      omega
    rw [hn] at hrest
    rw [List.cons_append, gather, hrest, ← hlist, List.append_assoc]

theorem gather_idle (file : Text) (number : Nat) (lines : List Text)
    (h : ∀ line ∈ lines, Statement.isStart line = false) :
    gather file none number lines = ([], none) := by
  induction lines generalizing number with
  | nil => rfl
  | cons line rest ih =>
    have hc : continued file number line none = none := by
      simp [continued, h line (by simp)]
    rw [gather_nothing file line number rest none hc]
    exact ih (number + 1) (fun l hl => h l (by simp [hl]))

theorem gather_open (file : Text) (s : Collected) (number : Nat) (lines : List Text)
    (last : Text) (hlines : ∀ line ∈ lines, line.endsWithChar ';' = false)
    (hlast : last.endsWithChar ';' = true) :
    gather file (some s) number (lines ++ [last]) =
      ([{ s with text := s.text ++ (lines ++ [last]).flatMap (' ' :: ·) }], none) := by
  induction lines generalizing s number with
  | nil =>
    have hc : continued file number last (some s) = some { s with text := s.text ++ ' ' :: last } :=
      rfl
    have hcomplete := (continued_complete file last number (some s) _ hc).trans hlast
    rw [List.nil_append, gather_complete file last number [] (some s) _ hc hcomplete]
    simp [gather]
  | cons line rest ih =>
    have hc : continued file number line (some s) = some { s with text := s.text ++ ' ' :: line } :=
      rfl
    have hopen := (continued_complete file line number (some s) _ hc).trans (hlines line (by simp))
    have hrest := ih { s with text := s.text ++ ' ' :: line } (number + 1)
      (fun l hl => hlines l (by simp [hl]))
    rw [List.cons_append, gather_pending file line number _ (some s) _ hc hopen, hrest]
    simp

/-- The statement that lines make up of which only the last ends with a
semicolon. -/
theorem gather_statement (file : Text) (number : Nat) (first : Text) (rest init : List Text)
    (last : Text) (hsplit : first :: rest = init ++ [last])
    (hstart : Statement.isStart first = true)
    (hinit : ∀ line ∈ init, line.endsWithChar ';' = false)
    (hlast : last.endsWithChar ';' = true) :
    gather file none number (first :: rest) =
      ([⟨first ++ rest.flatMap (' ' :: ·), ⟨file, number⟩⟩], none) := by
  have hc : continued file number first none = some ⟨first, ⟨file, number⟩⟩ := by
    simp [continued, hstart]
  have hends := continued_complete file first number none _ hc
  cases init with
  | nil =>
    obtain ⟨rfl, rfl⟩ : first = last ∧ rest = [] := by simpa using hsplit
    rw [gather_complete file first number [] none _ hc (hends.trans hlast)]
    simp [gather]
  | cons line init =>
    obtain ⟨rfl, rfl⟩ : first = line ∧ rest = init ++ [last] := by simpa using hsplit
    have hopen := hends.trans (hinit first (by simp))
    have hrest := gather_open file ⟨first, ⟨file, number⟩⟩ (number + 1) init last
      (fun l hl => hinit l (by simp [hl])) hlast
    rw [gather_pending file first number _ none _ hc hopen, hrest]

def LeavesOpen (className : Text) (lines : List Text) : Prop :=
  ∃ e depth, entrance? className lines = some e ∧ openDepth? e.depth e.lines = some depth

theorem body_index (depth : Int) (lines : List Text) (i : Nat) (line : Text)
    (h : (bodyLines depth lines)[i]? = some line) :
    ∃ front back later, lines = front ++ line :: back ∧ front.length = i ∧
      openDepth? depth front = some later := by
  induction lines generalizing depth i with
  | nil => simp [bodyLines] at h
  | cons first rest ih =>
    cases i with
    | zero =>
      obtain rfl : first = line := by simpa [bodyLines] using h
      exact ⟨[], rest, depth, rfl, rfl, rfl⟩
    | succ i =>
      by_cases hd : 0 < depth + braceDelta first
      · obtain ⟨front, back, later, rfl, rfl, hopen⟩ :=
          ih (depth + braceDelta first) i (by simpa [bodyLines, hd] using h)
        exact ⟨first :: front, back, later, rfl, rfl, by simpa [openDepth?, hd] using hopen⟩
      · simp [bodyLines, hd] at h

theorem body_line (className : Text) (lines : List Text) (e : Entry)
    (he : entrance? className lines = some e) (i : Nat) (line : Text)
    (hi : e.body[i]? = some line) :
    ∃ front back, lines = front ++ line :: back ∧ front.length + 1 = e.number + i ∧
      LeavesOpen className front := by
  obtain ⟨-, early, hsplit, hothers⟩ := entry_front className lines e he
  obtain ⟨-, before, hbefore, hnumber⟩ := from_entry className [] 1 lines e he
  have hearly : early = before := List.append_cancel_right (hsplit.symm.trans hbefore)
  obtain ⟨front, back, later, hlines, rfl, hopen⟩ := body_index e.depth e.lines i line hi
  refine ⟨early ++ front, back, ?_, ?_, _, later, hothers front, hopen⟩
  · rw [hsplit, hlines, List.append_assoc]
  · rw [List.length_append, hearly]
    omega

theorem gathered_start (file : Text) (underWay : Option Collected) (number : Nat)
    (lines : List Text) (s : Collected) (hs : s ∈ (gather file underWay number lines).1) :
    (∃ u, underWay = some u ∧ s.location = u.location) ∨
      ∃ i line, lines[i]? = some line ∧ Statement.isStart line = true ∧
        s.location.line = number + i := by
  induction lines generalizing underWay number with
  | nil => simp [gather] at hs
  | cons line rest ih =>
    have hlater (underWay : Option Collected)
        (hs : s ∈ (gather file underWay (number + 1) rest).1) :
        (∃ u, underWay = some u ∧ s.location = u.location) ∨
          ∃ i own, (line :: rest)[i]? = some own ∧ Statement.isStart own = true ∧
            s.location.line = number + i := by
      refine (ih underWay (number + 1) hs).imp_right ?_
      rintro ⟨i, own, hi, hstart, hline⟩
      exact ⟨i + 1, own, by simpa using hi, hstart, by omega⟩
    have hhere (c : Collected) (hc : continued file number line underWay = some c)
        (hlocation : s.location = c.location) :
        (∃ u, underWay = some u ∧ s.location = u.location) ∨
          ∃ i own, (line :: rest)[i]? = some own ∧ Statement.isStart own = true ∧
            s.location.line = number + i := by
      cases underWay with
      | none =>
        obtain ⟨hstart, rfl⟩ := continued_new file line number c hc
        exact Or.inr ⟨0, line, rfl, hstart, by simp [hlocation]⟩
      | some u =>
        obtain rfl := continued_more file line number u c hc
        exact Or.inl ⟨u, rfl, hlocation⟩
    rcases gather_cases file line number rest underWay with
      ⟨-, hg⟩ | ⟨c, hc, -, hg⟩ | ⟨c, hc, -, hg⟩
    · rw [hg] at hs
      rcases hlater none hs with ⟨u, hu, -⟩ | hfound
      · cases hu
      · exact Or.inr hfound
    · rw [hg] at hs
      rcases List.mem_cons.mp hs with rfl | hs
      · exact hhere s hc rfl
      · rcases hlater none hs with ⟨u, hu, -⟩ | hfound
        · cases hu
        · exact Or.inr hfound
    · rw [hg] at hs
      rcases hlater (some c) hs with ⟨u, hu, hlocation⟩ | hfound
      · obtain rfl := Option.some.inj hu
        exact hhere c hc hlocation
      · exact Or.inr hfound

end ParameterManual.Constructor
