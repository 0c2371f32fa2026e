import ParameterManual.Proofs.Source.Enclosed
import ParameterManual.Proofs.Source.Stripping

/-!
# Pieces of source on lines with comments

Between its pieces source has blanks, line ends and comments, and it shares
its first and its last line with what stands around it. Without the comments,
and with its lines joined by single spaces, it is the same pieces again with
blanks between them.
-/

set_option autoImplicit false

namespace ParameterManual.Source
open Text

/-- What source is placed on lines as. A line comment takes the end of its
line along, a block comment may run over several lines. -/
inductive Token where
  | piece (t : Text)
  | blank (c : Char)
  | lineEnd
  | note (t : Text)
  | comment (first : Text) (more : List Text)

namespace Token

def piece? : Token → Option Text
  | .piece t => some t
  | _ => none

/-- A piece that is read as it stands and ends no statement, a blank, or a
comment that does not end early. -/
def Sound : Token → Prop
  | .piece t => Readable t ∧ t.endsWithChar ';' = false
  | .blank c => isBlank c = true
  | .lineEnd => True
  | .note _ => True
  | .comment first more => ∀ line ∈ first :: more, occursIn "*/".toList line = false

end Token

abbrev Lines := Text × List Text

def Lines.all (p : Lines) : List Text := p.1 :: p.2

def below : Nat → Lines → Lines
  | 0, p => p
  | n + 1, p => ([], (below n p).all)

def closing (p : Lines) : Text → List Text → Lines
  | first, [] => (first ++ "*/".toList ++ p.1, p.2)
  | first, next :: more => (first, (closing p next more).all)

def placed (behind : Text) : List Token → Lines
  | [] => (behind, [])
  | .piece t :: rest => (t ++ (placed behind rest).1, (placed behind rest).2)
  | .blank c :: rest => (c :: (placed behind rest).1, (placed behind rest).2)
  | .lineEnd :: rest => below 1 (placed behind rest)
  | .note t :: rest => ("//".toList ++ t, (placed behind rest).all)
  | .comment first more :: rest =>
    ("/*".toList ++ (closing (placed behind rest) first more).1,
      (closing (placed behind rest) first more).2)

def placedCode (behind : Text) : List Token → Lines
  | [] => (behind, [])
  | .piece t :: rest => (t ++ (placedCode behind rest).1, (placedCode behind rest).2)
  | .blank c :: rest => (c :: (placedCode behind rest).1, (placedCode behind rest).2)
  | .lineEnd :: rest => below 1 (placedCode behind rest)
  | .note _ :: rest => below 1 (placedCode behind rest)
  | .comment _ more :: rest => below more.length (placedCode behind rest)

/-! ## Taking the comments out -/

theorem strip_front (s : Quoting) (t u : Text) (h : '/' ∉ s.bare t) :
    stripCode s (t ++ u) =
      (t ++ (stripCode (s.after t) u).1, (stripCode (s.after t) u).2) := by
  induction t generalizing s with
  | nil => rfl
  | cons c t ih =>
    have hslash : ¬ (s = .code ∧ c = '/') := by
      rintro ⟨rfl, rfl⟩
      exact h (by simp [bare_cons, Quoting.covers, Quoting.isQuote])
    have hrest : '/' ∉ (s.next c).bare t := by
      intro hm
      apply h
      rw [bare_cons]
      split
      · exact hm
      · exact List.mem_cons_of_mem c hm
    have hmore := ih (s.next c) hrest
    rw [List.cons_append]
    cases htail : t ++ u with
    | nil =>
      obtain ⟨rfl, rfl⟩ := List.append_eq_nil_iff.mp htail
      simp [stripCode]
    | cons d r =>
      rw [strip_plain s c d r (by tauto), ← htail, hmore]
      rfl

theorem block_open (t : Text) (h : occursIn "*/".toList t = false) :
    stripBlock t = ([], true) := by
  induction t with
  | nil => simp [stripBlock]
  | cons c t ih =>
    obtain ⟨hstart, hrest⟩ := Bool.or_eq_false_iff.mp h
    cases t with
    | nil => simp [stripBlock]
    | cons d t =>
      have hmark : ¬ (c = '*' ∧ d = '/') := by
        rintro ⟨rfl, rfl⟩
        cases hstart
      rw [stripBlock, if_neg hmark, ih hrest]

theorem block_closed (t u : Text) (h : occursIn "*/".toList t = false) :
    stripBlock (t ++ "*/".toList ++ u) = stripCode .code u := by
  induction t with
  | nil => rfl
  | cons c t ih =>
    obtain ⟨hstart, hrest⟩ := Bool.or_eq_false_iff.mp h
    cases t with
    | nil =>
      have hmark : ¬ (c = '*' ∧ '*' = '/') := fun hc => absurd hc.2 (by decide)
      change stripBlock (c :: '*' :: ('/' :: u)) = _
      rw [stripBlock, if_neg hmark]
      exact ih hrest
    | cons d t =>
      have hmark : ¬ (c = '*' ∧ d = '/') := by
        rintro ⟨rfl, rfl⟩
        cases hstart
      change stripBlock (c :: d :: (t ++ "*/".toList ++ u)) = _
      rw [stripBlock, if_neg hmark]
      exact ih hrest

/-- Lines that begin in code, the lines of code that they are, and whether
they leave a block comment open. -/
structure Strips (p q : Lines) (isOpen : Bool) : Prop where
  code : stripLines false p.all = q.all
  last : openComment false p.all = isOpen

theorem closing_strips (p q : Lines) (isOpen : Bool) (h : Strips p q isOpen) (first : Text)
    (more : List Text) (hlines : ∀ line ∈ first :: more, occursIn "*/".toList line = false) :
    stripLines true (closing p first more).all = (below more.length q).all ∧
      openComment true (closing p first more).all = isOpen := by
  induction more generalizing first with
  | nil =>
    have hblock := block_closed first p.1 (hlines first (by simp))
    have hcode := h.code
    have hlast := h.last
    simp only [closing, Lines.all, stripLines, openComment, stripComments, if_true, hblock]
    exact ⟨hcode, hlast⟩
  | cons next more ih =>
    obtain ⟨hfirst, hmore⟩ := List.forall_mem_cons.mp hlines
    obtain ⟨hcode, hlast⟩ := ih next hmore
    have hblock := block_open first hfirst
    simp only [closing, Lines.all, stripLines, openComment, stripComments, if_true, hblock]
      at hcode hlast ⊢
    exact ⟨by rw [hcode]; rfl, hlast⟩

theorem strips_front (p q : Lines) (isOpen : Bool) (h : Strips p q isOpen) (t : Text)
    (ht : Quoting.code.after t = .code) (hbare : '/' ∉ Quoting.code.bare t) :
    Strips (t ++ p.1, p.2) (t ++ q.1, q.2) isOpen := by
  have hfront := strip_front .code t p.1 hbare
  rw [ht] at hfront
  obtain ⟨hfirst, hmore⟩ := List.cons.inj h.code
  constructor
  · rw [Lines.all, stripLines, stripComments, if_neg (by simp), hfront]
    exact congrArg₂ List.cons (congrArg (t ++ ·) hfirst) hmore
  · rw [Lines.all, openComment, stripComments, if_neg (by simp), hfront]
    exact h.last

theorem strips_below (p q : Lines) (isOpen : Bool) (h : Strips p q isOpen) (line : Text)
    (hline : stripCode .code line = ([], false)) : Strips (line, p.all) (below 1 q) isOpen := by
  obtain ⟨hcode, hlast⟩ := h
  constructor
  · rw [Lines.all, stripLines, stripComments, if_neg (by simp), hline, hcode]
    rfl
  · rw [Lines.all, openComment, stripComments, if_neg (by simp), hline, hlast]

theorem blank_bare (c : Char) (h : isBlank c = true) :
    Quoting.code.after [c] = .code ∧ '/' ∉ Quoting.code.bare [c] := by
  have ho := outside_blank (· ≠ '/') (fun d hd => blank_ne d '/' hd rfl) [c] (by simp [isAllBlank, h])
  exact ⟨ho.closed, fun hm => ho.only _ hm rfl⟩

theorem placed_strips (behind : Text) (tokens : List Token)
    (h : ∀ token ∈ tokens, token.Sound) :
    Strips (placed behind tokens) (placedCode (stripCode .code behind).1 tokens)
      (stripCode .code behind).2 := by
  induction tokens with
  | nil => exact ⟨rfl, rfl⟩
  | cons token rest ih =>
    obtain ⟨htoken, hrest⟩ := List.forall_mem_cons.mp h
    have hmore := ih hrest
    cases token with
    | piece t =>
      have ho := htoken.1.inert
      exact strips_front _ _ _ hmore t ho.closed (fun hm => (ho.only _ hm).1 rfl)
    | blank c =>
      obtain ⟨hclosed, hbare⟩ := blank_bare c htoken
      exact strips_front _ _ _ hmore [c] hclosed hbare
    | lineEnd => exact strips_below _ _ _ hmore [] (by simp [stripCode])
    | note t => exact strips_below _ _ _ hmore ("//".toList ++ t) (by simp [stripCode])
    | comment first more =>
      obtain ⟨hcode, hlast⟩ := closing_strips _ _ _ hmore first more htoken
      have hmark (t : Text) : stripCode .code ("/*".toList ++ t) = stripBlock t := by
        simp [stripCode]
      constructor
      · rw [placed, Lines.all, stripLines, stripComments, if_neg (by simp), hmark, placedCode,
          ← hcode]
        rfl
      · rw [placed, Lines.all, openComment, stripComments, if_neg (by simp), hmark, ← hlast]
        rfl

/-! ## Joining the lines -/

def Lines.flowed (p : Lines) : Text := trimEnd p.1 ++ p.2.flatMap (fun line => ' ' :: trim line)

theorem trimEnd_behind (t u : Text) (ht : ∃ r c, t = r ++ [c] ∧ isBlank c = false) :
    trimEnd (t ++ u) = t ++ trimEnd u := by
  obtain ⟨r, c, rfl, hc⟩ := ht
  have hkept := dropEnd_behind isBlank r u c hc
  simpa [trimEnd] using hkept

theorem trimEnd_nil (t : Text) (h : isAllBlank t = true) : trimEnd t = [] :=
  List.rdropWhile_eq_nil_iff.mpr ((isAllBlank_iff t).mp h)

theorem trimEnd_ink (t : Text) (h : Ink (trim t)) :
    ∃ g, isAllBlank g = true ∧ trimEnd t = g ++ trim t := by
  obtain ⟨g, r, ht, hg, hr⟩ := trim_split t
  obtain ⟨front, c, hlast, hc⟩ := h.last
  refine ⟨g, hg, ?_⟩
  conv => lhs; rw [ht]
  exact drop_end isBlank _ r ((isAllBlank_iff r).mp hr)
    ⟨g ++ front, c, by rw [hlast, List.append_assoc], hc⟩

theorem trim_ends (t : Text) (c : Char) : endsWithChar (trim t) c = endsWithChar (trimEnd t) c := by
  rcases trim_cases t with hnil | hink
  · rw [hnil, trimEnd_nil t ((trim_nil_iff t).mp hnil)]
  · obtain ⟨g, -, hend⟩ := trimEnd_ink t hink
    obtain ⟨d, r, hfirst, -⟩ := hink.first
    rw [hend, endsWithChar_last g _ c (by simp [hfirst])]

theorem trimEnd_blank (c : Char) (t : Text) (hc : isBlank c = true) :
    trimEnd (c :: t) = trimEnd t ∨ trimEnd (c :: t) = c :: trimEnd t := by
  by_cases ht : isAllBlank t = true
  · left
    rw [trimEnd_nil t ht, trimEnd_nil (c :: t) (by simpa [isAllBlank, hc] using ht)]
  · right
    obtain ⟨front, d, back, rfl, hd⟩ : ∃ front d back, t = front ++ d :: back ∧
        isBlank d = false := by
      obtain ⟨d, hm, hd⟩ : ∃ d ∈ t, isBlank d = false := by simpa [isAllBlank] using ht
      obtain ⟨front, back, rfl⟩ := List.append_of_mem hm
      exact ⟨front, d, back, rfl, hd⟩
    rw [trimEnd, trimEnd, dropEnd_behind isBlank front back d hd]
    exact dropEnd_behind isBlank (c :: front) back d hd

theorem lays_blank (c : Char) (hc : isBlank c = true) (w : Text) (pieces : List Text)
    (h : Lays w pieces) : Lays (c :: w) pieces := by
  obtain ⟨tokens, gap, rfl, hg, hgap, hp⟩ := h
  cases tokens with
  | nil =>
    refine ⟨[], c :: gap, rfl, hg, ?_, hp⟩
    simpa [isAllBlank, hc] using hgap
  | cons token rest =>
    refine ⟨(c :: token.1, token.2) :: rest, gap, rfl, ?_, hgap, hp⟩
    obtain ⟨htoken, hrest⟩ := List.forall_mem_cons.mp hg
    refine List.forall_mem_cons.mpr ⟨?_, hrest⟩
    simpa [isAllBlank, hc] using htoken

theorem lays_trimStart (w : Text) (pieces : List Text) (h : Lays w pieces)
    (hink : ∀ piece ∈ pieces, Ink piece) : Lays (trimStart w) pieces := by
  obtain ⟨tokens, gap, rfl, hg, hgap, rfl⟩ := h
  cases tokens with
  | nil =>
    have hdrop : trimStart gap = [] := by
      rw [trimStart, List.dropWhile_eq_nil_iff]
      exact (isAllBlank_iff gap).mp hgap
    exact ⟨[], [], hdrop, hg, rfl, rfl⟩
  | cons token rest =>
    obtain ⟨htoken, hrest⟩ := List.forall_mem_cons.mp hg
    refine ⟨([], token.2) :: rest, gap, ?_, List.forall_mem_cons.mpr ⟨rfl, hrest⟩, hgap, rfl⟩
    obtain ⟨c, r, hfirst, hc⟩ := (hink token.2 (by simp [Spaced.pieces])).first
    rw [laidOut, List.append_assoc, List.append_assoc, trimStart,
      drop_front isBlank token.1 _ ((isAllBlank_iff _).mp htoken) ⟨c, _, by rw [hfirst]; rfl, hc⟩]
    simp [laidOut]

theorem lays_piece (piece w : Text) (pieces : List Text) (h : Lays w pieces) :
    Lays (piece ++ w) (piece :: pieces) := by
  obtain ⟨tokens, gap, rfl, hg, hgap, rfl⟩ := h
  refine ⟨([], piece) :: tokens, gap, by simp [laidOut], ?_, hgap, rfl⟩
  exact List.forall_mem_cons.mpr ⟨rfl, hg⟩

/-- Lines that flow as pieces with a semicolon behind them, and something
behind that. -/
def FlowsAs (p : Lines) (pieces : List Text) (rest : Text) : Prop :=
  ∃ w, Lays w pieces ∧ p.flowed = w ++ ';' :: rest

theorem flows_below (n : Nat) (p : Lines) (pieces : List Text) (rest : Text)
    (hink : ∀ piece ∈ pieces, Ink piece) (h : FlowsAs p pieces rest) :
    FlowsAs (below n p) pieces rest := by
  induction n with
  | zero => exact h
  | succ n ih =>
    rw [below]
    generalize below n p = q at ih ⊢
    obtain ⟨w, hlays, hflowed⟩ := ih
    have hbelow : Lines.flowed ([], q.all) =
        ' ' :: (trim q.1 ++ q.2.flatMap (fun line => ' ' :: trim line)) := rfl
    rcases trim_cases q.1 with hnil | hq'
    · have hend := trimEnd_nil q.1 ((trim_nil_iff _).mp hnil)
      refine ⟨' ' :: w, lays_blank ' ' rfl w pieces hlays, ?_⟩
      rw [hbelow, hnil, List.cons_append, ← hflowed, Lines.flowed, hend]
    · -- the blanks in front of the line are those in front of the pieces
      obtain ⟨g, hg, hend⟩ := trimEnd_ink q.1 hq'
      obtain ⟨c, more, hfirst, hc⟩ := hq'.first
      have hdrop : trimStart q.flowed =
          trim q.1 ++ q.2.flatMap (fun line => ' ' :: trim line) := by
        rw [Lines.flowed, hend, List.append_assoc]
        exact drop_front isBlank g _ ((isAllBlank_iff g).mp hg) ⟨c, _, by rw [hfirst]; rfl, hc⟩
      have hcut : trimStart (w ++ ';' :: rest) = trimStart w ++ ';' :: rest := by
        rw [trimStart, List.dropWhile_append]
        split
        · rename_i hempty
          rw [trimStart, List.isEmpty_iff.mp hempty]
          rfl
        · rfl
      refine ⟨' ' :: trimStart w,
        lays_blank ' ' rfl _ pieces (lays_trimStart w pieces hlays hink), ?_⟩
      rw [hbelow, ← hdrop, hflowed, hcut, List.cons_append]

def Token.pieces (tokens : List Token) : List Text := tokens.filterMap Token.piece?

theorem pieces_ink (tokens : List Token) (h : ∀ token ∈ tokens, token.Sound) :
    ∀ piece ∈ Token.pieces tokens, Ink piece := by
  intro piece hp
  obtain ⟨token, hm, ht⟩ := List.mem_filterMap.mp hp
  cases token with
  | piece t =>
    obtain rfl := Option.some.inj ht
    exact (h _ hm).1.ink
  | _ => cases ht

theorem placed_flows (behind : Text) (tokens : List Token)
    (h : ∀ token ∈ tokens, token.Sound) :
    FlowsAs (placedCode (';' :: behind) tokens) (Token.pieces tokens) (trimEnd behind) := by
  induction tokens with
  | nil =>
    refine ⟨[], ⟨[], [], rfl, by simp [GapsBlank], rfl, rfl⟩, ?_⟩
    have hend := trimEnd_behind [';'] behind ⟨[], ';', rfl, rfl⟩
    rw [placedCode, Lines.flowed, List.flatMap_nil, List.append_nil]
    exact hend
  | cons token rest ih =>
    obtain ⟨htoken, hrest⟩ := List.forall_mem_cons.mp h
    have hmore := ih hrest
    have hbelow (n : Nat) := flows_below n _ _ _ (pieces_ink rest hrest) hmore
    cases token with
    | piece t =>
      obtain ⟨w, hlays, hflowed⟩ := hmore
      refine ⟨t ++ w, lays_piece t w _ hlays, ?_⟩
      rw [placedCode, Lines.flowed, trimEnd_behind t _ htoken.1.ink.last, List.append_assoc,
        ← Lines.flowed, hflowed, List.append_assoc]
    | blank c =>
      obtain ⟨w, hlays, hflowed⟩ := hmore
      rw [Lines.flowed] at hflowed
      rcases trimEnd_blank c (placedCode (';' :: behind) rest).1 htoken with hend | hend
      · exact ⟨w, hlays, by rw [placedCode, Lines.flowed, hend, hflowed]⟩
      · refine ⟨c :: w, lays_blank c htoken w _ hlays, ?_⟩
        rw [placedCode, Lines.flowed, hend, List.cons_append, hflowed, List.cons_append]
    | lineEnd => exact hbelow 1
    | note t => exact hbelow 1
    | comment first more => exact hbelow more.length

theorem flowed_lines (p : Lines) :
    p.flowed = joined [' '] (trimEnd p.1 :: p.2.map trim) := by
  rw [joined_spaced, List.flatMap_map, Lines.flowed]

/-- No line but the last ends like a statement. -/
def Unended (p : Lines) : Prop := ∀ line ∈ p.all.dropLast, endsWithChar (trimEnd line) ';' = false

theorem unended_front (t : Text) (p : Lines)
    (ht : endsWithChar (trimEnd p.1) ';' = false → endsWithChar (trimEnd (t ++ p.1)) ';' = false)
    (h : Unended p) : Unended (t ++ p.1, p.2) := by
  obtain ⟨first, more⟩ := p
  cases more with
  | nil => simp [Unended, Lines.all]
  | cons line more =>
    obtain ⟨hfirst, hmore⟩ := List.forall_mem_cons.mp h
    exact List.forall_mem_cons.mpr ⟨ht hfirst, hmore⟩

theorem unended_below (n : Nat) (p : Lines) (h : Unended p) : Unended (below n p) := by
  induction n with
  | zero => exact h
  | succ n ih => exact List.forall_mem_cons.mpr ⟨rfl, ih⟩

theorem placed_unended (behind : Text) (tokens : List Token)
    (h : ∀ token ∈ tokens, token.Sound) : Unended (placedCode behind tokens) := by
  induction tokens with
  | nil => simp [placedCode, Unended, Lines.all]
  | cons token rest ih =>
    obtain ⟨htoken, hrest⟩ := List.forall_mem_cons.mp h
    have hmore := ih hrest
    cases token with
    | piece t =>
      refine unended_front t _ (fun hline => ?_) hmore
      rw [trimEnd_behind t _ htoken.1.ink.last]
      by_cases hnil : trimEnd (placedCode behind rest).1 = []
      · rw [hnil, List.append_nil]
        exact htoken.2
      · rw [endsWithChar_last t _ ';' hnil]
        exact hline
    | blank c =>
      refine unended_front [c] _ (fun hline => ?_) hmore
      rcases trimEnd_blank c (placedCode behind rest).1 htoken with hend | hend
      · exact (congrArg (endsWithChar · ';') hend).trans hline
      · refine (congrArg (endsWithChar · ';') hend).trans ?_
        exact (endsWithChar_append [] ';' c _ (blank_ne c ';' htoken rfl)).trans hline
    | lineEnd => exact unended_below 1 _ hmore
    | note t => exact unended_below 1 _ hmore
    | comment first more => exact unended_below more.length _ hmore

theorem placed_outside (p : Char → Prop) (hp : ∀ c, isBlank c = true → p c) (behind : Text)
    (tokens : List Token) (h : ∀ token ∈ tokens, token.Sound) (hbehind : Outside p behind)
    (hpieces : ∀ piece ∈ Token.pieces tokens, Outside p piece) :
    ∀ line ∈ (placedCode behind tokens).all, Outside p line := by
  have hfront (t : Text) (q : Lines) (ht : Outside p t) (hq : ∀ line ∈ q.all, Outside p line) :
      ∀ line ∈ Lines.all (t ++ q.1, q.2), Outside p line := by
    obtain ⟨hfirst, hmore⟩ := List.forall_mem_cons.mp hq
    exact List.forall_mem_cons.mpr ⟨outside_append p t q.1 ht hfirst, hmore⟩
  have hbelow (n : Nat) (q : Lines) (hq : ∀ line ∈ q.all, Outside p line) :
      ∀ line ∈ (below n q).all, Outside p line := by
    induction n with
    | zero => exact hq
    | succ n ih => exact List.forall_mem_cons.mpr ⟨outside_nil p, ih⟩
  induction tokens with
  | nil => simpa [placedCode, Lines.all] using hbehind
  | cons token rest ih =>
    obtain ⟨htoken, hrest⟩ := List.forall_mem_cons.mp h
    cases token with
    | piece t =>
      obtain ⟨ht, hmore⟩ := List.forall_mem_cons.mp hpieces
      exact hfront t _ ht (ih hrest hmore)
    | blank c =>
      have hblank := outside_blank p hp [c] (by simpa [isAllBlank, Token.Sound] using htoken)
      exact hfront [c] _ hblank (ih hrest hpieces)
    | lineEnd => exact hbelow 1 _ (ih hrest hpieces)
    | note t => exact hbelow 1 _ (ih hrest hpieces)
    | comment first more => exact hbelow more.length _ (ih hrest hpieces)

/-! ## Behind other source -/

/-- A line that is in code at its end: what is written behind it, and
completes no marker, is read as code. -/
def ReadsOn (inBlock : Bool) (line code : Text) : Prop :=
  ∀ more, (∀ c ∈ more.head?, c ≠ '/' ∧ c ≠ '*') →
    stripComments inBlock (line ++ more) =
      (code ++ (stripCode .code more).1, (stripCode .code more).2)

theorem reads_plain (line : Text) (h : Outside (· ≠ '/') line) : ReadsOn false line line := by
  intro more _
  have hfront := strip_front .code line more (fun hm => h.only _ hm rfl)
  rw [h.closed] at hfront
  exact hfront

/-- Tokens behind other source, without the comments. -/
theorem placed_behind (inBlock : Bool) (line code behind : Text) (tokens : List Token)
    (hreads : ReadsOn inBlock line code) (h : ∀ token ∈ tokens, token.Sound)
    (hfirst : ∀ c ∈ (placed behind tokens).1.head?, c ≠ '/' ∧ c ≠ '*') :
    stripLines inBlock ((line ++ (placed behind tokens).1) :: (placed behind tokens).2) =
        (code ++ (placedCode (stripCode .code behind).1 tokens).1) ::
          (placedCode (stripCode .code behind).1 tokens).2 ∧
      openComment inBlock ((line ++ (placed behind tokens).1) :: (placed behind tokens).2) =
        (stripCode .code behind).2 := by
  obtain ⟨hcode, hlast⟩ := placed_strips behind tokens h
  have hline := hreads _ hfirst
  obtain ⟨hone, hmore⟩ := List.cons.inj hcode
  constructor
  · rw [stripLines, hline]
    exact congrArg₂ List.cons (congrArg (code ++ ·) hone) hmore
  · rw [openComment, hline]
    exact hlast

end ParameterManual.Source
