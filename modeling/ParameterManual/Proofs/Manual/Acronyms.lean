import ParameterManual.Proofs.Manual.Letters

/-!
# Acronyms in names

The rules for names put an acronym together again where the split took it
apart. On letters this is one scan, in which an acronym begins at its first
letter, apart or not, and goes on with letters that all stand apart. A label
is read in capitals. A command is read in lower case, where a small m cannot
be told from the first letter of an acronym, and the two agree exactly where
no small m stands before the rest of one.
-/

set_option autoImplicit false

namespace ParameterManual.Manual

namespace Letter

/-- Whether the letters begin with `rest`, all of it apart. -/
def follows (form : Char → Char) : (rest : Text) → List Letter → Bool
  | [], _ => true
  | _ :: _, [] => false
  | c :: rest, x :: letters => x.apart && decide (c = form x.char) && follows form rest letters

/-- Joins every acronym `first :: rest`, the leftmost first. So many letters are still
to be joined to the last one found as `count` says. -/
def join (form : Char → Char) (first : Char) (rest : Text) :
    (count : Nat) → List Letter → List Letter
  | _, [] => []
  | count + 1, x :: letters => ⟨false, x.char⟩ :: join form first rest count letters
  | 0, x :: letters =>
    x :: join form first rest
      (if decide (first = form x.char) && follows form rest letters then rest.length else 0) letters

section join
variable (form : Char → Char) (first : Char) (rest : Text)

theorem join_chars (count : Nat) (letters : List Letter) :
    (join form first rest count letters).map char = letters.map char := by
  induction letters generalizing count with
  | nil => cases count <;> rfl
  | cons x letters ih =>
    cases count with
    | zero => rw [join, List.map_cons, List.map_cons, ih]
    | succ count => rw [join, List.map_cons, List.map_cons, ih]

theorem join_regular (count : Nat) (letters : List Letter) (h : Regular letters) :
    Regular (join form first rest count letters) := by
  induction letters generalizing count with
  | nil =>
    cases count <;> exact h
  | cons x letters ih =>
    have hx := h x (by simp)
    have hletters : Regular letters := fun y hy => h y (by simp [hy])
    intro y hy
    cases count with
    | zero =>
      rw [join, List.mem_cons] at hy
      rcases hy with rfl | hy
      · exact hx
      · exact ih _ hletters y hy
    | succ count =>
      rw [join, List.mem_cons] at hy
      rcases hy with rfl | hy
      · exact ⟨hx.1, fun hapart => nomatch hapart⟩
      · exact ih _ hletters y hy

theorem follows_apart (letters : List Letter) (h : follows form rest letters = true) :
    ∀ y ∈ letters.take rest.length, y.apart = true := by
  induction rest generalizing letters with
  | nil => simp
  | cons c rest ih =>
    cases letters with
    | nil => simp
    | cons x letters =>
      rw [follows, Bool.and_eq_true, Bool.and_eq_true] at h
      intro y hy
      rw [List.length_cons, List.take_succ_cons, List.mem_cons] at hy
      rcases hy with rfl | hy
      · exact h.1.1
      · exact ih letters h.2 y hy

/-- The letters that follow are spelled with separators before the scan and without
them behind it. -/
theorem follows_split (separator expected : Text) (letters : List Letter)
    (h : follows form expected letters = true) :
    ∃ others, others.length ≤ letters.length ∧ (∀ x ∈ others, x ∈ letters) ∧
      spell separator form letters =
        expected.flatMap (separator ++ [·]) ++ spell separator form others ∧
      spell separator form (join form first rest expected.length letters) =
        expected ++ spell separator form (join form first rest 0 others) := by
  induction expected generalizing letters with
  | nil => exact ⟨letters, Nat.le_refl _, fun _ hx => hx, rfl, rfl⟩
  | cons c expected ih =>
    cases letters with
    | nil => cases h
    | cons x letters =>
      rw [follows, Bool.and_eq_true, Bool.and_eq_true, decide_eq_true_eq] at h
      obtain ⟨others, hlength, hmem, hbefore, hbehind⟩ := ih letters h.2
      refine ⟨others, Nat.le_succ_of_le hlength, fun y hy => List.mem_cons_of_mem x (hmem y hy),
        ?_, ?_⟩
      · rw [spell_cons, h.1.1, if_pos rfl, ← h.1.2, hbefore]
        simp
      · rw [List.length_cons, join, spell_cons, hbehind, ← h.1.2]
        rfl

theorem startsWith_spell (s : Char) (more expected : Text) (letters : List Letter)
    (h : ∀ x ∈ letters, form x.char ≠ s) :
    Text.startsWith (expected.flatMap (s :: more ++ [·])) (spell (s :: more) form letters) =
      follows form expected letters := by
  induction expected generalizing letters with
  | nil => rw [follows]; rfl
  | cons c expected ih =>
    cases letters with
    | nil => rfl
    | cons x letters =>
      rw [spell_cons, follows, List.flatMap_cons, ← ih letters (fun y hy => h y (by simp [hy]))]
      cases x.apart with
      | false =>
        have hx : decide (s = form x.char) = false := decide_eq_false (h x (by simp)).symm
        simp only [Bool.false_eq_true, if_false, List.nil_append, List.cons_append,
          Text.startsWith_cons, hx, Bool.false_and]
      | true =>
        simp only [if_true, List.append_assoc, List.singleton_append, Text.startsWith_shared,
          Text.startsWith_cons, Bool.true_and]

/-- Replacing the spelled acronym in the text is joining it among the letters. -/
theorem replace_spell (s : Char) (more : Text) (letters : List Letter)
    (hfirst : first ∉ s :: more) (h : ∀ x ∈ letters, form x.char ≠ s) :
    Text.replaceAll (first :: rest.flatMap (s :: more ++ [·])) (first :: rest)
        (spell (s :: more) form letters) =
      spell (s :: more) form (join form first rest 0 letters) := by
  -- an acronym takes the scan forward by its whole length
  induction hlength : letters.length using Nat.strong_induction_on generalizing letters with
  | _ n ih =>
    cases letters with
    | nil => rfl
    | cons x letters =>
      rw [List.length_cons] at hlength
      have hlead : first ∉ if x.apart then s :: more else [] := by
        split
        · exact hfirst
        · simp
      rw [spell_cons, Text.replace_passed _ _ _ _ _ hlead, join, spell_cons]
      congr 1
      have hrest : ∀ y ∈ letters, form y.char ≠ s := fun y hy => h y (by simp [hy])
      cases hfound : decide (first = form x.char) && follows form rest letters with
      | true =>
        rw [Bool.and_eq_true, decide_eq_true_eq] at hfound
        obtain ⟨others, hshort, hmem, hbefore, hbehind⟩ :=
          follows_split form first rest (s :: more) rest letters hfound.2
        rw [if_pos rfl, hbehind, ← hfound.1, hbefore, Text.replace_found,
          ih others.length (by omega) others (fun y hy => hrest y (hmem y hy)) rfl]
        rfl
      | false =>
        have hstarts : Text.startsWith (first :: rest.flatMap (s :: more ++ [·]))
            (form x.char :: spell (s :: more) form letters) = false := by
          rw [Text.startsWith_cons, startsWith_spell form s more rest letters hrest, hfound]
        rw [if_neg Bool.false_ne_true, Text.replace_kept _ _ _ _ _ hstarts,
          ih letters.length (by omega) letters hrest rfl]

theorem join_break (x : Letter) (hx : x.apart = false) (before behind : List Letter) (count : Nat)
    (h : ∀ y ∈ (before ++ x :: behind).take count, y.apart = true) :
    ∃ joined, joined.length = before.length ∧
      join form first rest count (before ++ x :: behind) =
        joined ++ join form first rest 0 (x :: behind) := by
  induction before generalizing count with
  | nil =>
    cases count with
    | zero => exact ⟨[], rfl, rfl⟩
    | succ count =>
      have hapart := h x (by simp)
      rw [hx] at hapart
      cases hapart
  | cons y before ih =>
    have hstep (next : Letter) (left : Nat)
        (hleft : ∀ z ∈ (before ++ x :: behind).take left, z.apart = true) :
        ∃ joined, joined.length = (y :: before).length ∧
          next :: join form first rest left (before ++ x :: behind) =
            joined ++ join form first rest 0 (x :: behind) := by
      obtain ⟨joined, hlength, hjoined⟩ := ih left hleft
      exact ⟨next :: joined, congrArg (· + 1) hlength, congrArg (next :: ·) hjoined⟩
    rw [List.cons_append] at h ⊢
    cases count with
    | zero =>
      rw [join]
      apply hstep
      split
      · rename_i hfound
        exact follows_apart form rest _ (Bool.and_eq_true _ _ ▸ hfound).2
      · simp
    | succ count =>
      rw [join]
      exact hstep _ count (fun z hz => h z (by simp [hz]))

end join

section readings
variable (rest : Text) (hrest : rest.all Text.isAsciiUpper = true)
include hrest

theorem follows_lowered (letters : List Letter) (h : Regular letters) :
    follows Text.asciiLowerChar (Text.asciiLower rest) letters = follows id rest letters := by
  induction rest generalizing letters with
  | nil => rw [Text.asciiLower, List.map_nil, follows, follows]
  | cons c rest ih =>
    cases letters with
    | nil => rfl
    | cons x letters =>
      rw [List.all_cons, Bool.and_eq_true] at hrest
      have htail := ih hrest.2 letters (fun y hy => h y (by simp [hy]))
      rw [Text.asciiLower, List.map_cons, follows, follows, ← Text.asciiLower, htail]
      congr 1
      cases hapart : x.apart with
      | false => rfl
      | true =>
        have hx := (h x (by simp)).2 hapart
        rw [Bool.true_and, Bool.true_and, id]
        exact decide_eq_decide.mpr (Text.lowered_upper_inj c x.char hrest.1 hx)

omit hrest in
theorem follows_chars (letters : List Letter) (h : follows id rest letters = true) :
    Text.startsWith rest (letters.map char) = true := by
  induction rest generalizing letters with
  | nil => rfl
  | cons c rest ih =>
    cases letters with
    | nil => cases h
    | cons x letters =>
      rw [follows, Bool.and_eq_true, Bool.and_eq_true] at h
      rw [List.map_cons, Text.startsWith_cons, Bool.and_eq_true]
      exact ⟨h.1.2, ih letters h.2⟩

/-- Where no small m stands before the rest of an acronym, both readings join the same
letters. -/
theorem join_alike (count : Nat) (letters : List Letter) (h : Regular letters)
    (hclear : Text.occursIn ('m' :: rest) (letters.map char) = false) :
    join Text.asciiLowerChar 'm' (Text.asciiLower rest) count letters =
      join id 'M' rest count letters := by
  induction letters generalizing count with
  | nil => cases count <;> rfl
  | cons x letters ih =>
    have hletters : Regular letters := fun y hy => h y (by simp [hy])
    rw [List.map_cons, Text.occursIn, Bool.or_eq_false_iff, Text.startsWith_cons] at hclear
    cases count with
    | succ count => rw [join, join, ih count hletters hclear.2]
    | zero =>
      have hfound : (decide ('m' = Text.asciiLowerChar x.char) &&
          follows Text.asciiLowerChar (Text.asciiLower rest) letters) =
            (decide ('M' = id x.char) && follows id rest letters) := by
        rw [follows_lowered rest hrest letters hletters]
        cases hfollows : follows id rest letters with
        | false => rw [Bool.and_false, Bool.and_false]
        | true =>
          have hsmall := hclear.1
          rw [follows_chars rest letters hfollows, Bool.and_true, decide_eq_false_iff_not] at hsmall
          rw [Bool.and_true, Bool.and_true, decide_eq_decide, eq_comm,
            Text.lowered_small x.char (h x (by simp)).1, or_iff_left (Ne.symm hsmall)]
          exact eq_comm
      rw [join, join, hfound, Text.asciiLower, List.length_map, ← Text.asciiLower,
        ih _ hletters hclear.2]

end readings

/-- At place `n` stands a small m, which is never apart, and behind it `y`. -/
def BehindSmall (n : Nat) (y : Letter) (letters : List Letter) : Prop :=
  ∃ before behind, before.length = n ∧ letters = before ++ ⟨false, 'm'⟩ :: y :: behind

theorem behind_unique (n : Nat) (y z : Letter) (letters : List Letter)
    (hy : BehindSmall n y letters) (hz : BehindSmall n z letters) : y = z := by
  obtain ⟨before, behind, hlength, rfl⟩ := hy
  obtain ⟨before', behind', hlength', hsame⟩ := hz
  have htail := (List.append_inj hsame (hlength.trans hlength'.symm)).2
  exact (List.cons.inj (List.cons.inj htail).2).1

theorem behind_capitals (n : Nat) (y : Letter) (rest : Text) (letters : List Letter)
    (h : BehindSmall n y letters) : BehindSmall n y (join id 'M' rest 0 letters) := by
  obtain ⟨before, behind, hlength, rfl⟩ := h
  obtain ⟨joined, hjoined, hscan⟩ :=
    join_break id 'M' rest ⟨false, 'm'⟩ rfl before (y :: behind) 0 (by simp)
  exact ⟨joined, _, hjoined.trans hlength, hscan⟩

theorem behind_small (c : Char) (rest : Text) (before tail : List Letter)
    (hrest : (c :: rest).all Text.isAsciiUpper = true)
    (h : Regular (before ++ ⟨false, 'm'⟩ :: tail)) (hfollows : follows id (c :: rest) tail = true) :
    BehindSmall before.length ⟨false, c⟩
      (join Text.asciiLowerChar 'm' (Text.asciiLower (c :: rest)) 0
        (before ++ ⟨false, 'm'⟩ :: tail)) := by
  have htail : Regular tail := fun x hx => h x (by simp [hx])
  obtain ⟨joined, hjoined, hscan⟩ := join_break Text.asciiLowerChar 'm'
    (Text.asciiLower (c :: rest)) ⟨false, 'm'⟩ rfl before tail 0 (by simp)
  have hsmall : decide ('m' = Text.asciiLowerChar 'm') = true := by decide
  rw [join, hsmall, follows_lowered (c :: rest) hrest tail htail, hfollows, Bool.and_self,
    if_pos rfl] at hscan
  cases tail with
  | nil => cases hfollows
  | cons y behind =>
    rw [follows, Bool.and_eq_true, Bool.and_eq_true, decide_eq_true_eq] at hfollows
    rw [Text.asciiLower, List.map_cons, List.length_cons, join, ← id_eq (a := y.char),
      ← hfollows.1.2] at hscan
    exact ⟨joined, _, hjoined, hscan⟩

theorem follows_ofInner (rest behind : Text) (hrest : rest.all Text.isAsciiUpper = true) :
    follows id rest ((rest ++ behind).map ofInner) = true := by
  induction rest with
  | nil => rw [follows]
  | cons c rest ih =>
    rw [List.all_cons, Bool.and_eq_true] at hrest
    rw [List.cons_append, List.map_cons, follows, ih hrest.2, ofInner, hrest.1, id,
      decide_eq_true rfl]
    rfl

theorem behind_joined (n : Nat) (c : Char) (form : Char → Char) (first : Char) (rest : Text)
    (letters : List Letter) (h : BehindSmall n ⟨false, c⟩ letters) :
    BehindSmall n ⟨false, c⟩ (join form first rest 0 letters) := by
  obtain ⟨before, behind, hlength, rfl⟩ := h
  obtain ⟨joined, hjoined, hscan⟩ :=
    join_break form first rest ⟨false, 'm'⟩ rfl before (⟨false, c⟩ :: behind) 0 (by simp)
  rw [join] at hscan
  split at hscan
  · cases hrest : rest.length with
    | zero => exact ⟨joined, _, hjoined.trans hlength, hrest ▸ hscan⟩
    | succ left =>
      rw [hrest, join] at hscan
      exact ⟨joined, _, hjoined.trans hlength, hscan⟩
  · exact ⟨joined, _, hjoined.trans hlength, hscan⟩

end Letter

open Letter

def labelLetters (name : Text) : List Letter :=
  join id 'M' "PD".toList 0 (join id 'M' "CMC".toList 0 (ofName name))

def commandLetters (name : Text) : List Letter :=
  join Text.asciiLowerChar 'm' (Text.asciiLower "PD".toList) 0
    (join Text.asciiLowerChar 'm' (Text.asciiLower "CMC".toList) 0 (ofName name))

theorem defaults_apply (t : Text) : NameRule.applyAll NameRule.defaults t =
    Text.replaceAll "M P D".toList "MPD".toList
      (Text.replaceAll "m\\_p\\_d".toList "mpd".toList
        (Text.replaceAll "M C M C".toList "MCMC".toList
          (Text.replaceAll "m\\_c\\_m\\_c".toList "mcmc".toList t))) := rfl

/-- A label keeps apart the capital behind a small m. -/
theorem label_apart (name : Text) (c : Char) (before rest : Text)
    (hc : Text.isAsciiUpper c = true) (hname : name = before ++ 'm' :: c :: rest) :
    BehindSmall (ofName before).length ⟨true, c⟩ (labelLetters name) := by
  have hletters : BehindSmall (ofName before).length ⟨true, c⟩ (ofName name) :=
    ⟨ofName before, rest.map ofInner, rfl, by
      rw [hname, ofName_split before 'm' _ (by decide), List.map_cons, ofInner, hc]⟩
  exact behind_capitals _ _ _ _ (behind_capitals _ _ _ _ hletters)

section names
variable (name : Text) (h : name.all Text.isAlphanumeric = true)
include h

theorem labelLetters_regular : Regular (labelLetters name) :=
  join_regular _ _ _ 0 _ (join_regular _ _ _ 0 _ (ofName_regular name h))

theorem commandLetters_regular : Regular (commandLetters name) :=
  join_regular _ _ _ 0 _ (join_regular _ _ _ 0 _ (ofName_regular name h))

theorem label_spell :
    label NameRule.defaults name = spell " ".toList id (labelLetters name) := by
  have hname := ofName_regular name h
  have hjoined := join_regular id 'M' "CMC".toList 0 _ hname
  have hbar (letters : List Letter) (hl : Regular letters) : '\\' ∉ spell " ".toList id letters :=
    spell_without '\\' _ id letters (by decide) (regular_unlike id (Or.inl rfl) _ (by decide) _ hl)
  have hcmc := replace_spell id 'M' "CMC".toList ' ' [] (ofName name) (by decide)
    (regular_unlike id (Or.inl rfl) _ (by decide) _ hname)
  have hpd := replace_spell id 'M' "PD".toList ' ' [] _ (by decide)
    (regular_unlike id (Or.inl rfl) _ (by decide) _ hjoined)
  rw [label, split_spell _ name h, defaults_apply,
    Text.replace_absent "m\\_c\\_m\\_c".toList _ _ '\\' (by decide) (hbar _ hname)]
  refine (congrArg _ (congrArg _ hcmc)).trans ?_
  refine (congrArg _ (Text.replace_absent _ _ _ '\\' (by decide) (hbar _ hjoined))).trans ?_
  exact hpd

theorem command_spell : command NameRule.defaults name =
    spell "\\_".toList Text.asciiLowerChar (commandLetters name) := by
  have hname := ofName_regular name h
  have hjoined :=
    join_regular Text.asciiLowerChar 'm' (Text.asciiLower "CMC".toList) 0 _ hname
  have hspace (letters : List Letter) (hl : Regular letters) :
      ' ' ∉ spell "\\_".toList Text.asciiLowerChar letters :=
    spell_without ' ' _ _ letters (by decide) (regular_unlike _ (Or.inr rfl) _ (by decide) _ hl)
  have hcmc := replace_spell Text.asciiLowerChar 'm' (Text.asciiLower "CMC".toList) '\\' ['_']
    (ofName name) (by decide) (regular_unlike _ (Or.inr rfl) _ (by decide) _ hname)
  have hpd := replace_spell Text.asciiLowerChar 'm' (Text.asciiLower "PD".toList) '\\' ['_'] _
    (by decide) (regular_unlike _ (Or.inr rfl) _ (by decide) _ hjoined)
  have hlower : Text.lower (spell "\\_".toList id (ofName name)) =
      spell "\\_".toList Text.asciiLowerChar (ofName name) := by
    rw [Text.lower, Text.lower_ascii [] _ (spell_ascii _ _ (by decide) hname), lower_spell]
    rfl
  rw [command, split_spell _ name h, defaults_apply, hlower]
  refine (congrArg _ (congrArg _ (congrArg _ hcmc))).trans ?_
  refine (congrArg _ (congrArg _
    (Text.replace_absent _ _ _ ' ' (by decide) (hspace _ hjoined)))).trans ?_
  refine (congrArg _ hpd).trans ?_
  exact Text.replace_absent _ _ _ ' ' (by decide) (hspace _ (commandLetters_regular name h))

theorem label_separated :
    Text.replaceAll " ".toList "\\_".toList (Text.asciiLower (label NameRule.defaults name)) =
      spell "\\_".toList Text.asciiLowerChar (labelLetters name) := by
  rw [label_spell name h, lower_spell]
  exact separate_spell _ _ _
    (regular_unlike _ (Or.inr rfl) _ (by decide) _ (labelLetters_regular name h))

theorem letters_alike
    (hcmc : Text.occursIn "mCMC".toList name = false)
    (hpd : Text.occursIn "mPD".toList name = false) : commandLetters name = labelLetters name := by
  have hname := ofName_regular name h
  have hjoined := join_regular id 'M' "CMC".toList 0 _ hname
  have hcmc' : Text.occursIn "mCMC".toList ((ofName name).map char) = false := by
    rw [ofName_chars, hcmc]
  have hpd' : Text.occursIn "mPD".toList
      ((join id 'M' "CMC".toList 0 (ofName name)).map char) = false := by
    rw [join_chars, ofName_chars, hpd]
  rw [commandLetters, join_alike "CMC".toList (by decide) 0 _ hname hcmc']
  exact join_alike "PD".toList (by decide) 0 _ hjoined hpd'

theorem command_joined_first (before rest : Text)
    (hname : name = before ++ ("mCMC".toList ++ rest)) :
    BehindSmall (ofName before).length ⟨false, 'C'⟩ (commandLetters name) := by
  have hletters : ofName name =
      ofName before ++ ⟨false, 'm'⟩ :: ("CMC".toList ++ rest).map ofInner := by
    rw [hname]
    exact ofName_split before 'm' _ (by decide)
  have hregular := ofName_regular name h
  have hfollows := follows_ofInner "CMC".toList rest (by decide)
  rw [hletters] at hregular
  rw [commandLetters, hletters]
  exact behind_joined _ _ _ _ _ _ (behind_small 'C' "MC".toList _ _ (by decide) hregular hfollows)

theorem command_joined_second (before rest : Text)
    (hname : name = before ++ ("mPD".toList ++ rest)) :
    BehindSmall (ofName before).length ⟨false, 'P'⟩ (commandLetters name) := by
  have hletters : ofName name =
      ofName before ++ ⟨false, 'm'⟩ :: ("PD".toList ++ rest).map ofInner := by
    rw [hname]
    exact ofName_split before 'm' _ (by decide)
  have hregular := join_regular Text.asciiLowerChar 'm' (Text.asciiLower "CMC".toList) 0 _
    (ofName_regular name h)
  obtain ⟨joined, hjoined, hscan⟩ := join_break Text.asciiLowerChar 'm'
    (Text.asciiLower "CMC".toList) ⟨false, 'm'⟩ rfl (ofName before)
    (("PD".toList ++ rest).map ofInner) 0 (by simp)
  -- neither the small m nor P nor D begins the other acronym
  have hkept : join Text.asciiLowerChar 'm' (Text.asciiLower "CMC".toList) 0
      (⟨false, 'm'⟩ :: ("PD".toList ++ rest).map ofInner) =
        ⟨false, 'm'⟩ :: ⟨true, 'P'⟩ :: ⟨true, 'D'⟩ ::
          join Text.asciiLowerChar 'm' (Text.asciiLower "CMC".toList) 0 (rest.map ofInner) := rfl
  rw [hletters, hscan, hkept] at hregular
  rw [commandLetters, hletters, hscan, hkept, ← hjoined]
  exact behind_small 'P' "D".toList _ _ (by decide) hregular rfl

/-- The command splits a name where the label does, exactly when no small m stands in it
before the rest of an acronym. -/
theorem command_of_label :
    command NameRule.defaults name =
        Text.replaceAll " ".toList "\\_".toList (Text.asciiLower (label NameRule.defaults name)) ↔
      Text.occursIn "mCMC".toList name = false ∧ Text.occursIn "mPD".toList name = false := by
  rw [command_spell name h, label_separated name h]
  constructor
  · intro hsame
    have hchars : (commandLetters name).map char = (labelLetters name).map char := by
      simp only [commandLetters, labelLetters, join_chars]
    have hletters := spell_injective '\\' ['_'] _ _ _ hchars
      (regular_unlike _ (Or.inr rfl) _ (by decide) _ (commandLetters_regular name h)) hsame
    -- behind the small m the label has a letter apart where the command has it joined
    constructor
    · by_contra hoccurs
      rw [Bool.not_eq_false] at hoccurs
      obtain ⟨before, rest, hname⟩ := Text.occursIn_split _ name hoccurs
      have hlabel := label_apart name 'C' before ("MC".toList ++ rest) (by decide) hname
      have hjoined := command_joined_first name h before rest hname
      cases behind_unique _ _ _ _ (hletters ▸ hjoined) hlabel
    · by_contra hoccurs
      rw [Bool.not_eq_false] at hoccurs
      obtain ⟨before, rest, hname⟩ := Text.occursIn_split _ name hoccurs
      have hlabel := label_apart name 'P' before ("D".toList ++ rest) (by decide) hname
      have hjoined := command_joined_second name h before rest hname
      cases behind_unique _ _ _ _ (hletters ▸ hjoined) hlabel
  · rintro ⟨hcmc, hpd⟩
    rw [letters_alike name h hcmc hpd]

end names

theorem command_of_label_repeated :
    "TeamMCMCMCAgeMPDMPD2".toList.all Text.isAlphanumeric = true ∧
      (command NameRule.defaults "TeamMCMCMCAgeMPDMPD2".toList =
          Text.replaceAll " ".toList "\\_".toList
            (Text.asciiLower (label NameRule.defaults "TeamMCMCMCAgeMPDMPD2".toList)) ↔
        Text.occursIn "mCMC".toList "TeamMCMCMCAgeMPDMPD2".toList = false ∧
          Text.occursIn "mPD".toList "TeamMCMCMCAgeMPDMPD2".toList = false) :=
  ⟨by decide, command_of_label _ (by decide)⟩

/-- The last letter of Team is taken for the first of an acronym. -/
theorem command_joins_small :
    "TeamCMC".toList.all Text.isAlphanumeric = true ∧
      command NameRule.defaults "TeamCMC".toList = "teamcmc".toList ∧
      Text.replaceAll " ".toList "\\_".toList
          (Text.asciiLower (label NameRule.defaults "TeamCMC".toList)) =
        "team\\_c\\_m\\_c".toList := by decide

end ParameterManual.Manual
