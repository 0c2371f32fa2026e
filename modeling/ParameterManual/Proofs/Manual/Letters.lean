import ParameterManual.Manual.Names
import ParameterManual.Proofs.Text.Replacing

/-!
# Names as letters

The command and the label of a name split it at the same places: before its
inner capitals. A name is taken here as a list of letters, some of which stand
apart, and a text for the manual spells them with a separator before each of
those and one form of each letter.
-/

set_option autoImplicit false

namespace ParameterManual

namespace Text

def isAlphanumeric (c : Char) : Bool := isAsciiUpper c || isAsciiLower c || isDigit c

theorem alphanumeric_ascii (c : Char) (h : isAlphanumeric c = true) : c.toNat < 0x80 := by
  simp only [isAlphanumeric, isAsciiUpper, isAsciiLower, isDigit, Bool.or_eq_true,
    Bool.and_eq_true, decide_eq_true_eq] at h
  rcases h with (⟨-, hc⟩ | ⟨-, hc⟩) | ⟨-, hc⟩
  · exact Nat.lt_of_le_of_lt (m := 0x5A) hc (by decide)
  · exact Nat.lt_of_le_of_lt (m := 0x7A) hc (by decide)
  · exact Nat.lt_of_le_of_lt (m := 0x39) hc (by decide)

theorem alphanumeric_property (p : Char → Prop)
    (h : ∀ n < 0x80, isAlphanumeric (Char.ofNat n) = true → p (Char.ofNat n)) (c : Char)
    (hc : isAlphanumeric c = true) : p c := by
  have hp := h c.toNat (alphanumeric_ascii c hc)
  rw [Char.ofNat_toNat] at hp
  exact hp hc

theorem upper_alphanumeric (c : Char) (h : isAsciiUpper c = true) : isAlphanumeric c = true := by
  rw [isAlphanumeric, h]
  rfl

theorem alphanumeric_word (c : Char) (h : isAlphanumeric c = true) : isWordChar c = true :=
  alphanumeric_property (fun c => isWordChar c = true) (by decide) c h

theorem alphanumeric_unseparated (c : Char) (h : isAlphanumeric c = true) :
    (c ∉ " \\_".toList) ∧ asciiLowerChar c ∉ " \\_".toList :=
  alphanumeric_property (fun c => (c ∉ " \\_".toList) ∧ asciiLowerChar c ∉ " \\_".toList)
    (by decide) c h

theorem lowered_small (c : Char) (h : isAlphanumeric c = true) :
    asciiLowerChar c = 'm' ↔ c = 'M' ∨ c = 'm' :=
  alphanumeric_property (fun c => asciiLowerChar c = 'm' ↔ c = 'M' ∨ c = 'm') (by decide) c h

theorem lowered_upper_inj (c d : Char) (hc : isAsciiUpper c = true) (hd : isAsciiUpper d = true) :
    asciiLowerChar c = asciiLowerChar d ↔ c = d := by
  have hback (c : Char) (hc : isAsciiUpper c = true) :
      Char.ofNat ((asciiLowerChar c).toNat - 32) = c :=
    alphanumeric_property
      (fun c => isAsciiUpper c = true → Char.ofNat ((asciiLowerChar c).toNat - 32) = c)
      (by decide) c (upper_alphanumeric c hc) hc
  constructor
  · intro h
    rw [← hback c hc, ← hback d hd, h]
  · exact congrArg asciiLowerChar

theorem lower_ascii (before t : Text) (h : ∀ c ∈ t, c.toNat < 0x80) :
    lowerAfter before t = asciiLower t := by
  induction t generalizing before with
  | nil => rfl
  | cons c t ih =>
    have hc := h c (by simp)
    have hsigma : c ≠ 'Σ' := by
      rintro rfl
      exact absurd hc (by decide)
    rw [lowerAfter, if_neg hsigma, lowerChar, if_pos hc, ih _ (fun d hd => h d (by simp [hd]))]
    rfl

end Text

namespace Manual

/-- A letter of a name, and whether a separator stands before it. -/
structure Letter where
  apart : Bool
  char : Char
  deriving DecidableEq, Repr

namespace Letter

def ofInner (c : Char) : Letter := ⟨Text.isAsciiUpper c, c⟩

def ofName : Text → List Letter
  | [] => []
  | c :: t => ⟨false, c⟩ :: t.map ofInner

def spell (separator : Text) (form : Char → Char) (letters : List Letter) : Text :=
  letters.flatMap (fun x => (if x.apart then separator else []) ++ [form x.char])

theorem spell_cons (separator : Text) (form : Char → Char) (x : Letter) (letters : List Letter) :
    spell separator form (x :: letters) =
      (if x.apart then separator else []) ++ form x.char :: spell separator form letters := by
  simp [spell]

theorem ofInner_chars (t : Text) : (t.map ofInner).map char = t := by
  rw [List.map_map]
  exact List.map_id t

theorem ofName_chars (name : Text) : (ofName name).map char = name := by
  cases name with
  | nil => rfl
  | cons c t => exact congrArg (c :: ·) (ofInner_chars t)

/-- Letters and digits of ASCII, of which only capitals stand apart. -/
def Regular (letters : List Letter) : Prop :=
  ∀ x ∈ letters, Text.isAlphanumeric x.char = true ∧
    (x.apart = true → Text.isAsciiUpper x.char = true)

theorem ofName_regular (name : Text) (h : name.all Text.isAlphanumeric = true) :
    Regular (ofName name) := by
  rw [List.all_eq_true] at h
  intro x hx
  refine ⟨h _ ((ofName_chars name) ▸ List.mem_map_of_mem hx), fun hapart => ?_⟩
  cases name with
  | nil => cases hx
  | cons c t =>
    rcases List.mem_cons.mp hx with rfl | hx
    · cases hapart
    · obtain ⟨c, -, rfl⟩ := List.mem_map.mp hx
      exact hapart

theorem ofName_split (u : Text) (c : Char) (w : Text) (hc : Text.isAsciiUpper c = false) :
    ofName (u ++ c :: w) = ofName u ++ ⟨false, c⟩ :: w.map ofInner := by
  have hinner : ofInner c = ⟨false, c⟩ := by rw [ofInner, hc]
  cases u with
  | nil => rfl
  | cons d u => simp [ofName, hinner]

theorem split_ofInner (separator : Text) (last : Char) (t : Text)
    (hlast : Text.isWordChar last = true) (ht : ∀ c ∈ t, Text.isAlphanumeric c = true) :
    splitCapitals separator (some last) t = spell separator id (t.map ofInner) := by
  induction t generalizing last with
  | nil => rfl
  | cons c t ih =>
    have hrest := ih c (Text.alphanumeric_word c (ht c (by simp))) (fun d hd => ht d (by simp [hd]))
    rw [splitCapitals, hrest, List.map_cons, spell_cons, Option.any_some, hlast, Bool.and_true]
    cases hupper : Text.isAsciiUpper c <;> simp [ofInner, hupper]

theorem split_spell (separator name : Text) (h : name.all Text.isAlphanumeric = true) :
    splitCapitals separator none name = spell separator id (ofName name) := by
  cases name with
  | nil => rfl
  | cons c t =>
    rw [List.all_cons, Bool.and_eq_true, List.all_eq_true] at h
    have hinner := split_ofInner separator c t (Text.alphanumeric_word c h.1) h.2
    rw [splitCapitals, ofName, spell_cons, hinner]
    simp

theorem lower_spell (separator : Text) (letters : List Letter) :
    Text.asciiLower (spell separator id letters) =
      spell (Text.asciiLower separator) Text.asciiLowerChar letters := by
  simp only [spell, Text.asciiLower, List.map_flatMap, List.map_append]
  refine List.flatMap_congr (fun x _ => ?_)
  split <;> rfl

theorem spell_ascii (separator : Text) (letters : List Letter)
    (hseparator : separator.all (fun c => c.toNat < 0x80) = true)
    (hletters : Regular letters) : ∀ c ∈ spell separator id letters, c.toNat < 0x80 := by
  intro c hc
  obtain ⟨x, hx, hc⟩ := List.mem_flatMap.mp hc
  rcases List.mem_append.mp hc with hc | hc
  · split at hc
    · simpa using List.all_eq_true.mp hseparator c hc
    · cases hc
  · rw [List.mem_singleton.mp hc]
    exact Text.alphanumeric_ascii x.char (hletters x hx).1

theorem regular_unlike (form : Char → Char) (hform : form = id ∨ form = Text.asciiLowerChar)
    (s : Char) (hs : s ∈ " \\_".toList) (letters : List Letter) (h : Regular letters) :
    ∀ x ∈ letters, form x.char ≠ s := by
  rintro x hx rfl
  have hx := Text.alphanumeric_unseparated x.char (h x hx).1
  rcases hform with rfl | rfl
  · exact hx.1 hs
  · exact hx.2 hs

theorem spell_without (c : Char) (separator : Text) (form : Char → Char) (letters : List Letter)
    (hseparator : c ∉ separator) (hletters : ∀ x ∈ letters, form x.char ≠ c) :
    c ∉ spell separator form letters := by
  intro hc
  obtain ⟨x, hx, hc⟩ := List.mem_flatMap.mp hc
  rcases List.mem_append.mp hc with hc | hc
  · split at hc
    · exact hseparator hc
    · cases hc
  · exact hletters x hx (List.mem_singleton.mp hc).symm

theorem separate_spell (separator : Text) (form : Char → Char) (letters : List Letter)
    (h : ∀ x ∈ letters, form x.char ≠ ' ') :
    Text.replaceAll [' '] separator (spell [' '] form letters) = spell separator form letters := by
  rw [Text.replace_character, spell, spell, List.flatMap_assoc]
  refine List.flatMap_congr (fun x hx => ?_)
  cases x.apart <;> simp [h x hx]

/-- A text spells the letters it is made of in one way. -/
theorem spell_injective (s : Char) (more : Text) (form : Char → Char) (xs ys : List Letter)
    (hchars : xs.map char = ys.map char) (hform : ∀ x ∈ xs, form x.char ≠ s)
    (h : spell (s :: more) form xs = spell (s :: more) form ys) : xs = ys := by
  induction xs generalizing ys with
  | nil => exact (List.map_eq_nil_iff.mp hchars.symm).symm
  | cons x xs ih =>
    cases ys with
    | nil => cases hchars
    | cons y ys =>
      obtain ⟨hchar, hchars⟩ := List.cons.inj hchars
      have hx := hform x (by simp)
      have hrest := ih ys hchars (fun x hx => hform x (by simp [hx]))
      obtain ⟨a, c⟩ := x
      obtain ⟨b, d⟩ := y
      obtain rfl : c = d := hchar
      rw [spell_cons, spell_cons] at h
      cases a <;> cases b
      · simp only [Bool.false_eq_true, if_false, List.nil_append, List.cons.injEq, true_and] at h
        rw [hrest h]
      · simp only [Bool.false_eq_true, if_false, if_true, List.nil_append, List.cons_append,
          List.cons.injEq] at h
        exact absurd h.1 hx
      · simp only [Bool.false_eq_true, if_false, if_true, List.nil_append, List.cons_append,
          List.cons.injEq] at h
        exact absurd h.1.symm hx
      · have htail := List.append_cancel_left h
        rw [hrest (List.cons.inj htail).2]

end Letter

end Manual

end ParameterManual
