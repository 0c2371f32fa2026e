import Mathlib.Data.List.Basic
import ParameterManual.CommandLine.Arguments
import ParameterManual.Proofs.Text.Spacing

/-!
# Reading arguments

Arguments are read exactly if they spell options, one after another, none of
which is refused where it stands. An option other than a category is taken
once, and options of different names can come in any order.
-/

set_option autoImplicit false

namespace ParameterManual.CommandLine
open Text

def OptionName.text : OptionName → Text
  | .config => "config".toList
  | .sourceRoot => "source-root".toList
  | .translations => "translations".toList
  | .output => "output".toList
  | .category => "category".toList
  | .jobs => "jobs".toList
  | .json => "json".toList
  | .typeset => "typeset".toList

theorem name_iff (t : Text) (name : OptionName) :
    OptionName.ofText? t = some name ↔ t = name.text := by
  constructor
  · intro h
    obtain ⟨⟨spelled, found⟩, hm, hfound⟩ := List.exists_of_findSome?_eq_some h
    split at hfound
    · rename_i htext
      obtain rfl := Option.some.inj hfound
      rw [← htext]
      simp only [List.mem_cons, Prod.mk.injEq, List.not_mem_nil, or_false] at hm
      rcases hm with ⟨rfl, rfl⟩ | ⟨rfl, rfl⟩ | ⟨rfl, rfl⟩ | ⟨rfl, rfl⟩ | ⟨rfl, rfl⟩ | ⟨rfl, rfl⟩ |
        ⟨rfl, rfl⟩ | ⟨rfl, rfl⟩ <;> rfl
    · cases hfound
  · rintro rfl
    cases name <;> rfl

theorem name_other (name : OptionName) :
    name.text ≠ "help".toList ∧ name.text ≠ "verbose".toList ∧ '=' ∉ name.text := by
  cases name <;> decide

def tail : Option Text → Text
  | none => []
  | some value => '=' :: value

theorem long_option (t : Text) (name : OptionName) (value : Option Text) :
    longRequest t = .option name value ↔ t = name.text ++ tail value := by
  obtain ⟨hhelp, hverbose, hmark⟩ := name_other name
  constructor
  · intro h
    rw [longRequest] at h
    split at h
    · split at h <;> cases h
    · split at h
      · split at h <;> cases h
      · split at h
        · rename_i found hname
          obtain ⟨rfl, hvalue⟩ := Request.option.inj h
          rw [name_iff] at hname
          rw [← List.takeWhile_append_dropWhile (p := (· != '=')) (l := t), hname, ← hvalue]
          cases hdrop : t.dropWhile (· != '=') with
          | nil => rfl
          | cons c rest =>
            have hc : c = '=' := by
              simpa [hdrop] using List.head_dropWhile_not (· != '=') (l := t) (by simp [hdrop])
            rw [hc]
            rfl
        · cases h
  · rintro rfl
    have hplain : ∀ c ∈ name.text, (c != '=') = true := by
      intro c hc
      rw [bne_iff_ne]
      rintro rfl
      exact hmark hc
    rw [longRequest]
    cases value with
    | none =>
      have htake : (name.text ++ tail none).takeWhile (· != '=') = name.text := by
        rw [tail, List.append_nil]
        exact List.takeWhile_eq_self_iff.mpr hplain
      have hdrop : (name.text ++ tail none).dropWhile (· != '=') = [] := by
        rw [tail, List.append_nil]
        exact List.dropWhile_eq_nil_iff.mpr hplain
      simp only [htake, hdrop, hhelp, hverbose, (name_iff _ name).mpr rfl, if_false]
    | some value =>
      have htake := takeWhile_stopped (· != '=') name.text ('=' :: value) hplain rfl
      have hdrop : (name.text ++ '=' :: value).dropWhile (· != '=') = '=' :: value :=
        List.dropWhile_append_of_pos hplain
      simp only [tail, htake, hdrop, hhelp, hverbose, (name_iff _ name).mpr rfl, if_false]

theorem long_nothing (t : Text) (h : longRequest t = .nothing) : t = "verbose".toList := by
  have hsplit := List.takeWhile_append_dropWhile (p := (· != '=')) (l := t)
  rw [longRequest] at h
  cases hdrop : t.dropWhile (· != '=') with
  | nil =>
    simp only [hdrop, List.append_nil] at h hsplit
    rw [hsplit] at h
    split at h
    · cases h
    · split at h
      · assumption
      · split at h <;> cases h
  | cons c rest =>
    simp only [hdrop] at h
    split at h
    · cases h
    · split at h
      · cases h
      · split at h <;> cases h

theorem long_closing (t : Text) : longRequest t ≠ .noMoreOptions := by
  rw [longRequest]
  split
  · split <;> simp
  · split
    · split <;> simp
    · split <;> simp

theorem letters_nothing (t : Text) :
    shortRequest t = .nothing ↔ t = List.replicate t.length 'v' := by
  induction t with
  | nil => exact iff_of_true rfl rfl
  | cons c t ih =>
    rw [shortRequest.eq_def]
    split
    · exact absurd ‹_› (by simp)
    · rename_i h
      obtain ⟨rfl, rfl⟩ := List.cons.inj h
      simpa [List.replicate_succ] using ih
    · rename_i h
      obtain ⟨rfl, rfl⟩ := List.cons.inj h
      simp [List.replicate_succ]
    · rename_i hv _
      refine iff_of_false (by simp) (fun h => ?_)
      rw [List.length_cons, List.replicate_succ] at h
      exact hv t (by rw [(List.cons.inj h).1])

theorem letters_free (t : Text) (name : OptionName) (value : Option Text) :
    shortRequest t ≠ .option name value ∧ shortRequest t ≠ .noMoreOptions := by
  fun_induction shortRequest t with
  | case1 => exact ⟨by simp, by simp⟩
  | case2 t ih => exact ih
  | case3 => exact ⟨by simp, by simp⟩
  | case4 => exact ⟨by simp, by simp⟩

theorem request_long (t : Text) (h : t ≠ []) : request ("--".toList ++ t) = longRequest t := by
  cases t with
  | nil => exact absurd rfl h
  | cons c t => rfl

theorem request_cases (t : Text) :
    (t = "--".toList ∧ request t = .noMoreOptions) ∨
      (∃ u, t = "--".toList ++ u ∧ request t = longRequest u) ∨
      (∃ u, u ≠ [] ∧ t = '-' :: u ∧ request t = shortRequest u) ∨ request t = .misuse := by
  fun_cases request t with
  | case1 => exact Or.inl ⟨rfl, rfl⟩
  | case2 t => exact Or.inr (Or.inl ⟨t, rfl, rfl⟩)
  | case3 c t => exact Or.inr (Or.inr (Or.inl ⟨c :: t, by simp, rfl, rfl⟩))
  | case4 => exact Or.inr (Or.inr (Or.inr rfl))

theorem request_option (t : Text) (name : OptionName) (value : Option Text) :
    request t = .option name value ↔ t = "--".toList ++ (name.text ++ tail value) := by
  constructor
  · intro h
    obtain ⟨-, hr⟩ | ⟨u, rfl, hr⟩ | ⟨u, -, -, hr⟩ | hr := request_cases t
    · cases hr.symm.trans h
    · rw [(long_option u name value).mp (hr.symm.trans h)]
    · exact absurd (hr.symm.trans h) (letters_free u name value).1
    · cases hr.symm.trans h
  · rintro rfl
    have hlong : name.text ++ tail value ≠ [] := by
      cases name <;> exact List.cons_ne_nil _ _
    rw [request_long _ hlong, long_option]

theorem request_nothing (t : Text) (h : request t = .nothing) :
    t = "--verbose".toList ∨ ∃ n, t = '-' :: List.replicate (n + 1) 'v' := by
  obtain ⟨-, hr⟩ | ⟨u, rfl, hr⟩ | ⟨u, hu, rfl, hr⟩ | hr := request_cases t
  · cases hr.symm.trans h
  · rw [long_nothing u (hr.symm.trans h)]
    exact Or.inl rfl
  · obtain ⟨n, hn⟩ := Nat.exists_eq_succ_of_ne_zero (mt List.length_eq_zero_iff.mp hu)
    rw [(letters_nothing u).mp (hr.symm.trans h), hn]
    exact Or.inr ⟨n, rfl⟩
  · cases hr.symm.trans h

theorem request_closing (t : Text) (h : request t = .noMoreOptions) : t = "--".toList := by
  obtain ⟨ht, -⟩ | ⟨u, -, hr⟩ | ⟨u, -, -, hr⟩ | hr := request_cases t
  · exact ht
  · exact absurd (hr.symm.trans h) (long_closing u)
  · exact absurd (hr.symm.trans h) (letters_free u .config none).2
  · cases hr.symm.trans h

/-- One way to give an option or to ask for more messages. -/
inductive Spelling where
  | joined (name : OptionName) (value : Text)
  | apart (name : OptionName) (value : Text)
  | verbose
  | letters (more : Nat)

namespace Spelling

def Valid : Spelling → Prop
  | apart _ value => isOption value = false
  | _ => True

def words : Spelling → List Text
  | joined name value => ["--".toList ++ (name.text ++ tail (some value))]
  | apart name value => ["--".toList ++ (name.text ++ tail none), value]
  | verbose => ["--verbose".toList]
  | letters more => ['-' :: List.replicate (more + 1) 'v']

def name? : Spelling → Option OptionName
  | joined name _ => some name
  | apart name _ => some name
  | _ => none

def effect (a : Arguments) : Spelling → Option Arguments
  | joined name value => a.set? value name
  | apart name value => a.set? value name
  | _ => some a

end Spelling

def behind (a : Option Arguments) (t : List Text) : Invocation :=
  match a with
  | some a => parseFrom a none t
  | none => .misuse

theorem parse_word (a : Arguments) (s : Spelling) (t : List Text) (hs : s.Valid) :
    parseFrom a none (s.words ++ t) = behind (s.effect a) t := by
  cases s with
  | joined name value =>
    have hrequest := (request_option _ name (some value)).mpr rfl
    rw [Spelling.words, List.singleton_append, parseFrom]
    simp only [hrequest]
    rfl
  | apart name value =>
    have hrequest := (request_option _ name none).mpr rfl
    have hvalue : isOption value = false := hs
    rw [Spelling.words, List.cons_append, List.singleton_append, parseFrom]
    simp only [hrequest]
    rw [parseFrom, hvalue]
    rfl
  | verbose => rfl
  | letters more =>
    have hrequest : request ('-' :: List.replicate (more + 1) 'v') = .nothing :=
      (letters_nothing (List.replicate (more + 1) 'v')).mpr (by rw [List.length_replicate])
    rw [Spelling.words, List.singleton_append, parseFrom]
    simp only [hrequest]
    rfl

theorem parse_words (a : Arguments) (given : List Spelling) (t : List Text)
    (hgiven : ∀ s ∈ given, s.Valid) :
    parseFrom a none (given.flatMap Spelling.words ++ t) =
      behind (given.foldlM Spelling.effect a) t := by
  induction given generalizing a with
  | nil => rfl
  | cons s given ih =>
    obtain ⟨hs, hgiven⟩ := List.forall_mem_cons.mp hgiven
    rw [List.flatMap_cons, List.append_assoc, parse_word a s _ hs, List.foldlM_cons]
    cases s.effect a with
    | none => rfl
    | some a' => exact ih a' hgiven

/-- Arguments that spell options, with what is known before them and behind
them. Two dashes may close them. -/
def Spelled (a : Arguments) (t : List Text) (b : Arguments) : Prop :=
  ∃ given : List Spelling, (∀ s ∈ given, s.Valid) ∧ given.foldlM Spelling.effect a = some b ∧
    (t = given.flatMap Spelling.words ∨ t = given.flatMap Spelling.words ++ ["--".toList])

theorem spelled_more (a a' b : Arguments) (s : Spelling) (t : List Text) (hs : s.Valid)
    (heffect : s.effect a = some a') (h : Spelled a' t b) : Spelled a (s.words ++ t) b := by
  obtain ⟨given, hgiven, hfold, ht⟩ := h
  refine ⟨s :: given, List.forall_mem_cons.mpr ⟨hs, hgiven⟩, ?_, ?_⟩
  · rw [List.foldlM_cons, heffect]
    exact hfold
  · rw [List.flatMap_cons, List.append_assoc]
    exact ht.imp (congrArg _) (congrArg _)

theorem spelled_of_parse (t : List Text) (a b : Arguments)
    (h : parseFrom a none t = .document b) : Spelled a t b := by
  -- an option with its value takes two arguments, so the induction is on their number
  induction hn : t.length using Nat.strong_induction_on generalizing t a with
  | _ n ih =>
    subst hn
    cases t with
    | nil =>
      obtain rfl := Invocation.document.inj h
      exact ⟨[], by simp, rfl, Or.inl rfl⟩
    | cons first t =>
      rw [parseFrom] at h
      split at h
      · cases h
      · cases h
      · rename_i hrequest
        have hrest := ih t.length (by simp) t a h rfl
        rcases request_nothing first hrequest with rfl | ⟨more, rfl⟩
        · exact spelled_more a a b .verbose t trivial rfl hrest
        · exact spelled_more a a b (.letters more) t trivial rfl hrest
      · rename_i hrequest
        split at h
        · rename_i hempty
          obtain rfl := Invocation.document.inj h
          obtain rfl := List.isEmpty_iff.mp hempty
          exact ⟨[], by simp, rfl, Or.inr (by rw [request_closing first hrequest]; rfl)⟩
        · cases h
      · rename_i name hrequest
        obtain rfl := (request_option first name none).mp hrequest
        cases t with
        | nil => cases h
        | cons value t =>
          rw [parseFrom] at h
          split at h
          · cases h
          · rename_i hvalue
            split at h
            · rename_i a' hset
              have hrest := ih t.length (by simp only [List.length_cons]; omega) t a' h rfl
              exact spelled_more a a' b (.apart name value) t (Bool.eq_false_iff.mpr hvalue) hset
                hrest
            · cases h
      · rename_i name value hrequest
        obtain rfl := (request_option first name (some value)).mp hrequest
        split at h
        · rename_i a' hset
          have hrest := ih t.length (by simp) t a' h rfl
          exact spelled_more a a' b (.joined name value) t trivial hset hrest
        · cases h

/-- Arguments are read exactly if they spell options none of which is refused. -/
theorem parse_iff (t : List Text) (a : Arguments) :
    parse t = .document a ↔ Spelled Arguments.none t a := by
  constructor
  · exact spelled_of_parse t Arguments.none a
  · rintro ⟨given, hgiven, hfold, rfl | rfl⟩
    · rw [parse, ← List.append_nil (given.flatMap _), parse_words _ _ _ hgiven, hfold]
      rfl
    · rw [parse, parse_words _ _ _ hgiven, hfold]
      rfl

theorem parse_refused (given : List Spelling) (t : List Text) (hgiven : ∀ s ∈ given, s.Valid)
    (hfold : given.foldlM Spelling.effect Arguments.none = none) :
    parse (given.flatMap Spelling.words ++ t) = .misuse := by
  rw [parse, parse_words _ _ _ hgiven, hfold]
  rfl

theorem once_some {α : Type} (old new b : Option α) (h : once old new = some b) :
    old = none ∧ ∃ a, new = some a ∧ b = some a := by
  cases old with
  | none =>
    cases new with
    | none => cases h
    | some a => exact ⟨rfl, a, rfl, (Option.some.inj h).symm⟩
  | some a => cases h

/-- What makes it impossible to give an option once more. -/
def Taken (a : Arguments) (name : OptionName) : Prop := ∀ value, a.set? value name = none

theorem set_taken (a b : Arguments) (value : Text) (name : OptionName) (hname : name ≠ .category)
    (h : a.set? value name = some b) : Taken b name := by
  intro other
  cases name with
  | category => exact absurd rfl hname
  | _ =>
    obtain ⟨_, hset, h⟩ := Option.bind_eq_some_iff.mp h
    obtain rfl := Option.some.inj h
    obtain ⟨-, _, -, rfl⟩ := once_some _ _ _ hset
    rfl

theorem set_comm (a : Arguments) (value other : Text) (name second : OptionName)
    (h : name ≠ second) :
    (a.set? value name).bind (fun b => b.set? other second) =
      (a.set? other second).bind (fun b => b.set? value name) := by
  cases name <;> cases second <;> first
    | exact absurd rfl h
    | (simp only [Arguments.set?, Option.bind_eq_bind, Option.bind_assoc, Option.bind_some] <;>
        exact Option.bind_comm _ _)

theorem taken_kept (a b : Arguments) (value : Text) (name other : OptionName)
    (hother : Taken a other) (h : a.set? value name = some b) : Taken b other := by
  intro w
  by_cases heq : name = other
  · subst heq
    rw [hother value] at h
    cases h
  · have hcomm := set_comm a value w name other heq
    rw [h, hother w] at hcomm
    exact hcomm

theorem effect_option (s : Spelling) :
    (s.name? = none ∧ ∀ a, s.effect a = some a) ∨
      ∃ name value, s.name? = some name ∧ ∀ a : Arguments, s.effect a = a.set? value name := by
  cases s with
  | joined name value => exact Or.inr ⟨name, value, rfl, fun _ => rfl⟩
  | apart name value => exact Or.inr ⟨name, value, rfl, fun _ => rfl⟩
  | verbose => exact Or.inl ⟨rfl, fun _ => rfl⟩
  | letters more => exact Or.inl ⟨rfl, fun _ => rfl⟩

theorem taken_absent (a b : Arguments) (name : OptionName) (given : List Spelling)
    (htaken : Taken a name) (h : given.foldlM Spelling.effect a = some b) :
    ∀ s ∈ given, s.name? ≠ some name := by
  induction given generalizing a with
  | nil => simp
  | cons s given ih =>
    rw [List.foldlM_cons] at h
    obtain ⟨c, hs, h⟩ := Option.bind_eq_some_iff.mp h
    refine List.forall_mem_cons.mpr ?_
    rcases effect_option s with ⟨hname, hsame⟩ | ⟨own, value, hname, heffect⟩
    · rw [hsame] at hs
      obtain rfl := Option.some.inj hs
      exact ⟨by simp [hname], ih a htaken h⟩
    · rw [heffect] at hs
      refine ⟨?_, ih c (taken_kept a c value own name htaken hs) h⟩
      rintro heq
      obtain rfl := Option.some.inj (hname.symm.trans heq)
      rw [htaken value] at hs
      cases hs

/-- An option other than a category is given once. -/
theorem given_once (a b : Arguments) (name : OptionName) (given : List Spelling)
    (hname : name ≠ .category) (h : given.foldlM Spelling.effect a = some b) :
    given.countP (fun s => s.name? == some name) ≤ 1 := by
  induction given generalizing a with
  | nil => simp
  | cons s given ih =>
    rw [List.foldlM_cons] at h
    obtain ⟨c, hs, h⟩ := Option.bind_eq_some_iff.mp h
    by_cases hown : s.name? = some name
    · rcases effect_option s with ⟨hnone, -⟩ | ⟨own, value, hsome, heffect⟩
      · cases hnone.symm.trans hown
      · obtain rfl := Option.some.inj (hsome.symm.trans hown)
        rw [heffect] at hs
        have habsent := taken_absent c b own given (set_taken a c value own hname hs) h
        have hnever : given.countP (fun s => s.name? == some own) = 0 :=
          List.countP_eq_zero.mpr (fun s hm => by simpa using habsent s hm)
        rw [List.countP_cons, hnever]
        split <;> omega
    · rw [List.countP_cons_of_neg (by simpa using hown)]
      exact ih c h

theorem effect_comm (a : Arguments) (s s' : Spelling) (h : s.name? ≠ s'.name?) :
    (s.effect a).bind (fun b => s'.effect b) = (s'.effect a).bind (fun b => s.effect b) := by
  obtain ⟨-, hs⟩ | ⟨name, value, hname, hs⟩ := effect_option s
  · simp only [hs, Option.bind_some, Option.bind_fun_some]
  · obtain ⟨-, hs'⟩ | ⟨other, value', hother, hs'⟩ := effect_option s'
    · simp only [hs', Option.bind_some, Option.bind_fun_some]
    · have hne : name ≠ other := by
        rintro rfl
        exact h (hname.trans hother.symm)
      simp only [hs, hs']
      exact set_comm a value value' name other hne

/-- Options of different names can be given in either order. -/
theorem given_swapped (a : Arguments) (front back : List Spelling) (s s' : Spelling)
    (h : s.name? ≠ s'.name?) :
    (front ++ s :: s' :: back).foldlM Spelling.effect a =
      (front ++ s' :: s :: back).foldlM Spelling.effect a := by
  simp only [List.foldlM_append, List.foldlM_cons, Option.bind_eq_bind]
  congr 1
  funext b
  rw [← Option.bind_assoc, effect_comm b s s' h, Option.bind_assoc]

end ParameterManual.CommandLine
