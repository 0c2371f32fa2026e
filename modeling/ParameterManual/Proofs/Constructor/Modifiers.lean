import ParameterManual.Constructor.Extraction
import ParameterManual.Proofs.Outcome

/-!
# Modifiers of a bind

A modifier reads its arguments and sets the fields they are for, whatever the
variable was before. So a chain sets each field as the last modifier of that
field does, and modifiers of different fields can change places.
-/

set_option autoImplicit false

namespace ParameterManual.Constructor

def lowerName : Text := "set_lower_bound".toList

def upperName : Text := "set_upper_bound".toList

def rangeName : Text := "set_range".toList

def valuesName : Text := "set_allowed_values".toList

def ModifierKind.name : ModifierKind → Text
  | .lowerBound => lowerName
  | .upperBound => upperName
  | .range => rangeName
  | .allowedValues => valuesName

def isKnown (m : Modifier) : Bool := (ModifierKind.ofName? m.name).isSome

def SetsLower (m : Modifier) : Prop := m.name = lowerName ∨ m.name = rangeName

def SetsUpper (m : Modifier) : Prop := m.name = upperName ∨ m.name = rangeName

def SetsValues (m : Modifier) : Prop := m.name = valuesName

structure Apart (m n : Modifier) : Prop where
  lower : ¬ (SetsLower m ∧ SetsLower n)
  upper : ¬ (SetsUpper m ∧ SetsUpper n)
  values : ¬ (SetsValues m ∧ SetsValues n)

/-- The fields that a modifier sets. -/
structure Setting where
  lowerBound : Option Bound
  upperBound : Option Bound
  allowedValues : Option (List Text)

def Setting.on (v : Variable) (s : Setting) : Variable :=
  { v with
    lowerBound := s.lowerBound.or v.lowerBound
    upperBound := s.upperBound.or v.upperBound
    allowedValues := s.allowedValues.or v.allowedValues }

variable (scope : Scope) (l : Location)

structure SpellsBound (value : Text) (flag : Option Text) (b : Bound) : Prop where
  resolved : scope.resolve l value = .ok b.value
  flagged : ∀ t ∈ flag, booleanOf? t = some b.inclusive
  omitted : flag = none → b.inclusive = true

/-- What a modifier sets. The flags of a range stand behind its two values,
the one of the lower bound first. -/
inductive Sets : Modifier → Setting → Prop
  | lower (value : Text) (flags : List Text) (b : Bound) (few : flags.length ≤ 1)
      (spelled : SpellsBound scope l value flags[0]? b) :
      Sets ⟨lowerName, value :: flags⟩ ⟨some b, none, none⟩
  | upper (value : Text) (flags : List Text) (b : Bound) (few : flags.length ≤ 1)
      (spelled : SpellsBound scope l value flags[0]? b) :
      Sets ⟨upperName, value :: flags⟩ ⟨none, some b, none⟩
  | range (low high : Text) (flags : List Text) (b c : Bound) (few : flags.length ≤ 2)
      (below : SpellsBound scope l low flags[0]? b)
      (above : SpellsBound scope l high flags[1]? c) :
      Sets ⟨rangeName, low :: high :: flags⟩ ⟨some b, some c, none⟩
  | values (arguments values : List Text)
      (resolved : List.Forall₂ (fun t value => scope.resolve l t = .ok value)
        (listedValues arguments) values) :
      Sets ⟨valuesName, arguments⟩ ⟨none, none, some values⟩
  | nothing (m : Modifier) (unknown : isKnown m = false) : Sets m ⟨none, none, none⟩

def GivesLower (m : Modifier) (b : Bound) : Prop := ∃ s, Sets scope l m s ∧ s.lowerBound = some b

def GivesUpper (m : Modifier) (b : Bound) : Prop := ∃ s, Sets scope l m s ∧ s.upperBound = some b

def GivesValues (m : Modifier) (values : List Text) : Prop :=
  ∃ s, Sets scope l m s ∧ s.allowedValues = some values

/-- What a chain comes to for one field: what the last modifier of the field
gives, and nothing if there is none. -/
def LastGives {α : Type} (sets : Modifier → Prop) (gives : Modifier → α → Prop)
    (chain : List Modifier) : Option α → Prop
  | none => ∀ m ∈ chain, ¬ sets m
  | some a => ∃ before m after, chain = before ++ m :: after ∧ sets m ∧ gives m a ∧
      ∀ n ∈ after, ¬ sets n

theorem boolean_ok (t : Text) (b : Bool) : boolean l t = .ok b ↔ booleanOf? t = some b := by
  rw [boolean]
  cases booleanOf? t <;> simp

theorem boundOf_ok (value : Text) (flag : Option Text) (b : Bound) :
    boundOf scope l value flag = .ok b ↔ SpellsBound scope l value flag b := by
  rw [boundOf, bind_ok_iff]
  constructor
  · rintro ⟨text, htext, h⟩
    obtain ⟨inclusive, hflag, h⟩ := bind_ok h
    obtain rfl := Except.ok.inj h
    cases flag with
    | none =>
      obtain rfl := Except.ok.inj hflag
      exact ⟨htext, by simp, fun _ => rfl⟩
    | some t => exact ⟨htext, by simpa using (boolean_ok l t inclusive).mp hflag, by simp⟩
  · intro h
    refine ⟨b.value, h.resolved, bind_ok_iff.mpr ⟨b.inclusive, ?_, rfl⟩⟩
    cases flag with
    | none => rw [inclusiveFlag, h.omitted rfl]
    | some t => exact (boolean_ok l t b.inclusive).mpr (h.flagged t rfl)

theorem bounded_ok (bounded : Bound → Variable) (value : Text) (flag : Option Text)
    (w : Variable) :
    (do return bounded (← boundOf scope l value flag)) = Except.ok w ↔
      ∃ b, SpellsBound scope l value flag b ∧ w = bounded b := by
  rw [bind_ok_iff]
  simp only [boundOf_ok]
  constructor
  · rintro ⟨b, hb, h⟩
    exact ⟨b, hb, (Except.ok.inj h).symm⟩
  · rintro ⟨b, hb, rfl⟩
    exact ⟨b, hb, rfl⟩

theorem kind_named (name : Text) (kind : ModifierKind)
    (h : ModifierKind.ofName? name = some kind) : name = kind.name := by
  unfold ModifierKind.ofName? at h
  split at h
  · rename_i hname
    obtain rfl := Option.some.inj h
    exact hname
  · split at h
    · rename_i hname
      obtain rfl := Option.some.inj h
      exact hname
    · split at h
      · rename_i hname
        obtain rfl := Option.some.inj h
        exact hname
      · split at h
        · rename_i hname
          obtain rfl := Option.some.inj h
          exact hname
        · cases h

theorem kind_of_name (kind : ModifierKind) : ModifierKind.ofName? kind.name = some kind := by
  cases kind <;> decide

theorem single_ok (bounded : Bound → Variable) (arguments : List Text) (f : Failure)
    (w : Variable) :
    (match arguments with
      | [value] => do return bounded (← boundOf scope l value none)
      | [value, flag] => do return bounded (← boundOf scope l value (some flag))
      | _ => .error f) = Except.ok w ↔
      ∃ value flags b, arguments = value :: flags ∧ flags.length ≤ 1 ∧
        SpellsBound scope l value flags[0]? b ∧ w = bounded b := by
  rcases arguments with _ | ⟨value, _ | ⟨flag, _ | ⟨more, rest⟩⟩⟩
  · simp
  · refine (bounded_ok scope l bounded value none w).trans ?_
    simp
  · refine (bounded_ok scope l bounded value (some flag) w).trans ?_
    simp
  · simp

theorem range_ok (bounded : Bound → Bound → Variable) (arguments : List Text) (f : Failure)
    (w : Variable) :
    (match arguments with
      | low :: high :: flags =>
        if flags.length ≤ 2 then do
          let lower ← boundOf scope l low flags[0]?
          let upper ← boundOf scope l high flags[1]?
          return bounded lower upper
        else .error f
      | _ => .error f) = Except.ok w ↔
      ∃ low high flags b c, arguments = low :: high :: flags ∧ flags.length ≤ 2 ∧
        SpellsBound scope l low flags[0]? b ∧ SpellsBound scope l high flags[1]? c ∧
        w = bounded b c := by
  rcases arguments with _ | ⟨low, _ | ⟨high, flags⟩⟩
  · simp
  · simp
  · by_cases few : flags.length ≤ 2
    · simp only [few, if_true, bind_ok_iff, boundOf_ok]
      constructor
      · rintro ⟨b, below, c, above, h⟩
        exact ⟨low, high, flags, b, c, rfl, few, below, above, (Except.ok.inj h).symm⟩
      · rintro ⟨_, _, _, b, c, ⟨⟩, _, below, above, rfl⟩
        exact ⟨b, below, c, above, rfl⟩
    · simp only [few, if_false]
      constructor
      · intro h
        cases h
      · rintro ⟨_, _, _, _, _, ⟨⟩, hfew, _⟩
        exact absurd hfew few

theorem modifier_ok (v w : Variable) (m : Modifier) :
    applyModifier scope l v m = .ok w ↔ ∃ s, Sets scope l m s ∧ w = Setting.on v s := by
  obtain ⟨name, arguments⟩ := m
  constructor
  · intro h
    cases hkind : ModifierKind.ofName? name with
    | none =>
      simp only [applyModifier, hkind] at h
      obtain rfl := Except.ok.inj h
      exact ⟨_, .nothing _ (by rw [isKnown, hkind, Option.isSome_none]), rfl⟩
    | some kind =>
      obtain rfl := kind_named name kind hkind
      cases kind with
      | lowerBound =>
        obtain ⟨value, flags, b, rfl, few, spelled, rfl⟩ := (single_ok scope l _ _ _ w).mp h
        exact ⟨_, .lower value flags b few spelled, rfl⟩
      | upperBound =>
        obtain ⟨value, flags, b, rfl, few, spelled, rfl⟩ := (single_ok scope l _ _ _ w).mp h
        exact ⟨_, .upper value flags b few spelled, rfl⟩
      | range =>
        obtain ⟨low, high, flags, b, c, rfl, few, below, above, rfl⟩ :=
          (range_ok scope l _ _ _ w).mp h
        exact ⟨_, .range low high flags b c few below above, rfl⟩
      | allowedValues =>
        obtain ⟨values, hvalues, h⟩ := bind_ok h
        obtain rfl := Except.ok.inj h
        exact ⟨_, .values arguments values ((mapM_ok _ _ values).mp hvalues), rfl⟩
  · rintro ⟨s, hs, rfl⟩
    cases hs with
    | lower value flags b few spelled =>
      exact (single_ok scope l _ _ _ _).mpr ⟨value, flags, b, rfl, few, spelled, rfl⟩
    | upper value flags b few spelled =>
      exact (single_ok scope l _ _ _ _).mpr ⟨value, flags, b, rfl, few, spelled, rfl⟩
    | range low high flags b c few below above =>
      exact (range_ok scope l _ _ _ _).mpr ⟨low, high, flags, b, c, rfl, few, below, above, rfl⟩
    | values arguments values resolved =>
      exact bind_ok_iff.mpr ⟨values, (mapM_ok _ _ values).mpr resolved, rfl⟩
    | nothing m unknown =>
      have hkind : ModifierKind.ofName? name = none := by simpa [isKnown] using unknown
      simp only [applyModifier, hkind]
      rfl

theorem names_differ : (lowerName ≠ upperName ∧ lowerName ≠ rangeName ∧ lowerName ≠ valuesName) ∧
    (upperName ≠ rangeName ∧ upperName ≠ valuesName) ∧ rangeName ≠ valuesName := by
  decide

theorem unknown_name (m : Modifier) (h : isKnown m = false) (kind : ModifierKind) :
    m.name ≠ kind.name := by
  intro hname
  rw [isKnown, hname, kind_of_name kind] at h
  cases h

theorem sets_fields (m : Modifier) (s : Setting) (h : Sets scope l m s) :
    (SetsLower m ↔ s.lowerBound ≠ none) ∧ (SetsUpper m ↔ s.upperBound ≠ none) ∧
      (SetsValues m ↔ s.allowedValues ≠ none) := by
  obtain ⟨⟨hlu, hlr, hlv⟩, ⟨hur, huv⟩, hrv⟩ := names_differ
  cases h with
  | lower => simp [SetsLower, SetsUpper, SetsValues, hlu, hlr, hlv]
  | upper => simp [SetsLower, SetsUpper, SetsValues, hlu.symm, hur, huv]
  | range => simp [SetsLower, SetsUpper, SetsValues, hrv]
  | values => simp [SetsLower, SetsUpper, SetsValues, hlv.symm, huv.symm, hrv.symm]
  | nothing m unknown =>
    have hname := unknown_name m unknown
    have hlower : ¬ SetsLower m := not_or.mpr ⟨hname .lowerBound, hname .range⟩
    have hupper : ¬ SetsUpper m := not_or.mpr ⟨hname .upperBound, hname .range⟩
    have hvalues : ¬ SetsValues m := hname .allowedValues
    simp [hlower, hupper, hvalues]

theorem chain_ok (modifiers : List Modifier) (v w : Variable) :
    modifiers.foldlM (applyModifier scope l) v = .ok w ↔
      ∃ settings, List.Forall₂ (Sets scope l) modifiers settings ∧
        w = settings.foldl Setting.on v := by
  induction modifiers generalizing v with
  | nil =>
    simp only [List.foldlM_nil, List.forall₂_nil_left_iff, exists_eq_left, List.foldl_nil]
    exact ⟨fun h => (Except.ok.inj h).symm, fun h => h ▸ rfl⟩
  | cons m rest ih =>
    rw [List.foldlM_cons, bind_ok_iff]
    constructor
    · rintro ⟨next, hnext, hrest⟩
      obtain ⟨s, hs, rfl⟩ := (modifier_ok scope l v next m).mp hnext
      obtain ⟨settings, hsettings, rfl⟩ := (ih (Setting.on v s)).mp hrest
      exact ⟨s :: settings, .cons hs hsettings, rfl⟩
    · rintro ⟨_, hall, rfl⟩
      obtain ⟨s, settings, hs, hsettings, rfl⟩ := List.forall₂_cons_left_iff.mp hall
      exact ⟨_, (modifier_ok scope l v _ m).mpr ⟨s, hs, rfl⟩,
        (ih (Setting.on v s)).mpr ⟨settings, hsettings, rfl⟩⟩

section fields

variable {α : Type} (field : Setting → Option α) (sets : Modifier → Prop)
  (hsets : ∀ m s, Sets scope l m s → (sets m ↔ field s ≠ none))
include hsets

/-- A chain leaves a field as it is, or gives it what its last modifier of the
field gives. -/
theorem chain_field (modifiers : List Modifier) (settings : List Setting)
    (h : List.Forall₂ (Sets scope l) modifiers settings) (start : Option α) :
    ((∀ m ∈ modifiers, ¬ sets m) ∧
        settings.foldl (fun a s => (field s).or a) start = start) ∨
      ∃ before m after s a, modifiers = before ++ m :: after ∧ Sets scope l m s ∧
        field s = some a ∧ (∀ n ∈ after, ¬ sets n) ∧
        settings.foldl (fun a s => (field s).or a) start = some a := by
  induction h generalizing start with
  | nil => exact Or.inl ⟨by simp, rfl⟩
  | @cons m s rest settings hs _ ih =>
    rw [List.foldl_cons]
    rcases ih ((field s).or start) with ⟨hnone, hrest⟩ | ⟨before, n, after, t, a, rfl, hlast⟩
    · rw [hrest]
      cases hfield : field s with
      | none =>
        left
        have hm : ¬ sets m := fun hm => (hsets m s hs).mp hm hfield
        exact ⟨List.forall_mem_cons.mpr ⟨hm, hnone⟩, rfl⟩
      | some a =>
        right
        exact ⟨[], m, rest, s, a, rfl, hs, hfield, hnone, rfl⟩
    · right
      exact ⟨m :: before, n, after, t, a, rfl, hlast⟩

theorem chain_last (modifiers : List Modifier) (settings : List Setting)
    (h : List.Forall₂ (Sets scope l) modifiers settings) :
    LastGives sets (fun m a => ∃ s, Sets scope l m s ∧ field s = some a) modifiers
      (settings.foldl (fun a s => (field s).or a) none) := by
  rcases chain_field scope l field sets hsets modifiers settings h none with
    ⟨hnone, hrest⟩ | ⟨before, m, after, s, a, hsplit, hs, hfield, hlast, hrest⟩
  · rw [hrest]
    exact hnone
  · rw [hrest]
    have hm : sets m := (hsets m s hs).mpr (by simp [hfield])
    exact ⟨before, m, after, hsplit, hm, ⟨s, hs, hfield⟩, hlast⟩

end fields

theorem settings_on (settings : List Setting) (v : Variable) :
    settings.foldl Setting.on v = { v with
      lowerBound := settings.foldl (fun a s => s.lowerBound.or a) v.lowerBound
      upperBound := settings.foldl (fun a s => s.upperBound.or a) v.upperBound
      allowedValues := settings.foldl (fun a s => s.allowedValues.or a) v.allowedValues } := by
  induction settings generalizing v with
  | nil => rfl
  | cons s rest ih => exact ih (Setting.on v s)

theorem bind_modifiers (arguments : List Text) (modifiers : List Modifier) :
    bindVariable scope l arguments modifiers = (do
      let v ← bindVariable scope l arguments []
      modifiers.foldlM (applyModifier scope l) v) := by
  unfold bindVariable
  split
  · split
    · simp
    · rfl
  · rfl

theorem unknown_nothing (m : Modifier) (h : isKnown m = false) (v : Variable) :
    applyModifier scope l v m = .ok v :=
  (modifier_ok scope l v v m).mpr ⟨⟨none, none, none⟩, .nothing m h, rfl⟩

theorem chain_known (modifiers : List Modifier) (v : Variable) :
    (modifiers.filter isKnown).foldlM (applyModifier scope l) v =
      modifiers.foldlM (applyModifier scope l) v := by
  induction modifiers generalizing v with
  | nil => rfl
  | cons m rest ih =>
    cases hm : isKnown m with
    | true =>
      rw [List.filter_cons_of_pos hm, List.foldlM_cons, List.foldlM_cons]
      congr 1
      funext next
      exact ih next
    | false =>
      rw [List.filter_cons_of_neg (by simp [hm]), List.foldlM_cons, unknown_nothing scope l m hm v]
      exact ih v

theorem or_comm_apart {α : Type} (a b c : Option α) (h : ¬ (a ≠ none ∧ b ≠ none)) :
    b.or (a.or c) = a.or (b.or c) := by
  cases a with
  | none => rfl
  | some a =>
    cases b with
    | none => rfl
    | some b => simp at h

/-- Settings of different fields can change places. -/
theorem settings_exchange (m n : Modifier) (s t : Setting) (hs : Sets scope l m s)
    (ht : Sets scope l n t) (h : Apart m n) (v : Variable) :
    Setting.on (Setting.on v s) t = Setting.on (Setting.on v t) s := by
  obtain ⟨slower, supper, svalues⟩ := sets_fields scope l m s hs
  obtain ⟨tlower, tupper, tvalues⟩ := sets_fields scope l n t ht
  have hlower := h.lower
  have hupper := h.upper
  have hvalues := h.values
  rw [slower, tlower] at hlower
  rw [supper, tupper] at hupper
  rw [svalues, tvalues] at hvalues
  simp only [Setting.on, or_comm_apart _ _ _ hlower, or_comm_apart _ _ _ hupper,
    or_comm_apart _ _ _ hvalues]

theorem chain_exchange (before after : List Modifier) (m n : Modifier) (h : Apart m n)
    (v w : Variable)
    (hr : (before ++ m :: n :: after).foldlM (applyModifier scope l) v = .ok w) :
    (before ++ n :: m :: after).foldlM (applyModifier scope l) v = .ok w := by
  rw [List.foldlM_append] at hr ⊢
  obtain ⟨u, hu, hr⟩ := bind_ok hr
  rw [List.foldlM_cons] at hr
  obtain ⟨u₁, hm, hr⟩ := bind_ok hr
  rw [List.foldlM_cons] at hr
  obtain ⟨u₂, hn, hr⟩ := bind_ok hr
  obtain ⟨s, hs, rfl⟩ := (modifier_ok scope l u u₁ m).mp hm
  obtain ⟨t, ht, rfl⟩ := (modifier_ok scope l _ u₂ n).mp hn
  have hfirst : applyModifier scope l u n = .ok (Setting.on u t) :=
    (modifier_ok scope l u _ n).mpr ⟨t, ht, rfl⟩
  have hsecond : applyModifier scope l (Setting.on u t) m =
      .ok (Setting.on (Setting.on u s) t) :=
    (modifier_ok scope l _ _ m).mpr ⟨s, hs, settings_exchange scope l m n s t hs ht h u⟩
  exact bind_ok_iff.mpr ⟨u, hu, bind_ok_iff.mpr ⟨_, hfirst, bind_ok_iff.mpr ⟨_, hsecond, hr⟩⟩⟩

structure Unset (v : Variable) : Prop where
  lower : v.lowerBound = none
  upper : v.upperBound = none
  values : v.allowedValues = none

theorem bound_unset (kind : BindKind) (label member description value : Text) (v : Variable)
    (h : boundVariable scope l kind label member description value = .ok v) : Unset v := by
  rw [boundVariable] at h
  split at h
  · obtain ⟨name, -, h⟩ := bind_ok h
    obtain ⟨typeName, -, h⟩ := bind_ok h
    obtain rfl := Except.ok.inj h
    exact ⟨rfl, rfl, rfl⟩
  · cases h

theorem fifth_unset (v w : Variable) (t : Text) (hv : Unset v)
    (h : withFifth scope l v t = .ok w) : Unset w := by
  unfold withFifth at h
  split at h
  · obtain rfl := Except.ok.inj h
    exact { hv with }
  · obtain ⟨text, -, h⟩ := bind_ok h
    obtain rfl := Except.ok.inj h
    split
    · exact hv
    · exact { hv with }

theorem bind_unset (arguments : List Text) (v : Variable)
    (h : bindVariable scope l arguments [] = .ok v) : Unset v := by
  unfold bindVariable at h
  split at h
  · rename_i label member description value more
    split at h
    · obtain ⟨bound, hbound, h⟩ := bind_ok h
      obtain ⟨whole, hwhole, h⟩ := bind_ok h
      obtain rfl := Except.ok.inj h
      have hplain := bound_unset scope l .parameter label member description value bound hbound
      exact foldlM_kept (withFifth scope l) Unset more
        (fun t _ u w hu hw => fifth_unset scope l u w t hu hw) bound whole hplain hwhole
    · cases h
  · cases h

structure Chained (arguments : List Text) (modifiers : List Modifier) (v : Variable) : Prop where
  /-- All other fields are those of the bind without its modifiers. -/
  frame : ∃ plain, bindVariable scope l arguments [] = .ok plain ∧
    v = { plain with
      lowerBound := v.lowerBound, upperBound := v.upperBound, allowedValues := v.allowedValues }
  lower : LastGives SetsLower (GivesLower scope l) modifiers v.lowerBound
  upper : LastGives SetsUpper (GivesUpper scope l) modifiers v.upperBound
  values : LastGives SetsValues (GivesValues scope l) modifiers v.allowedValues
  known : bindVariable scope l arguments (modifiers.filter isKnown) = .ok v
  exchange : ∀ before m n after, modifiers = before ++ m :: n :: after → Apart m n →
    bindVariable scope l arguments (before ++ n :: m :: after) = .ok v

/-- Bounds and allowed values of a bound variable are what the last modifiers
of each in the chain give, and no other field depends on the chain. Modifiers
that are not known can be left out, and neighbours that set different fields
can change places. -/
theorem bind_chained (arguments : List Text) (modifiers : List Modifier) (v : Variable)
    (h : bindVariable scope l arguments modifiers = .ok v) :
    Chained scope l arguments modifiers v := by
  have hbind := h
  rw [bind_modifiers] at h
  obtain ⟨plain, hplain, hchain⟩ := bind_ok h
  obtain ⟨settings, hsettings, hv⟩ := (chain_ok scope l modifiers plain v).mp hchain
  obtain ⟨hlower, hupper, hvalues⟩ := bind_unset scope l arguments plain hplain
  rw [settings_on, hlower, hupper, hvalues] at hv
  constructor
  · exact ⟨plain, hplain, by rw [hv]⟩
  · rw [hv]
    exact chain_last scope l Setting.lowerBound SetsLower
      (fun m s hs => (sets_fields scope l m s hs).1) modifiers settings hsettings
  · rw [hv]
    exact chain_last scope l Setting.upperBound SetsUpper
      (fun m s hs => (sets_fields scope l m s hs).2.1) modifiers settings hsettings
  · rw [hv]
    exact chain_last scope l Setting.allowedValues SetsValues
      (fun m s hs => (sets_fields scope l m s hs).2.2) modifiers settings hsettings
  · rw [bind_modifiers, hplain]
    exact (chain_known scope l modifiers plain).trans hchain
  · rintro before m n after rfl hapart
    rw [bind_modifiers, hplain]
    exact chain_exchange scope l before after m n hapart plain v hchain

def chainScope : Scope where
  className := "A".toList
  translations := (TranslationTable.withPrefix "PARAM".toList).insert
    "PARAM_B".toList "b".toList
  members := [("b_".toList, "Double".toList)]
  inherited := []

def chainPlace : Location := ⟨"A.cpp".toList, 2⟩

def chainArguments : List Text :=
  ["PARAM_B".toList, "&b_".toList, "\"\"".toList, "\"\"".toList]

def chain : List Modifier :=
  [⟨rangeName, ["1".toList, "9".toList, "false".toList]⟩,
    ⟨"set_is_optional".toList, ["true".toList]⟩,
    ⟨lowerName, ["Double(2)".toList]⟩,
    ⟨valuesName, ["\x7b2, 3\x7d".toList]⟩]

theorem bind_chained_range :
    ∃ v, bindVariable chainScope chainPlace chainArguments chain = .ok v ∧
      v.lowerBound = some ⟨"2".toList, true⟩ ∧ v.upperBound = some ⟨"9".toList, true⟩ ∧
      v.allowedValues = some ["2".toList, "3".toList] ∧
      Chained chainScope chainPlace chainArguments chain v := by
  have hset : ((bindVariable chainScope chainPlace chainArguments chain).map
      (fun v => (v.lowerBound, v.upperBound, v.allowedValues))).toOption =
        some (some ⟨"2".toList, true⟩, some ⟨"9".toList, true⟩,
          some ["2".toList, "3".toList]) := by
    decide +kernel
  obtain ⟨v, hv, hfields⟩ := ok_measured _ _ hset
  obtain ⟨hlower, hrest⟩ := Prod.mk.inj hfields
  obtain ⟨hupper, hvalues⟩ := Prod.mk.inj hrest
  exact ⟨v, hv, hlower, hupper, hvalues, bind_chained chainScope chainPlace chainArguments chain v hv⟩

end ParameterManual.Constructor
