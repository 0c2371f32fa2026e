import Mathlib.Tactic.Choose
import Mathlib.Tactic.Push
import ParameterManual.Proofs.Outcome
import ParameterManual.Proofs.Settings.Validity
import ParameterManual.Settings.Reader

/-!
# The fields of a settings file

Each field of the settings is decided by the entry of its own key and by
nothing else. A key that is left out keeps the standard value, and a key of no
field means nothing. What is read from a file is valid.
-/

set_option autoImplicit false

namespace ParameterManual.Settings

inductive Field where
  | sourceRoot
  | translations
  | outputFolder
  | symbolPrefix
  | childrenFolder
  | headerExtension
  | sourceExtension
  | categories
  | rules
  | aliases
  deriving DecidableEq

namespace Field

def key : Field → Text
  | sourceRoot => "source_root".toList
  | translations => "translations".toList
  | outputFolder => "output_dir".toList
  | symbolPrefix => "translation_prefix".toList
  | childrenFolder => "children_dir".toList
  | headerExtension => "header_extension".toList
  | sourceExtension => "source_extension".toList
  | categories => "categories".toList
  | rules => "name_rules".toList
  | aliases => "type_aliases".toList

/-- What the value under the key of a field, if there is one, makes of it. -/
def Reads (v : Option Toml) (settings : Settings) : Field → Prop
  | sourceRoot => optional stringOf? standard.sourceRoot v = some settings.sourceRoot
  | translations => optional (fun v => (stringOf? v).map some) none v = some settings.translations
  | outputFolder => optional stringOf? standard.outputFolder v = some settings.outputFolder
  | symbolPrefix => optional stringOf? standard.symbolPrefix v = some settings.symbolPrefix
  | childrenFolder => optional stringOf? standard.childrenFolder v = some settings.childrenFolder
  | headerExtension =>
    optional stringOf? standard.headerExtension v = some settings.headerExtension
  | sourceExtension =>
    optional stringOf? standard.sourceExtension v = some settings.sourceExtension
  | categories =>
    optional (listOf? categoryOf?) standard.categories v = some settings.categories
  | rules => optional (listOf? ruleOf?) standard.rules v = some settings.rules
  | aliases => optional aliasesOf? standard.aliases v = some settings.aliases

def Same (settings other : Settings) : Field → Prop
  | sourceRoot => settings.sourceRoot = other.sourceRoot
  | translations => settings.translations = other.translations
  | outputFolder => settings.outputFolder = other.outputFolder
  | symbolPrefix => settings.symbolPrefix = other.symbolPrefix
  | childrenFolder => settings.childrenFolder = other.childrenFolder
  | headerExtension => settings.headerExtension = other.headerExtension
  | sourceExtension => settings.sourceExtension = other.sourceExtension
  | categories => settings.categories = other.categories
  | rules => settings.rules = other.rules
  | aliases => settings.aliases = other.aliases

theorem reads_same (v : Option Toml) (settings other : Settings) (f : Field)
    (h : f.Reads v settings) (h' : f.Reads v other) : f.Same settings other := by
  cases f <;> exact Option.some.inj (h.symm.trans h')

theorem reads_standard (f : Field) : f.Reads none standard := by
  cases f <;> rfl

end Field

/-- Entries describe settings exactly if each field reads its own. -/
theorem entries_read (entries : List (Text × Toml)) (settings : Settings) :
    ofEntries? entries = some settings ↔
      ∀ f : Field, f.Reads (TextMap.find? f.key entries) settings := by
  constructor
  · intro h f
    obtain ⟨_, h1, h⟩ := Option.bind_eq_some_iff.mp h
    obtain ⟨_, h2, h⟩ := Option.bind_eq_some_iff.mp h
    obtain ⟨_, h3, h⟩ := Option.bind_eq_some_iff.mp h
    obtain ⟨_, h4, h⟩ := Option.bind_eq_some_iff.mp h
    obtain ⟨_, h5, h⟩ := Option.bind_eq_some_iff.mp h
    obtain ⟨_, h6, h⟩ := Option.bind_eq_some_iff.mp h
    obtain ⟨_, h7, h⟩ := Option.bind_eq_some_iff.mp h
    obtain ⟨_, h8, h⟩ := Option.bind_eq_some_iff.mp h
    obtain ⟨_, h9, h⟩ := Option.bind_eq_some_iff.mp h
    obtain ⟨_, h10, h⟩ := Option.bind_eq_some_iff.mp h
    obtain rfl := Option.some.inj h
    cases f with
    | sourceRoot => exact h1
    | translations => exact h2
    | outputFolder => exact h3
    | symbolPrefix => exact h4
    | childrenFolder => exact h5
    | headerExtension => exact h6
    | sourceExtension => exact h7
    | categories => exact h8
    | rules => exact h9
    | aliases => exact h10
  · intro h
    refine Option.bind_eq_some_iff.mpr ⟨_, h .sourceRoot, ?_⟩
    refine Option.bind_eq_some_iff.mpr ⟨_, h .translations, ?_⟩
    refine Option.bind_eq_some_iff.mpr ⟨_, h .outputFolder, ?_⟩
    refine Option.bind_eq_some_iff.mpr ⟨_, h .symbolPrefix, ?_⟩
    refine Option.bind_eq_some_iff.mpr ⟨_, h .childrenFolder, ?_⟩
    refine Option.bind_eq_some_iff.mpr ⟨_, h .headerExtension, ?_⟩
    refine Option.bind_eq_some_iff.mpr ⟨_, h .sourceExtension, ?_⟩
    refine Option.bind_eq_some_iff.mpr ⟨_, h .categories, ?_⟩
    refine Option.bind_eq_some_iff.mpr ⟨_, h .rules, ?_⟩
    exact Option.bind_eq_some_iff.mpr ⟨_, h .aliases, rfl⟩

theorem field_local (entries others : List (Text × Toml)) (settings other : Settings) (f : Field)
    (h : ofEntries? entries = some settings) (h' : ofEntries? others = some other)
    (hkey : TextMap.find? f.key entries = TextMap.find? f.key others) :
    f.Same settings other := by
  have hreads := (entries_read entries settings).mp h f
  rw [hkey] at hreads
  exact f.reads_same _ settings other hreads ((entries_read others other).mp h' f)

/-- A field that is left out keeps its standard value. -/
theorem omitted_standard (entries : List (Text × Toml)) (settings : Settings) (f : Field)
    (h : ofEntries? entries = some settings) (hkey : TextMap.find? f.key entries = none) :
    f.Same settings standard := by
  have hreads := (entries_read entries settings).mp h f
  rw [hkey] at hreads
  exact f.reads_same none settings standard hreads f.reads_standard

theorem unknown_ignored (entries others : List (Text × Toml))
    (h : ∀ f : Field, TextMap.find? f.key entries = TextMap.find? f.key others) :
    ofEntries? entries = ofEntries? others := by
  refine Option.ext (fun settings => ?_)
  rw [entries_read, entries_read]
  constructor
  · exact fun hreads f => h f ▸ hreads f
  · exact fun hreads f => (h f).symm ▸ hreads f

/-- Entries describe no settings exactly if some field cannot read its own. -/
theorem unreadable_iff (entries : List (Text × Toml)) :
    ofEntries? entries = none ↔
      ∃ f : Field, ∀ settings, ¬ f.Reads (TextMap.find? f.key entries) settings := by
  constructor
  · intro hnone
    by_contra hall
    push Not at hall
    choose own hown using hall
    -- the values that the fields read, put together
    have hsome : ofEntries? entries = some ⟨(own .sourceRoot).sourceRoot,
        (own .translations).translations, (own .outputFolder).outputFolder,
        (own .symbolPrefix).symbolPrefix, (own .childrenFolder).childrenFolder,
        (own .headerExtension).headerExtension, (own .sourceExtension).sourceExtension,
        (own .categories).categories, (own .rules).rules, (own .aliases).aliases⟩ := by
      rw [entries_read]
      intro f
      have hf := hown f
      cases f <;> exact hf
    rw [hsome] at hnone
    cases hnone
  · rintro ⟨f, hf⟩
    cases hentries : ofEntries? entries with
    | none => rfl
    | some settings => exact absurd ((entries_read entries settings).mp hentries f) (hf settings)

/-- A text is read exactly if it is a document whose fields are read and what
they say is valid. -/
theorem ofText_ok (t : Text) (settings : Settings) :
    ofText t = .ok settings ↔
      (∃ entries, Toml.document? t = some entries ∧
        ∀ f : Field, f.Reads (TextMap.find? f.key entries) settings) ∧ settings.Valid := by
  have hentries : (∃ entries, Toml.document? t = some entries ∧
      ∀ f : Field, f.Reads (TextMap.find? f.key entries) settings) ↔
        (Toml.document? t).bind ofEntries? = some settings := by
    rw [Option.bind_eq_some_iff]
    exact exists_congr
      (fun entries => and_congr_right (fun _ => (entries_read entries settings).symm))
  rw [hentries, ofText]
  cases (Toml.document? t).bind ofEntries? with
  | none => simp
  | some own =>
    rw [Option.some_inj]
    constructor
    · intro h
      obtain ⟨_, hvalidate, hsettings⟩ := bind_ok h
      obtain rfl := Except.ok.inj hsettings
      exact ⟨rfl, (validate_iff own).mp hvalidate⟩
    · rintro ⟨rfl, hvalid⟩
      simp only [(validate_iff own).mpr hvalid]
      rfl

theorem load_valid (tree : FileTree) (path : Path) (settings : Settings)
    (h : load tree path = .ok settings) : settings.Valid := by
  obtain ⟨t, -, ht⟩ := bind_ok h
  exact ((ofText_ok t settings).mp ht).2

theorem ofText_refused (t : Text) (f : Failure) (h : ofText t = .error f) :
    (f = .settings .unreadable ∧ (Toml.document? t).bind ofEntries? = none) ∨
      ∃ settings fault, (Toml.document? t).bind ofEntries? = some settings ∧
        f = .settings fault ∧ settings.Blames fault := by
  rw [ofText] at h
  split at h
  · rename_i hnone
    exact Or.inl ⟨(Except.error.inj h).symm, hnone⟩
  · rename_i settings hsome
    rw [validate] at h
    cases hfault : settings.fault? with
    | none =>
      rw [hfault] at h
      cases h
    | some fault =>
      rw [hfault] at h
      exact Or.inr ⟨settings, fault, hsome, (Except.error.inj h).symm,
        fault_blames settings fault hfault⟩

theorem empty_standard : ofText [] = .ok standard := by
  rw [ofText_ok]
  exact ⟨⟨[], rfl, fun f => f.reads_standard⟩, standard_valid⟩

end ParameterManual.Settings
