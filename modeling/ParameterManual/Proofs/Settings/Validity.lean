import Mathlib.Data.List.Nodup
import ParameterManual.Settings

/-!
# Valid settings

Settings are valid if nothing that a path is made of is empty and no two
categories have the same folder. Of several faults the first in the order of
the checks is reported.
-/

set_option autoImplicit false

namespace ParameterManual.Settings

structure Valid (settings : Settings) : Prop where
  symbolPrefix : settings.symbolPrefix ≠ []
  headerExtension : settings.headerExtension ≠ []
  sourceExtension : settings.sourceExtension ≠ []
  childrenFolder : settings.childrenFolder ≠ []
  named : ∀ category ∈ settings.categories, category.folder ≠ []
  distinct : (settings.categories.map Category.folder).Nodup

/-- What a fault says is wrong with the settings. -/
def Blames (settings : Settings) : SettingsFault → Prop
  | .emptyPrefix => settings.symbolPrefix = []
  | .emptyExtension => settings.headerExtension = [] ∨ settings.sourceExtension = []
  | .emptyChildrenFolder => settings.childrenFolder = []
  | .emptyFolder => ∃ category ∈ settings.categories, category.folder = []
  | .repeatedCategory folder => ∃ before after, settings.categories.map Category.folder =
      before ++ folder :: after ∧ folder ∈ before
  | .unreadable | .unknownCategory _ => False

theorem categories_faultless (seen : List Text) (categories : List Category) :
    categoryFault? seen categories = none ↔
      (∀ category ∈ categories, category.folder ≠ [] ∧ category.folder ∉ seen) ∧
        (categories.map Category.folder).Nodup := by
  induction categories generalizing seen with
  | nil => simp [categoryFault?]
  | cons category rest ih =>
    rw [categoryFault?]
    by_cases hempty : category.folder = []
    · simp [hempty]
    · by_cases hseen : category.folder ∈ seen
      · simp [hempty, hseen]
      · rw [if_neg (by simpa using hempty), if_neg (by simpa using hseen), ih, List.map_cons,
          List.nodup_cons, List.forall_mem_cons, List.mem_map]
        constructor
        · rintro ⟨hrest, hnodup⟩
          refine ⟨⟨⟨hempty, hseen⟩, fun c hc => ?_⟩, ?_, hnodup⟩
          · exact ⟨(hrest c hc).1, fun hm => (hrest c hc).2 (List.mem_cons_of_mem _ hm)⟩
          · rintro ⟨c, hc, heq⟩
            exact (hrest c hc).2 (heq ▸ List.mem_cons_self)
        · rintro ⟨⟨-, hrest⟩, hfirst, hnodup⟩
          refine ⟨fun c hc => ⟨(hrest c hc).1, fun hm => ?_⟩, hnodup⟩
          rcases List.mem_cons.mp hm with heq | hm
          · exact hfirst ⟨c, hc, heq⟩
          · exact (hrest c hc).2 hm

theorem category_blamed (before : List Category) (categories : List Category)
    (fault : SettingsFault)
    (h : categoryFault? (before.map Category.folder).reverse categories = some fault) :
    (fault = .emptyFolder ∧ ∃ category ∈ categories, category.folder = []) ∨
      ∃ folder front back, fault = .repeatedCategory folder ∧
        (before ++ categories).map Category.folder = front ++ folder :: back ∧ folder ∈ front := by
  induction categories generalizing before with
  | nil => cases h
  | cons category rest ih =>
    rw [categoryFault?] at h
    split at h
    · rename_i hempty
      exact Or.inl ⟨(Option.some.inj h).symm, category, by simp, List.isEmpty_iff.mp hempty⟩
    · split at h
      · rename_i hseen
        refine Or.inr ⟨category.folder, before.map Category.folder, rest.map Category.folder,
          (Option.some.inj h).symm, by simp, ?_⟩
        simpa using hseen
      · have hrest : categoryFault? ((before ++ [category]).map Category.folder).reverse rest =
            some fault := by simpa using h
        rcases ih (before ++ [category]) hrest with ⟨hf, c, hc, hempty⟩ | hrepeated
        · exact Or.inl ⟨hf, c, List.mem_cons_of_mem _ hc, hempty⟩
        · rw [List.append_assoc] at hrepeated
          exact Or.inr hrepeated

/-- No fault is reported exactly of valid settings. -/
theorem faultless_iff (settings : Settings) : settings.fault? = none ↔ settings.Valid := by
  have hcategories := categories_faultless [] settings.categories
  rw [fault?]
  split
  · rename_i hempty
    exact iff_of_false (by simp) (fun h => h.symbolPrefix (List.isEmpty_iff.mp hempty))
  · rename_i hsymbols
    split
    · rename_i hempty
      refine iff_of_false (by simp) (fun h => ?_)
      rcases Bool.or_eq_true_iff.mp hempty with hempty | hempty
      · exact h.headerExtension (List.isEmpty_iff.mp hempty)
      · exact h.sourceExtension (List.isEmpty_iff.mp hempty)
    · rename_i hextension
      split
      · rename_i hempty
        exact iff_of_false (by simp) (fun h => h.childrenFolder (List.isEmpty_iff.mp hempty))
      · rename_i hchildren
        rw [hcategories]
        simp only [List.isEmpty_iff, Bool.or_eq_true, not_or] at hsymbols hextension hchildren
        constructor
        · rintro ⟨hnamed, hdistinct⟩
          exact ⟨hsymbols, hextension.1, hextension.2, hchildren, fun c hc => (hnamed c hc).1,
            hdistinct⟩
        · exact fun h => ⟨fun c hc => ⟨h.named c hc, by simp⟩, h.distinct⟩

theorem fault_blames (settings : Settings) (fault : SettingsFault)
    (h : settings.fault? = some fault) : settings.Blames fault := by
  rw [fault?] at h
  split at h
  · rename_i hempty
    obtain rfl := Option.some.inj h
    exact List.isEmpty_iff.mp hempty
  · split at h
    · rename_i hempty
      obtain rfl := Option.some.inj h
      simpa [Blames] using hempty
    · split at h
      · rename_i hempty
        obtain rfl := Option.some.inj h
        exact List.isEmpty_iff.mp hempty
      · rcases category_blamed [] settings.categories fault h with
          ⟨rfl, hempty⟩ | ⟨folder, front, back, rfl, hsplit, hm⟩
        · exact hempty
        · exact ⟨front, back, hsplit, hm⟩

theorem validate_iff (settings : Settings) : settings.validate = .ok () ↔ settings.Valid := by
  rw [← faultless_iff, validate]
  cases settings.fault? with
  | none => simp
  | some fault => simp

/-- Every standard value passes its own check. -/
theorem standard_valid : standard.Valid := (faultless_iff standard).mp (by decide +kernel)

theorem valid_paths (settings : Settings) (sourceRoot outputFolder : Path)
    (translations : Option Path) (h : settings.Valid) :
    Valid { settings with
      sourceRoot := sourceRoot, translations := translations, outputFolder := outputFolder } :=
  ⟨h.symbolPrefix, h.headerExtension, h.sourceExtension, h.childrenFolder, h.named, h.distinct⟩

/-- Categories are selected in catalog order, each at most once, and only if
all the names are folders of the catalog. -/
theorem select_ok (settings : Settings) (names : List Text) (selected : List Category) :
    settings.select names = .ok selected ↔
      (∀ name ∈ names, ∃ category ∈ settings.categories, category.folder = name) ∧
        selected = settings.categories.filter
          (fun category => names.isEmpty || names.contains category.folder) := by
  have hknown (name : Text) : (!settings.categories.any (fun c => c.folder == name)) = false ↔
      ∃ category ∈ settings.categories, category.folder = name := by simp
  rw [select]
  cases hfind : names.find? (fun name => !settings.categories.any (fun c => c.folder == name)) with
  | none =>
    have hall := List.find?_eq_none.mp hfind
    simp only [Except.ok.injEq]
    constructor
    · rintro rfl
      exact ⟨fun name hn => (hknown name).mp (Bool.eq_false_iff.mpr (hall name hn)), rfl⟩
    · exact fun h => h.2.symm
  | some unknown =>
    refine iff_of_false (by simp) (fun h => ?_)
    have hmem := List.mem_of_find?_eq_some hfind
    have hfalse := (hknown unknown).mpr (h.1 unknown hmem)
    rw [List.find?_some hfind] at hfalse
    cases hfalse

theorem selected_distinct (settings : Settings) (names : List Text) (selected : List Category)
    (hvalid : settings.Valid) (h : settings.select names = .ok selected) :
    (selected.map Category.folder).Nodup := by
  obtain ⟨-, rfl⟩ := (select_ok settings names selected).mp h
  exact hvalid.distinct.sublist (List.Sublist.map _ List.filter_sublist)

end ParameterManual.Settings
