import ParameterManual.Proofs.Settings.Fields
import ParameterManual.Proofs.Text.Entries
import ParameterManual.Proofs.Toml.Written

/-!
# Settings written out

Settings are written as a document with a line for each key, in the order of
the keys. Reading the document gives the settings back. So does reading a
document that was written for settings that were read.
-/

set_option autoImplicit false

namespace ParameterManual

def Category.toml (category : Category) : Toml :=
  .table ((category.base.map (fun t => ("base".toList, Toml.string t))).toList ++
    [("folder".toList, .string category.folder), ("nested".toList, .boolean category.nested),
      ("suppressed".toList, .array (category.suppressed.map .string))])

def Manual.NameRule.toml (rule : Manual.NameRule) : Toml :=
  .table [("from".toList, .string rule.source), ("to".toList, .string rule.target)]

namespace Settings

def aliasesToml (aliases : TextMap Text) : Toml :=
  .table (aliases.map (fun e => (e.1, .string e.2)))

def entries (settings : Settings) : List (Text × Toml) :=
  [("categories".toList, .array (settings.categories.map Category.toml)),
    ("children_dir".toList, .string settings.childrenFolder),
    ("header_extension".toList, .string settings.headerExtension),
    ("name_rules".toList, .array (settings.rules.map Manual.NameRule.toml)),
    ("output_dir".toList, .string settings.outputFolder),
    ("source_extension".toList, .string settings.sourceExtension),
    ("source_root".toList, .string settings.sourceRoot),
    ("translation_prefix".toList, .string settings.symbolPrefix)] ++
  (settings.translations.map (fun path => ("translations".toList, Toml.string path))).toList ++
  [("type_aliases".toList, aliasesToml settings.aliases)]

def text (settings : Settings) : Text := Toml.documentText settings.entries

theorem mapM_written {α β : Type} (read? : β → Option α) (write : α → β)
    (h : ∀ a, read? (write a) = some a) (list : List α) :
    (list.map write).mapM read? = some list := by
  induction list with
  | nil => rfl
  | cons a rest ih =>
    rw [List.map_cons, List.mapM_cons, h, ih]
    rfl

theorem category_read (category : Category) : categoryOf? category.toml = some category := by
  obtain ⟨folder, base, nested, suppressed⟩ := category
  have hlist : listOf? stringOf? (.array (suppressed.map .string)) = some suppressed :=
    mapM_written stringOf? .string (fun _ => rfl) suppressed
  cases base with
  | none =>
    change (do
      let suppressed ← listOf? stringOf? (.array (suppressed.map .string))
      some (⟨folder, none, nested, suppressed⟩ : Category)) = _
    rw [hlist]
    rfl
  | some base =>
    change (do
      let suppressed ← listOf? stringOf? (.array (suppressed.map .string))
      some (⟨folder, some base, nested, suppressed⟩ : Category)) = _
    rw [hlist]
    rfl

theorem rule_read (rule : Manual.NameRule) : ruleOf? rule.toml = some rule := rfl

theorem aliases_read (aliases : TextMap Text) (h : aliases.Sorted) :
    aliasesOf? (aliasesToml aliases) = some aliases := by
  have hentries : (aliases.map (fun e => (e.1, Toml.string e.2))).mapM
      (fun e => (stringOf? e.2).map (fun t => (e.1, t))) = some aliases :=
    mapM_written (fun e => (stringOf? e.2).map (fun t => (e.1, t)))
      (fun e => (e.1, Toml.string e.2)) (fun _ => rfl) aliases
  have hordered : TextMap.ofEntries aliases = aliases := TextMap.insertAll_sorted aliases [] h
  rw [aliasesToml, aliasesOf?, hentries, Option.map_some, hordered]

theorem entries_written (settings : Settings) (h : settings.aliases.Sorted) :
    ofEntries? settings.entries = some settings := by
  rw [entries_read]
  intro f
  have hcategories : optional (listOf? categoryOf?) standard.categories
      (some (.array (settings.categories.map Category.toml))) = some settings.categories :=
    mapM_written categoryOf? Category.toml category_read settings.categories
  have hrules : optional (listOf? ruleOf?) standard.rules
      (some (.array (settings.rules.map Manual.NameRule.toml))) = some settings.rules :=
    mapM_written ruleOf? Manual.NameRule.toml rule_read settings.rules
  have haliases : optional aliasesOf? standard.aliases (some (aliasesToml settings.aliases)) =
      some settings.aliases := aliases_read settings.aliases h
  obtain ⟨sourceRoot, translations, outputFolder, symbolPrefix, childrenFolder, headerExtension,
    sourceExtension, categories, rules, aliases⟩ := settings
  cases f with
  | categories => exact hcategories
  | rules => exact hrules
  | translations => cases translations <;> rfl
  | aliases => cases translations <;> exact haliases
  | _ => rfl

theorem sorted_of_keys {α : Type} (m : TextMap α) (names : List String)
    (hkeys : m.keys = names.map String.toList)
    (h : (names.map String.toList).Pairwise (· < ·)) : m.Sorted := by
  rw [TextMap.Sorted, hkeys]
  exact h

theorem plain_string (depth : Nat) (t : Text) : Toml.Plain depth (.string t) := by
  cases depth <;> trivial

theorem plain_list {α : Type} (depth : Nat) (write : α → Toml)
    (h : ∀ a, Toml.Plain depth (write a)) (list : List α) :
    Toml.Plain (depth + 1) (.array (list.map write)) := by
  intro item hm
  obtain ⟨a, -, rfl⟩ := List.mem_map.mp hm
  exact h a

theorem category_plain (depth : Nat) (category : Category) :
    Toml.Plain (depth + 2) category.toml := by
  obtain ⟨folder, base, nested, suppressed⟩ := category
  have hlist := plain_list depth Toml.string (plain_string depth) suppressed
  have hfields : ∀ e ∈ [("folder".toList, Toml.string folder), ("nested".toList, .boolean nested),
      ("suppressed".toList, .array (suppressed.map .string))], Toml.Plain (depth + 1) e.2 := by
    simp only [List.forall_mem_cons]
    exact ⟨trivial, trivial, hlist, by simp⟩
  cases base with
  | none => exact ⟨sorted_of_keys _ ["folder", "nested", "suppressed"] rfl (by decide), hfields⟩
  | some base =>
    exact ⟨sorted_of_keys _ ["base", "folder", "nested", "suppressed"] rfl (by decide),
      List.forall_mem_cons.mpr ⟨trivial, hfields⟩⟩

theorem rule_plain (depth : Nat) (rule : Manual.NameRule) : Toml.Plain (depth + 1) rule.toml := by
  refine ⟨sorted_of_keys _ ["from", "to"] rfl (by decide), ?_⟩
  simp only [List.forall_mem_cons]
  exact ⟨plain_string depth _, plain_string depth _, by simp⟩

theorem aliases_plain (depth : Nat) (aliases : TextMap Text) (h : aliases.Sorted) :
    Toml.Plain (depth + 1) (aliasesToml aliases) := by
  constructor
  · have hkeys : TextMap.keys (aliases.map (fun e => (e.1, Toml.string e.2))) =
        TextMap.keys aliases := by
      simp [TextMap.keys, Function.comp_def]
    rw [TextMap.Sorted, hkeys]
    exact h
  · intro e hm
    obtain ⟨d, -, rfl⟩ := List.mem_map.mp hm
    exact plain_string depth d.2

theorem entries_plain (settings : Settings) (h : settings.aliases.Sorted) :
    ∀ e ∈ settings.entries, Toml.Plain 79 e.2 := by
  have hcategories := plain_list 78 Category.toml (category_plain 76) settings.categories
  have hrules := plain_list 78 Manual.NameRule.toml (rule_plain 77) settings.rules
  have hstring := plain_string 79
  simp only [entries, List.forall_mem_append, List.forall_mem_cons]
  refine ⟨⟨⟨hcategories, hstring _, hstring _, hrules, hstring _, hstring _, hstring _, hstring _,
    by simp⟩, ?_⟩, aliases_plain 78 settings.aliases h, by simp⟩
  cases settings.translations with
  | none => simp
  | some path => simpa using hstring path

theorem entries_sorted (settings : Settings) : TextMap.Sorted settings.entries := by
  obtain ⟨sourceRoot, translations, outputFolder, symbolPrefix, childrenFolder, headerExtension,
    sourceExtension, categories, rules, aliases⟩ := settings
  cases translations with
  | none =>
    exact sorted_of_keys _ ["categories", "children_dir", "header_extension", "name_rules",
      "output_dir", "source_extension", "source_root", "translation_prefix", "type_aliases"] rfl
      (by decide)
  | some path =>
    exact sorted_of_keys _ ["categories", "children_dir", "header_extension", "name_rules",
      "output_dir", "source_extension", "source_root", "translation_prefix", "translations",
      "type_aliases"] rfl (by decide)

/-- Valid settings are read back from their text. -/
theorem text_read (settings : Settings) (hvalid : settings.Valid)
    (hsorted : settings.aliases.Sorted) : ofText settings.text = .ok settings := by
  have hdocument := Toml.document_read settings.entries (entries_plain settings hsorted)
    (entries_sorted settings)
  have hentries := entries_written settings hsorted
  exact (ofText_ok settings.text settings).mpr
    ⟨⟨settings.entries, hdocument, (entries_read settings.entries settings).mp hentries⟩, hvalid⟩

theorem aliases_sorted (v : Toml) (aliases : TextMap Text) (h : aliasesOf? v = some aliases) :
    aliases.Sorted := by
  cases v with
  | moment m =>
    obtain rfl := Option.some.inj h
    exact List.pairwise_singleton _ _
  | table entries =>
    obtain ⟨own, -, rfl⟩ := Option.map_eq_some_iff.mp h
    exact TextMap.sorted_insertAll own [] List.Pairwise.nil
  | _ => cases h

theorem text_reread (t : Text) (settings : Settings) (h : ofText t = .ok settings) :
    ofText settings.text = .ok settings := by
  obtain ⟨⟨entries, -, hreads⟩, hvalid⟩ := (ofText_ok t settings).mp h
  refine text_read settings hvalid ?_
  have haliases := hreads .aliases
  cases hkey : TextMap.find? Field.aliases.key entries with
  | none =>
    rw [hkey] at haliases
    have hnone : [] = settings.aliases := Option.some.inj haliases
    rw [← hnone]
    exact List.Pairwise.nil
  | some v =>
    rw [hkey] at haliases
    exact aliases_sorted v settings.aliases haliases

end Settings

end ParameterManual
