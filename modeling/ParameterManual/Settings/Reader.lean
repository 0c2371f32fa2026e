import ParameterManual.Files.Tree
import ParameterManual.Settings
import ParameterManual.Toml.Document

/-!
# Reading settings

A settings file is a TOML document. Keys that are left out keep their
standard values and keys that mean nothing are passed over. A category or a
name rule is a table, or an array of its fields in order.
-/

set_option autoImplicit false

namespace ParameterManual.Settings

def stringOf? : Toml → Option Text
  | .string t => some t
  | _ => none

def booleanOf? : Toml → Option Bool
  | .boolean b => some b
  | _ => none

def listOf? {α : Type} (item? : Toml → Option α) : Toml → Option (List α)
  | .array items => items.mapM item?
  | _ => none

/-- The value of a field that may be left out. -/
def optional {α : Type} (read? : Toml → Option α) (standard : α) : Option Toml → Option α
  | none => some standard
  | some v => read? v

/-- A record, given by what it has under each key. -/
def fieldsOf? (keys : List Text) : Toml → Option (List (Option Toml))
  | .table entries => some (keys.map (fun key => TextMap.find? key entries))
  | .array items => some ((List.range keys.length).map (fun i => items[i]?))
  | _ => none

def categoryOf? (v : Toml) : Option Category := do
  match ← fieldsOf? ["folder".toList, "base".toList, "nested".toList, "suppressed".toList] v with
  | [folder, base, nested, suppressed] =>
    some {
      folder := ← stringOf? (← folder)
      base := ← optional (fun v => (stringOf? v).map some) none base
      nested := ← optional booleanOf? true nested
      suppressed := ← optional (listOf? stringOf?) [] suppressed }
  | _ => none

def ruleOf? (v : Toml) : Option Manual.NameRule := do
  match ← fieldsOf? ["from".toList, "to".toList] v with
  | [source, target] => some ⟨← stringOf? (← source), ← stringOf? (← target)⟩
  | _ => none

/-- The key under which a moment stands where a table is expected. -/
def momentKey : Text := "$__toml_private_datetime".toList

def aliasesOf? : Toml → Option (TextMap Text)
  | .moment m => some [(momentKey, m.text)]
  | .table entries => (entries.mapM (fun e => (stringOf? e.2).map (fun t => (e.1, t)))).map
      TextMap.ofEntries
  | _ => none

def ofEntries? (entries : List (Text × Toml)) : Option Settings := do
  let at_ (key : String) := TextMap.find? key.toList entries
  let text (key : String) (standard : Text) := optional stringOf? standard (at_ key)
  some {
    sourceRoot := ← text "source_root" standard.sourceRoot
    translations := ← optional (fun v => (stringOf? v).map some) none (at_ "translations")
    outputFolder := ← text "output_dir" standard.outputFolder
    symbolPrefix := ← text "translation_prefix" standard.symbolPrefix
    childrenFolder := ← text "children_dir" standard.childrenFolder
    headerExtension := ← text "header_extension" standard.headerExtension
    sourceExtension := ← text "source_extension" standard.sourceExtension
    categories := ← optional (listOf? categoryOf?) standard.categories (at_ "categories")
    rules := ← optional (listOf? ruleOf?) standard.rules (at_ "name_rules")
    aliases := ← optional aliasesOf? standard.aliases (at_ "type_aliases") }

/-- The settings that a document describes, if they are valid. -/
def ofText (t : Text) : Except Failure Settings :=
  match (Toml.document? t).bind ofEntries? with
  | none => .error (.settings .unreadable)
  | some settings => do
    settings.validate
    return settings

def load (tree : FileTree) (path : Path) : Except Failure Settings := do
  ofText (← tree.readText path)

end ParameterManual.Settings
