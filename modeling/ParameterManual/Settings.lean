import ParameterManual.Category
import ParameterManual.Files.Path
import ParameterManual.Manual.TypeAlias
import ParameterManual.Manual.Section
import ParameterManual.Translation
import ParameterManual.Error

/-!
# Settings

What a run documents and where it finds and puts things.
-/

set_option autoImplicit false

namespace ParameterManual

structure Settings where
  sourceRoot : Path
  translations : Option Path
  outputFolder : Path
  symbolPrefix : Text
  childrenFolder : Text
  headerExtension : Text
  sourceExtension : Text
  categories : List Category
  rules : List Manual.NameRule
  aliases : TextMap Text
  deriving DecidableEq, Repr

namespace Settings

def standard : Settings := {
  sourceRoot := "source".toList
  translations := none
  outputFolder := "Documentation/UserManual/Syntax".toList
  symbolPrefix := TranslationTable.defaultPrefix
  childrenFolder := "Children".toList
  headerExtension := "h".toList
  sourceExtension := "cpp".toList
  categories := Category.catalog
  rules := Manual.NameRule.defaults
  aliases := [] }

def translationsPath (settings : Settings) : Path :=
  settings.translations.getD
    (Path.join (Path.join settings.sourceRoot "Translations".toList) "English_UK.h".toList)

def style (settings : Settings) : Manual.Style :=
  ⟨Manual.builtinAliases.insertAll settings.aliases, settings.rules⟩

/-- The first category without a folder, or with the folder of an earlier one. -/
def categoryFault? : (seen : List Text) → List Category → Option SettingsFault
  | _, [] => none
  | seen, category :: rest =>
    if category.folder.isEmpty then some .emptyFolder
    else if seen.contains category.folder then some (.repeatedCategory category.folder)
    else categoryFault? (category.folder :: seen) rest

def fault? (settings : Settings) : Option SettingsFault :=
  if settings.symbolPrefix.isEmpty then some .emptyPrefix
  else if settings.headerExtension.isEmpty || settings.sourceExtension.isEmpty then
    some .emptyExtension
  else if settings.childrenFolder.isEmpty then some .emptyChildrenFolder
  else categoryFault? [] settings.categories

def validate (settings : Settings) : Except Failure Unit :=
  match settings.fault? with
  | some fault => .error (.settings fault)
  | none => .ok ()

/-- The named categories in catalog order, all of them if none is named. -/
def select (settings : Settings) (names : List Text) : Except Failure (List Category) :=
  match names.find? (fun name => !settings.categories.any (fun c => c.folder == name)) with
  | some unknown => .error (.settings (.unknownCategory unknown))
  | none =>
    .ok (settings.categories.filter (fun c => names.isEmpty || names.contains c.folder))

end Settings

end ParameterManual
