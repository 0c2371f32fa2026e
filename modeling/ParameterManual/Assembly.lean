import ParameterManual.ClassNode
import ParameterManual.Constructor.Extraction
import ParameterManual.Files.SourcePair
import ParameterManual.Settings
import ParameterManual.Statistics

/-!
# Assembling class trees

The base type of a category lies in the category's folder, its subtypes in
the children folder below, and the subtypes of one of those in a folder of
its name. A type sees the members and the variables of its parent.
-/

set_option autoImplicit false

namespace ParameterManual.Assembly

/-- What every type of a build is read with. -/
structure Corpus where
  tree : FileTree
  extensions : Extensions
  translations : TranslationTable

/-- What a pair of files says about its type, and the members it sees. -/
structure Scanned where
  members : MemberTable
  documented : List Variable

def scan (corpus : Corpus) (pair : SourcePair) (parentMembers : MemberTable)
    (inherited : TextMap Variable) : Except Failure Scanned := do
  let header ← corpus.tree.readText pair.header
  let members := (MemberTable.scan pair.name header).layeredOver parentMembers
  let definition ← corpus.tree.readText pair.source
  let documented ← Constructor.extract
    ⟨pair.name, corpus.translations, members, inherited⟩ pair.source definition
  return ⟨members, documented⟩

/-- Two files are read for a type. -/
def typeStatistics (own : List Variable) : Statistics :=
  ⟨0, 0, 0, 2, if own.isEmpty then 1 else 0⟩

abbrev Grown := ClassNode × Statistics

/-- Attaches the type of a pair. Its own subtypes are attached to it first, by
the function given for the level below. -/
def attachPair (corpus : Corpus) (below : Path → MemberTable → Grown → Except Failure Grown)
    (folder : Path) (members : MemberTable) (grown : Grown) (pair : SourcePair) :
    Except Failure Grown := do
  let scanned ← scan corpus pair members grown.1.documented
  let child := { grown.1.derive pair.name scanned.documented with filePath := some pair.header }
  let (child, statistics) ← below (Path.join folder pair.name) scanned.members
    (child, grown.2.add (typeStatistics scanned.documented))
  return (grown.1.withChild child, statistics)

/-- Attaches the types of a folder and of the folders below it, as many
levels down as given. -/
def attachChildren (corpus : Corpus) :
    (levels : Nat) → (folder : Path) → MemberTable → Grown → Except Failure Grown
  | 0, _, _, grown => .ok grown
  | levels + 1, folder, members, grown => do
    let pairs ← SourcePair.collect corpus.tree corpus.extensions folder
    pairs.foldlM (attachPair corpus (attachChildren corpus levels) folder members) grown

def levels (category : Category) : Nat := if category.nested then 2 else 1

def seed : TextMap Variable := TextMap.ofEntries
  [(Variable.labelSymbol, Variable.label), (Variable.typeSymbol, Variable.type)]

def corpus (settings : Settings) (translations : TranslationTable) (tree : FileTree) : Corpus :=
  ⟨tree, ⟨settings.headerExtension, settings.sourceExtension⟩, translations⟩

/-- The class tree of a category and the statistics of building it. -/
def build (settings : Settings) (translations : TranslationTable) (tree : FileTree)
    (category : Category) : Except Failure (Hierarchy × Statistics) := do
  let corpus := corpus settings translations tree
  let folder := Path.join settings.sourceRoot category.folder
  let base ← SourcePair.findBase tree corpus.extensions folder category.folder category.base
  let scanned ← scan corpus base MemberTable.framework seed
  let root := { ClassNode.root base.name Variable.label Variable.type scanned.documented with
    filePath := some base.header }
  let (root, counted) ← attachChildren corpus (levels category)
    (Path.join folder settings.childrenFolder) scanned.members
    (root, typeStatistics scanned.documented)
  return (⟨category.folder, root⟩, { counted with
    categories := 1, types := root.typeCount, documentedVariables := root.documentedCount })

end ParameterManual.Assembly
