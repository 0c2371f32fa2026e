import ParameterManual.Assembly
import ParameterManual.Json.Hierarchy
import ParameterManual.Manual.Section
import ParameterManual.Run.Ending

/-!
# Runs

A run builds the selected categories, writes their sections, and hands over
to the typesetter. One after another, each category is built from the files
as they are and written before the next; in parallel all are built from the
files at the start, and written in catalog order. The first failure ends the
run, and what was written before it stays.
-/

set_option autoImplicit false

namespace ParameterManual

namespace Run

/-- What ended a run. -/
inductive Cause where
  | failure (f : Failure)
  | notStarted (command : Text) (fault : FileFault)
  | ended (command : Text) (ending : Ending)
  deriving DecidableEq, Repr

def Cause.chain : Cause → List Text
  | .failure f => f.chain
  | .notStarted command fault => ["Failed to start ".toList ++ quoted command, fault.message]
  | .ended command ending => [quoted command ++ " exited with ".toList ++ ending.text]

inductive Stage where
  | translations
  | building (category : Text)
  | writing (category : Text)
  | typesetting
  deriving DecidableEq, Repr

def Stage.message : Stage → Text
  | .translations => "Failed to load translations".toList
  | .building category => "Failed to build category ".toList ++ category
  | .writing category => "Failed to write category ".toList ++ category
  | .typesetting => "Typesetting failed".toList

structure Problem where
  stage : Option Stage
  cause : Cause
  deriving DecidableEq, Repr

def Problem.chain (p : Problem) : List Text :=
  (p.stage.map Stage.message).toList ++ p.cause.chain

def Problem.message (p : Problem) : Text := Text.joined ": ".toList p.chain

def Problem.headline (p : Problem) : Text := p.chain.head?.getD []

/-- A part of a run: it changes the files, and gives a result or a problem. -/
abbrev Action := EStateM Problem FileTree

def attempt {α : Type} (stage : Option Stage) (result : Except Failure α) : Action α :=
  match result with
  | .ok a => pure a
  | .error f => throw ⟨stage, .failure f⟩

/-- Turns files that have been written to a folder into a finished document.
It may change files also when it fails. -/
abbrev Typesetter := (folder : Path) → (files : List Path) → FileTree →
  Except Cause Unit × FileTree

def noTypesetter : Typesetter := fun _ _ tree => (.ok (), tree)

/-- How the categories are worked through. In parallel, the positions of the
categories whose builds are finished before the results are collected come in
the order of finishing. -/
inductive Mode where
  | oneByOne
  | parallel (finishing : List Nat)
  deriving DecidableEq, Repr

def Mode.ofJobs : Option Nat → Mode
  | none => .oneByOne
  | some 1 => .oneByOne
  | some _ => .parallel []

structure Options where
  categories : List Text
  mode : Mode
  json : Option Path
  deriving DecidableEq, Repr

structure Output where
  file : Path
  hierarchy : Hierarchy
  statistics : Statistics

structure Summary where
  files : List Path
  hierarchies : List Hierarchy
  statistics : Statistics

def Summary.ofOutputs (outputs : List Output) : Summary :=
  ⟨outputs.map Output.file, outputs.map Output.hierarchy,
    Statistics.total (outputs.map Output.statistics)⟩

abbrev Built := Except Failure (Hierarchy × Statistics)

def saveFile (stage : Option Stage) (path : Path) (t : Text) : Action Unit := do
  set (← attempt stage ((← get).save path t))

def writeSection (settings : Settings) (category : Category) (built : Built) :
    Action Output := do
  let (hierarchy, statistics) ← attempt (some (.building category.folder)) built
  let path := Path.join settings.outputFolder (Manual.fileName hierarchy)
  saveFile (some (.writing category.folder)) path
    (Manual.render settings.style category hierarchy)
  return ⟨path, hierarchy, statistics⟩

/-- Builds and writes one category after another. -/
def eachInTurn (settings : Settings) (build : FileTree → Category → Built) :
    List Category → Action (List Output)
  | [] => pure []
  | category :: rest => do
    let output ← writeSection settings category (build (← get) category)
    return output :: (← eachInTurn settings build rest)

/-- The results of all builds in catalog order. Those that finish early are
kept in the slots of their categories until then. -/
def buildAll (finishing : List Nat) (build : Category → Built) (categories : List Category) :
    List Built :=
  let slots : List (Option Built) := finishing.foldl
    (fun slots i => slots.set i (categories[i]?.map build)) (categories.map (fun _ => none))
  List.zipWith (fun category slot => slot.getD (build category)) categories slots

def writeAll (settings : Settings) : List (Category × Built) → Action (List Output)
  | [] => pure []
  | (category, built) :: rest => do
    let output ← writeSection settings category built
    return output :: (← writeAll settings rest)

def outputs (settings : Settings) (build : FileTree → Category → Built)
    (categories : List Category) : Mode → Action (List Output)
  | .oneByOne => eachInTurn settings build categories
  | .parallel finishing => do
    let tree ← get
    writeAll settings (categories.zip (buildAll finishing (build tree) categories))

def loadTranslations (settings : Settings) (tree : FileTree) :
    Except Failure TranslationTable :=
  (fun content => TranslationTable.ofText content settings.symbolPrefix) <$>
    tree.readText settings.translationsPath

def writeJson (path : Option Path) (hierarchies : List Hierarchy) : Action Unit :=
  match path with
  | none => pure ()
  | some path => saveFile none path ((Json.ofHierarchies hierarchies).pretty 0)

def typeset (typesetter : Typesetter) (folder : Path) (files : List Path) : Action Unit := do
  let (result, tree) := typesetter folder files (← get)
  set tree
  match result with
  | .ok _ => pure ()
  | .error cause => throw ⟨some .typesetting, cause⟩

end Run

open Run in
/-- Writes the manual sections of the selected categories. -/
def run (settings : Settings) (options : Options) (typesetter : Typesetter) :
    Action Summary := do
  attempt none settings.validate
  let categories ← attempt none (settings.select options.categories)
  let translations ← attempt (some .translations) (loadTranslations settings (← get))
  let written ← outputs settings (Assembly.build settings translations) categories options.mode
  let summary := Summary.ofOutputs written
  writeJson options.json summary.hierarchies
  typeset typesetter settings.outputFolder summary.files
  return summary

end ParameterManual
