import ParameterManual.Constructor.Body
import ParameterManual.Constructor.Value
import ParameterManual.Member.Table
import ParameterManual.Statement.Parser
import ParameterManual.Variable

/-!
# Variables of a constructor

The statements of a constructor are taken in order. A bind adds a variable
or replaces the one of its symbol; a registration sets a flag on the variable
of its symbol, which is copied from the parent if only the parent has it.
-/

set_option autoImplicit false

namespace ParameterManual.Constructor

open Source

/-- What the constructor of a class can refer to. -/
structure Scope where
  className : Text
  translations : TranslationTable
  members : MemberTable
  inherited : TextMap Variable

namespace Scope

def translate (scope : Scope) (l : Location) (symbol : Text) : Except Failure Text :=
  match scope.translations.get? symbol with
  | some text => .ok text
  | none => .error (.unknownSymbol symbol l)

def memberType (scope : Scope) (l : Location) (member : Text) : Except Failure Text :=
  match TextMap.find? member scope.members with
  | some typeName => .ok typeName
  | none => .error (.unknownMember member scope.className l)

def resolve (scope : Scope) (l : Location) (t : Text) : Except Failure Text :=
  match resolveValue scope.translations t with
  | .ok text => .ok text
  | .error u => .error (.unknownSymbol u.symbol l)

end Scope

def boolean (l : Location) (t : Text) : Except Failure Bool :=
  match booleanOf? t with
  | some b => .ok b
  | none => .error (.malformed (.notBoolean t.trim) l)

/-- The flag at an optional last position, true when it is left out. -/
def inclusiveFlag (l : Location) : Option Text → Except Failure Bool
  | none => .ok true
  | some t => boolean l t

def boundOf (scope : Scope) (l : Location) (value : Text) (flag : Option Text) :
    Except Failure Bound := do
  let value ← scope.resolve l value
  let inclusive ← inclusiveFlag l flag
  return ⟨value, inclusive⟩

/-- A single braced list, or the arguments themselves. -/
def listedValues : List Text → List Text
  | [list] =>
    if list.head? = some '\x7b' then
      splitArguments (Text.dropEndWhile (· == '\x7d') (list.dropWhile (· == '\x7b')))
    else [list]
  | arguments => arguments

/-- The modifiers that set a field; any other has no effect. -/
inductive ModifierKind where
  | lowerBound
  | upperBound
  | range
  | allowedValues
  deriving DecidableEq, Repr

def ModifierKind.ofName? (name : Text) : Option ModifierKind :=
  if name = "set_lower_bound".toList then some .lowerBound
  else if name = "set_upper_bound".toList then some .upperBound
  else if name = "set_range".toList then some .range
  else if name = "set_allowed_values".toList then some .allowedValues
  else none

def modifierArity (l : Location) (m : Modifier) (least most : Nat) : Failure :=
  .malformed (.modifierArity m.name least most m.arguments.length) l

def applyModifier (scope : Scope) (l : Location) (v : Variable) (m : Modifier) :
    Except Failure Variable :=
  match ModifierKind.ofName? m.name with
  | none => .ok v
  | some .lowerBound =>
    match m.arguments with
    | [value] => do return { v with lowerBound := some (← boundOf scope l value none) }
    | [value, flag] => do return { v with lowerBound := some (← boundOf scope l value flag) }
    | _ => .error (modifierArity l m 1 2)
  | some .upperBound =>
    match m.arguments with
    | [value] => do return { v with upperBound := some (← boundOf scope l value none) }
    | [value, flag] => do return { v with upperBound := some (← boundOf scope l value flag) }
    | _ => .error (modifierArity l m 1 2)
  | some .range =>
    match m.arguments with
    | low :: high :: flags =>
      if flags.length ≤ 2 then do
        let lower ← boundOf scope l low flags[0]?
        let upper ← boundOf scope l high flags[1]?
        return { v with lowerBound := some lower, upperBound := some upper }
      else .error (modifierArity l m 2 4)
    | _ => .error (modifierArity l m 2 4)
  | some .allowedValues => do
    let values ← (listedValues m.arguments).mapM (scope.resolve l)
    return { v with allowedValues := some values }

/-- Label, member, description and example value, which both binds have. -/
def boundVariable (scope : Scope) (l : Location) (kind : BindKind)
    (label member description value : Text) : Except Failure Variable := do
  let symbol := label.trim
  if scope.translations.isSymbol symbol then
    let name ← scope.translate l symbol
    let member := memberName member
    let typeName ← scope.memberType l member
    return { Variable.plain kind symbol member name typeName with
      description := literalText description, value := literalText value }
  else throw (.malformed (.labelNotSymbol symbol) l)

/-- The last argument of a bind is a flag for a container and a default
value otherwise. -/
def withFifth (scope : Scope) (l : Location) (v : Variable) (t : Text) :
    Except Failure Variable :=
  match if isContainer v.typeName then booleanOf? t else none with
  | some flag => .ok { v with isOptional := flag }
  | none => do
    let value ← scope.resolve l t
    return if value = [] then v else { v with default := some value }

def bindVariable (scope : Scope) (l : Location) (arguments : List Text)
    (modifiers : List Modifier) : Except Failure Variable :=
  match arguments with
  | label :: member :: description :: value :: more =>
    if more.length ≤ 1 then do
      let v ← boundVariable scope l .parameter label member description value
      let v ← more.foldlM (withFifth scope l) v
      modifiers.foldlM (applyModifier scope l) v
    else .error (.malformed (.bindArity arguments.length) l)
  | _ => .error (.malformed (.bindArity arguments.length) l)

def tableVariable (scope : Scope) (l : Location) (arguments : List Text) :
    Except Failure Variable :=
  match arguments with
  | label :: member :: description :: value :: flags =>
    if flags.length ≤ 2 then do
      flags.forM (fun flag => discard (boolean l flag))
      boundVariable scope l .table label member description value
    else .error (.malformed (.tableArity arguments.length) l)
  | _ => .error (.malformed (.tableArity arguments.length) l)

def hasSymbol (own : List Variable) (symbol : Text) : Bool :=
  own.any (fun v => v.symbol == symbol)

/-- Changes the first variable of a symbol. -/
def updateSymbol (f : Variable → Variable) (symbol : Text) : List Variable → List Variable
  | [] => []
  | v :: own => if v.symbol = symbol then f v :: own else v :: updateSymbol f symbol own

def upsert (own : List Variable) (v : Variable) : List Variable :=
  if hasSymbol own v.symbol then updateSymbol (fun _ => v) v.symbol own else own ++ [v]

def withInherited (scope : Scope) (symbol : Text) (own : List Variable) : List Variable :=
  if hasSymbol own symbol then own
  else own ++ (TextMap.find? symbol scope.inherited).toList

def registerEstimable (scope : Scope) (symbol : Text) (own : List Variable) : List Variable :=
  updateSymbol (fun v => { v with isEstimable := true }) symbol (withInherited scope symbol own)

def registerAddressable (scope : Scope) (l : Location) (symbol member : Text)
    (own : List Variable) : Except Failure (List Variable) :=
  let own := withInherited scope symbol own
  if hasSymbol own symbol then
    .ok (updateSymbol (fun v => { v with isAddressable := true }) symbol own)
  else do
    let name ← scope.translate l symbol
    let typeName := (TextMap.find? member scope.members).getD "Double".toList
    return own ++
      [{ Variable.plain .placeholder symbol member name typeName with isAddressable := true }]

/-- A registration without a label or under a computed one is passed over. -/
def register (scope : Scope) (l : Location) (own : List Variable) (arguments : List Text) :
    Except Failure (List Variable) :=
  match arguments with
  | [_] => .ok own
  | [label, _] =>
    if scope.translations.isSymbol label.trim then .ok (registerEstimable scope label.trim own)
    else .ok own
  | [label, member, _] =>
    if scope.translations.isSymbol label.trim then
      registerAddressable scope l label.trim (memberName member) own
    else .ok own
  | _ => .error (.malformed (.registrationArity arguments.length) l)

def applyStatement (scope : Scope) (l : Location) (own : List Variable) :
    Statement → Except Failure (List Variable)
  | .bind _ arguments modifiers => upsert own <$> bindVariable scope l arguments modifiers
  | .bindTable arguments => upsert own <$> tableVariable scope l arguments
  | .register arguments => register scope l own arguments

def applyCollected (scope : Scope) (own : List Variable) (c : Collected) :
    Except Failure (List Variable) :=
  match Statement.parse c.text with
  | .error what => .error (.malformed what c.location)
  | .ok none => .ok own
  | .ok (some s) => applyStatement scope c.location own s

def applyAll (scope : Scope) (statements : List Collected) : Except Failure (List Variable) :=
  statements.foldlM (applyCollected scope) []

/-- The variables that a definition file documents for its class. -/
def extract (scope : Scope) (file content : Text) : Except Failure (List Variable) := do
  match ← collect scope.className file content with
  | none => return []
  | some statements => applyAll scope statements

end ParameterManual.Constructor
