import ParameterManual.Text.Basic

/-!
# Failures

Every failure is a cause with the facts it concerns; the wording of each is
given by the `message` functions.
-/

set_option autoImplicit false

namespace ParameterManual

structure Location where
  file : Text
  line : Nat
  deriving DecidableEq, Repr

def Location.text (l : Location) : Text := l.file ++ ':' :: Text.ofNat l.line

def quoted (t : Text) : Text := '\x60' :: t ++ ['\x60']

inductive FileFault where
  | notFound
  | alreadyExists
  | notDirectory
  | isDirectory
  | notUtf8
  | definitionMissing
  deriving DecidableEq, Repr

def FileFault.message : FileFault → Text
  | .notFound => "No such file or directory (os error 2)".toList
  | .alreadyExists => "File exists (os error 17)".toList
  | .notDirectory => "Not a directory (os error 20)".toList
  | .isDirectory => "Is a directory (os error 21)".toList
  | .notUtf8 => "stream did not contain valid UTF-8".toList
  | .definitionMissing => "definition file not found".toList

/-- What is wrong with a statement. -/
inductive Malformation where
  | unbalancedParentheses
  | unterminatedTemplate
  | beforeArguments (found : Text)
  | afterCall (found : Text)
  | afterBind (found : Text)
  | notTerminated
  | bindArity (found : Nat)
  | tableArity (found : Nat)
  | registrationArity (found : Nat)
  | modifierArity (name : Text) (least most found : Nat)
  | labelNotSymbol (label : Text)
  | notBoolean (found : Text)
  deriving DecidableEq, Repr

def Malformation.message : Malformation → Text
  | .unbalancedParentheses => "unbalanced parentheses".toList
  | .unterminatedTemplate => "unterminated template argument".toList
  | .beforeArguments t => "unexpected ".toList ++ quoted t ++ " before bind arguments".toList
  | .afterCall t => "unexpected ".toList ++ quoted t ++ " after call".toList
  | .afterBind t => "unexpected ".toList ++ quoted t ++ " after bind".toList
  | .notTerminated => "statement not terminated before the constructor ends".toList
  | .bindArity n => "bind expects 4 or 5 arguments, found ".toList ++ Text.ofNat n
  | .tableArity n => "table bind expects 4 to 6 arguments, found ".toList ++ Text.ofNat n
  | .registrationArity n =>
    "registration expects 1 to 3 arguments, found ".toList ++ Text.ofNat n
  | .modifierArity name least most n =>
    name ++ " expects ".toList ++ Text.ofNat least ++ "..=".toList ++ Text.ofNat most ++
      " arguments, found ".toList ++ Text.ofNat n
  | .labelNotSymbol t => "bind label ".toList ++ quoted t ++ " is not a symbolic constant".toList
  | .notBoolean t => "expected true or false, found ".toList ++ quoted t

inductive SettingsFault where
  | unreadable
  | emptyPrefix
  | emptyExtension
  | emptyChildrenFolder
  | emptyFolder
  | repeatedCategory (folder : Text)
  | unknownCategory (folder : Text)
  deriving DecidableEq, Repr

def SettingsFault.message : SettingsFault → Text
  | .unreadable => "the text does not describe a configuration".toList
  | .emptyPrefix => "translation_prefix is empty".toList
  | .emptyExtension => "file extensions must not be empty".toList
  | .emptyChildrenFolder => "children_dir is empty".toList
  | .emptyFolder => "category with an empty folder".toList
  | .repeatedCategory folder => "category ".toList ++ folder ++ " listed twice".toList
  | .unknownCategory folder => "unknown category ".toList ++ folder

inductive Failure where
  | file (path : Text) (fault : FileFault)
  | missingBase (category folder : Text)
  | unknownSymbol (symbol : Text) (location : Location)
  | unknownMember (member className : Text) (location : Location)
  | malformed (what : Malformation) (location : Location)
  | settings (fault : SettingsFault)
  deriving DecidableEq, Repr

def Failure.message : Failure → Text
  | .file path fault => "failed to read ".toList ++ path ++ ": ".toList ++ fault.message
  | .missingBase category folder =>
    "no base declaration file for category ".toList ++ category ++ " in ".toList ++ folder
  | .unknownSymbol symbol l => l.text ++ ": unknown translation key ".toList ++ quoted symbol
  | .unknownMember member className l =>
    l.text ++ ": ".toList ++ quoted member ++ " is not a declared member of ".toList ++ className
  | .malformed what l => l.text ++ ": malformed statement: ".toList ++ what.message
  | .settings fault => "invalid configuration: ".toList ++ fault.message

/-- The messages of a failure and of what caused it, outermost first. -/
def Failure.chain : Failure → List Text
  | .file path fault => [(Failure.file path fault).message, fault.message]
  | f => [f.message]

end ParameterManual
