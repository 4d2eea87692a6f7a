import ClassHierarchy.Config.Check

namespace ClassHierarchy

abbrev KeyPath := List String

namespace KeyPath

def joined (path : KeyPath) : String := ".".intercalate path

def isIndex (part : List Char) : Bool := part ≠ [] && part.all Char.isDigit

def joinParts : List Char → List (List Char) → List Char
  | out, [] => out
  | out, part :: rest =>
    if isIndex part then joinParts (out ++ '[' :: part ++ [']']) rest
    else joinParts (out ++ (if out = [] then [] else ['.']) ++ part) rest

/-- The text of a path is taken apart at its dots, so dots inside a key count too; those in front are dropped. -/
def normalize (text : String) : String :=
  match Text.pieces '.' (text.toList.dropWhile (· = '.')) with
  | [] => ""
  | first :: rest => String.ofList (joinParts first rest)

end KeyPath

/-- The libraries that read a configuration from a text: alone, and with a note of the path of each key that is passed
over. -/
structure ConfigReader (E : Type) where
  plain : String → Except E Config
  noting : String → Except E (Config × List String)

structure Diagnostics where
  unknownKeys : List String := []
  warnings : List ConfigWarning := []
  deriving DecidableEq

def Diagnostics.isClean (d : Diagnostics) : Bool := d.unknownKeys.isEmpty && d.warnings.isEmpty

inductive ConfigError (E P : Type) where
  | unreadable (path : String) (e : FileError)
  | invalid (e : E)
  | panicked (p : P)

def ConfigError.message {E P : Type} [ToString E] [ToString P] : ConfigError E P → String
  | .unreadable path e => s!"failed to read config file {path}: {e.message}"
  | .invalid e => s!"failed to parse toml config: {e}"
  | .panicked p => toString p

namespace Config

variable {E P F : Type} (reader : ConfigReader E) (filters : FilterLibrary P F) (tree : FileTree)

def readNoting (text : String) : Except E (Config × List String) :=
  (reader.noting text).map fun (c, paths) => (c, SortedList.ofList (paths.map KeyPath.normalize))

def loadText (base : Option String) (text : String) : Except (ConfigError E P) (Config × Diagnostics) :=
  match readNoting reader text with
  | .error e => .error (.invalid e)
  | .ok (c, unknownKeys) =>
    match c.check filters tree base with
    | .error p => .error (.panicked p)
    | .ok warnings => .ok (c, { unknownKeys, warnings })

def readFile (path : String) : Except (ConfigError E P) String :=
  match tree.readText path with
  | .ok text => .ok text
  | .error e => .error (.unreadable path e)

def load (path : String) : Except (ConfigError E P) Config := do
  (reader.plain (← readFile tree path)).mapError .invalid

def loadChecked (path : String) : Except (ConfigError E P) (Config × Diagnostics) := do
  loadText reader filters tree ((Path.parent? path.toList).map String.ofList) (← readFile tree path)

end Config

end ClassHierarchy
