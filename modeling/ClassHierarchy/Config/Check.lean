import ClassHierarchy.Config.Basic
import ClassHierarchy.FileTree

namespace ClassHierarchy

inductive ConfigWarning where
  | levelInvalid (value normalized : String)
  | logDirectoryMissing (key directory : String)
  | fallbackWithoutBuiltins
  deriving DecidableEq

namespace Config

variable {P F : Type} (filters : FilterLibrary P F) (tree : FileTree) (c : Config) (base : Option String)

def checkLevel : Except P (List ConfigWarning) := do
  let normalized := LoggingOptions.normalizeLevel c.logging.level
  -- a blank level stands for `info`, which is not put to the library
  if Text.trim c.logging.level.toList = [] then return []
  else
    match ← filters.ofText normalized with
    | some _ => return []
    | none => return [.levelInvalid c.logging.level normalized]

def logDirectory? : Option String := do
  let file ← c.logging.file
  let resolved ←
    if Path.isAbsolute file.toList then some file.toList
    else base.map fun b => Path.join b.toList file.toList
  let parent ← Path.parent? resolved
  if parent = [] then none else some (String.ofList parent)

def checkLogFile : List ConfigWarning :=
  match c.logDirectory? base with
  | some directory =>
    if tree.directoryExists directory then [] else [.logDirectoryMissing "logging.file" directory]
  | none => []

def checkPlatform : List ConfigWarning :=
  if c.hierarchy.platformFallback ∧ ¬ c.platform.builtin then [.fallbackWithoutBuiltins] else []

def check : Except P (List ConfigWarning) :=
  return (← c.checkLevel filters) ++ c.checkLogFile tree base ++ c.checkPlatform

end Config

end ClassHierarchy
