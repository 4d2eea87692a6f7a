import ClassHierarchy.Text.Split

namespace ClassHierarchy

structure LoggingOptions where
  level : String := "info"
  json : Bool := false
  stderr : Bool := true
  file : Option String := none
  deriving DecidableEq

structure HierarchyOptions where
  platformFallback : Bool := true
  synthesizeArrays : Bool := true
  deriving DecidableEq

structure PlatformOptions where
  builtin : Bool := true
  deriving DecidableEq

structure Config where
  logging : LoggingOptions := {}
  hierarchy : HierarchyOptions := {}
  platform : PlatformOptions := {}
  deriving DecidableEq

/-- A library of log filters: what it makes of a text, nothing if the text is no list of directives, and the filter of
the one directive `info`. A reading can also end in a panic. -/
structure FilterLibrary (P F : Type) where
  ofText : String → Except P (Option F)
  infoOnly : F

namespace LoggingOptions

def levelWord? (text : List Char) : Option String :=
  match String.ofList (text.map Char.toLower) with
  | "trace" => some "trace"
  | "debug" => some "debug"
  | "info" => some "info"
  | "warn" | "warning" => some "warn"
  | "error" => some "error"
  | _ => none

def normalizeLevel (level : String) : String :=
  match Text.trim level.toList with
  | [] => "info"
  | text => (levelWord? text).getD (String.ofList text)

variable {P F : Type} (o : LoggingOptions) (filters : FilterLibrary P F)

def ownFilter : Except P F := do
  return (← filters.ofText (normalizeLevel o.level)).getD filters.infoOnly

def filter (environment : Option String) : Except P F := do
  match Text.trim (environment.getD "").toList with
  | [] => o.ownFilter filters
  | text =>
    let given := String.ofList text
    -- later directives win, so those of the environment come last
    match ← filters.ofText (normalizeLevel o.level ++ "," ++ given) with
    | some f => return f
    | none =>
      match ← filters.ofText given with
      | some f => return f
      | none => o.ownFilter filters

end LoggingOptions

end ClassHierarchy
