import ClassHierarchy.Config.Basic
import ClassHierarchy.Event
import ClassHierarchy.FileTree
import ClassHierarchy.Text.Classes

namespace ClassHierarchy

def FieldValue.render : FieldValue → String
  | .plain text => text
  | .quoted text => Text.quoted text
  | .count n => toString n
  | .flag b => toString b

def Event.line (e : Event) : String :=
  let label := e.severity.label
  let margin := String.ofList (List.replicate (5 - label.length) ' ')
  let fields := e.fields.map fun (name, v) => " " ++ name ++ "=" ++ v.render
  margin ++ label ++ " " ++ e.target ++ ": " ++ e.message ++ String.join fields

structure LogSink (F : Type) where
  filter : F
  json : Bool
  stderr : Bool
  file : Option String
  deriving DecidableEq

namespace LogSink

def start {P F : Type} (filters : FilterLibrary P F) (tree : FileTree) (running : Option (LogSink F))
    (o : LoggingOptions) (environment : Option String) : Except P (Bool × FileTree × LogSink F × List Event) := do
  -- filter and file are made ready even where logging is running
  let filter ← o.filter filters environment
  let (tree, file, failure) : FileTree × Option String × List Event :=
    match o.file with
    | none => (tree, none, [])
    | some path =>
      match tree.openForAppend path with
      | .ok tree => (tree, some path, [])
      | .error e => (tree, none, [.logFileUnavailable path e.message])
  match running with
  | some sink => return (false, tree, sink, [])
  | none =>
    return (true, tree, { filter, json := o.json, stderr := o.stderr, file },
      failure ++ [.loggingStarted o.level o.json])

end LogSink

end ClassHierarchy
