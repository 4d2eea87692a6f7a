import ClassHierarchy.Config.Load
import ClassHierarchy.Config.Schema
import ClassHierarchy.Decimal.Shortest
import ClassHierarchy.Text.Classes
import ClassHierarchy.Toml.Document

/-!
A reader of configurations to run with; what is proved of loading holds for every lawful one. A known key with a value
of the wrong kind is an error, the first such one in the order of the document.
-/

namespace ClassHierarchy

inductive Expected where
  | boolean
  | text
  | path
  | logging
  | hierarchy
  | platform
  deriving DecidableEq

def Expected.label : Expected → String
  | .boolean => "a boolean"
  | .text => "a string"
  | .path => "path string"
  | .logging => "struct LoggingConfig"
  | .hierarchy => "struct HierarchyConfig"
  | .platform => "struct JdkConfig"

namespace Toml

def describe : Toml → String
  | .string s => "string " ++ Text.quoted s
  | .integer n => s!"integer `{n}`"
  | .float x => s!"floating point `{x.render}`"
  | .boolean b => s!"boolean `{b}`"
  | .dateTime _ | .table _ => "map"
  | .array _ => "sequence"

def entries? (fields : List String) : Toml → Option Entries
  | .table entries => some entries
  | .array items => some (fields.zip items)
  | .dateTime _ => some []
  | _ => none

def dateKey : String := "$__toml_private_datetime"

end Toml

structure TypeMismatch where
  found : Toml
  expected : Expected

def TypeMismatch.message (e : TypeMismatch) : String :=
  s!"invalid type: {e.found.describe}, expected {e.expected.label}"

inductive ReadError where
  | malformed
  | mismatch (e : TypeMismatch)

def ReadError.message : ReadError → String
  | .malformed => "malformed document"
  | .mismatch e => e.message

instance : ToString ReadError := ⟨ReadError.message⟩

namespace Config

def expectations : List (String × Expected × List (String × Expected)) := [
  ("logging", .logging, [("level", .text), ("json", .boolean), ("stderr", .boolean), ("file", .path)]),
  ("hierarchy", .hierarchy, [("platform_fallback", .boolean), ("synthesize_arrays", .boolean)]),
  ("jdk", .platform, [("builtin", .boolean)])]

def fieldMismatch? (expected : Expected) (v : Toml) : Option TypeMismatch :=
  match expected, v with
  | .boolean, .boolean _ | .text, .string _ | .path, .string _ => none
  | _, _ => some ⟨v, expected⟩

def sectionMismatch? (expected : Expected) (fields : List (String × Expected)) (v : Toml) : Option TypeMismatch :=
  match v.entries? (fields.map (·.1)) with
  | none => some ⟨v, expected⟩
  | some entries => entries.findSome? fun (key, v) => (fields.lookup key).bind fun expected => fieldMismatch? expected v

def mismatch? (doc : Document) : Option TypeMismatch :=
  doc.findSome? fun (key, v) =>
    (expectations.lookup key).bind fun (expected, fields) => sectionMismatch? expected fields v

def strangeKeys (fields : List String) : Toml → List String
  | .table entries => (entries.map (·.1)).filter (· ∉ fields)
  | .dateTime _ => [Toml.dateKey]
  | _ => []

def strange (e : String × Toml) : List KeyPath :=
  match sections.lookup e.1 with
  | none => [[e.1]]
  | some fields => (strangeKeys fields e.2).map fun key => [e.1, key]

def read (text : String) : Except ReadError (Config × List String) :=
  match Toml.parse? text with
  | none => .error .malformed
  | some doc =>
    match ofDocument? Toml.entries? doc with
    | some c => .ok (c, (doc.flatMap strange).map KeyPath.joined)
    | none => .error ((mismatch? doc).elim .malformed .mismatch)

def reader : ConfigReader ReadError where
  plain text := (read text).map (·.1)
  noting := read

end Config

end ClassHierarchy
