import ClassHierarchy.Config.Basic
import ClassHierarchy.Toml.Basic

namespace ClassHierarchy

namespace LoggingOptions

def fields : List String := ["level", "json", "stderr", "file"]

def ofEntries? (entries : Toml.Entries) : Option LoggingOptions := do
  return {
    level := ← entries.field "level" Toml.string? "info"
    json := ← entries.field "json" Toml.boolean? false
    stderr := ← entries.field "stderr" Toml.boolean? true
    file := ← entries.field "file" (fun v => v.string?.map some) none }

def entries (o : LoggingOptions) : Toml.Entries :=
  [("level", .string o.level), ("json", .boolean o.json), ("stderr", .boolean o.stderr)] ++
    o.file.toList.map fun file => ("file", .string file)

end LoggingOptions

namespace HierarchyOptions

def fields : List String := ["platform_fallback", "synthesize_arrays"]

def ofEntries? (entries : Toml.Entries) : Option HierarchyOptions := do
  return {
    platformFallback := ← entries.field "platform_fallback" Toml.boolean? true
    synthesizeArrays := ← entries.field "synthesize_arrays" Toml.boolean? true }

def entries (o : HierarchyOptions) : Toml.Entries :=
  [("platform_fallback", .boolean o.platformFallback), ("synthesize_arrays", .boolean o.synthesizeArrays)]

end HierarchyOptions

namespace PlatformOptions

def fields : List String := ["builtin"]

def ofEntries? (entries : Toml.Entries) : Option PlatformOptions := do
  return { builtin := ← entries.field "builtin" Toml.boolean? true }

def entries (o : PlatformOptions) : Toml.Entries := [("builtin", .boolean o.builtin)]

end PlatformOptions

namespace Config

def sections : List (String × List String) :=
  [("logging", LoggingOptions.fields), ("hierarchy", HierarchyOptions.fields), ("jdk", PlatformOptions.fields)]

/-- The configuration of a document. What a value is to a section with certain fields is for the first argument to
tell: the entries that it has there, if it can stand there at all. -/
def ofDocument? (entries? : List String → Toml → Option Toml.Entries) (doc : Document) : Option Config := do
  return {
    logging := ← doc.field "logging" (fun v => entries? LoggingOptions.fields v >>= LoggingOptions.ofEntries?) {}
    hierarchy := ← doc.field "hierarchy"
      (fun v => entries? HierarchyOptions.fields v >>= HierarchyOptions.ofEntries?) {}
    platform := ← doc.field "jdk" (fun v => entries? PlatformOptions.fields v >>= PlatformOptions.ofEntries?) {} }

def document (c : Config) : Document :=
  [("logging", .table c.logging.entries), ("hierarchy", .table c.hierarchy.entries), ("jdk", .table c.platform.entries)]

def write {W : Type} (writer : Document → Except W String) (c : Config) : Except W String := writer c.document

end Config

end ClassHierarchy
