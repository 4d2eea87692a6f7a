import Mathlib.Data.Set.Basic
import Mathlib.Tactic.Common
import ClassHierarchy.Config.Load
import ClassHierarchy.Config.Schema
import ClassHierarchy.Proofs.ByteOrder
import ClassHierarchy.Proofs.SortedList

/-!
Loading a configuration, with the libraries that read it as parameters. They take notes of two kinds of keys: those that
the configuration does not have, and the one by which a date shows itself where a section is looked for.
-/

namespace ClassHierarchy

inductive KeyPlace where
  | top (key : String)
  | within (table key : String)
  deriving DecidableEq

def KeyPlace.path : KeyPlace → KeyPath
  | top key => [key]
  | within table key => [table, key]

/-- An entry that is no section, or in an entry that is one a key that is none of its fields. -/
inductive UnknownKey : String × Toml → KeyPlace → Prop
  | top {key v} : Config.sections.lookup key = none → UnknownKey (key, v) (.top key)
  | within {table fields entries key v} : Config.sections.lookup table = some fields → (key, v) ∈ entries →
      key ∉ fields → UnknownKey (table, .table entries) (.within table key)

/-- The key by which a date shows itself where a section is looked for. -/
inductive DateKey (mark : String) : String × Toml → KeyPlace → Prop
  | within {table fields text} : Config.sections.lookup table = some fields →
      DateKey mark (table, .dateTime text) (.within table mark)

namespace Document

variable (doc : Document)

def unknown : Set KeyPlace := {place | ∃ e ∈ doc, UnknownKey e place}

def dates (mark : String) : Set KeyPlace := {place | ∃ e ∈ doc, DateKey mark e place}

end Document

/-- What there is to know of a library for TOML: the documents that texts are, the entries that a value has where a
section with certain fields is looked for, and the key that a date shows there. -/
structure TomlLibrary where
  document? : String → Option Document
  entries? : List String → Toml → Option Toml.Entries
  dateKey : String

/-- What is assumed of a reader: taking notes changes neither the result nor the error; a table has its own entries;
fields that are present are read, absent ones get their defaults, and other keys are passed over; a key that is passed
over is noted by its path, as the keys joined by dots. -/
structure ConfigReader.Lawful {E : Type} (reader : ConfigReader E) (toml : TomlLibrary) : Prop where
  transparent : ∀ text, (reader.noting text).map Prod.fst = reader.plain text
  table : ∀ fields entries, toml.entries? fields (.table entries) = some entries
  plain : ∀ {text doc}, toml.document? text = some doc →
    ∀ c, reader.plain text = .ok c ↔ Config.ofDocument? toml.entries? doc = some c
  noted : ∀ {text doc c paths}, toml.document? text = some doc → reader.noting text = .ok (c, paths) →
    ∀ path, path ∈ paths ↔ ∃ place ∈ doc.unknown ∪ doc.dates toml.dateKey, place.path.joined = path

/-- The keys are those at some places as they are reported, each once and in the order of bytes. -/
structure Reports (keys : List String) (places : Set KeyPlace) : Prop where
  increasing : keys.Pairwise fun key key' => Text.bytes key < Text.bytes key'
  members : ∀ key, key ∈ keys ↔ ∃ place ∈ places, KeyPath.normalize place.path.joined = key

namespace LoggingOptions

variable {P F : Type}

def PanicsWith (o : LoggingOptions) (filters : FilterLibrary P F) (p : P) : Prop :=
  Text.trim o.level.toList ≠ [] ∧ filters.ofText (normalizeLevel o.level) = .error p

end LoggingOptions

namespace Config

variable {E P F : Type} {reader : ConfigReader E} {filters : FilterLibrary P F} {toml : TomlLibrary}
  {tree : FileTree} {base : Option String} {text : String} {doc : Document} {c : Config} {d : Diagnostics}

theorem check_eq_error_iff (filters : FilterLibrary P F) (tree : FileTree) (c : Config) (base : Option String) (p : P) :
    c.check filters tree base = .error p ↔ c.logging.PanicsWith filters p := by
  rw [LoggingOptions.PanicsWith, check, checkLevel]
  by_cases hblank : Text.trim c.logging.level.toList = []
  · simp [hblank, bind, Except.bind, pure, Except.pure]
  · cases h : filters.ofText (LoggingOptions.normalizeLevel c.logging.level) with
    | error q => simp [hblank, bind, Except.bind]
    | ok f => cases f <;> simp [hblank, bind, Except.bind, pure, Except.pure]

theorem exists_check_eq_ok_iff (filters : FilterLibrary P F) (tree : FileTree) (c : Config) (base : Option String) :
    (∃ warnings, c.check filters tree base = .ok warnings) ↔ ∀ p, ¬ c.logging.PanicsWith filters p := by
  simp only [← check_eq_error_iff filters tree c base]
  cases c.check filters tree base <;> simp

def notedKeys (reader : ConfigReader E) (text : String) : List String :=
  match reader.noting text with
  | .error _ => []
  | .ok (_, paths) => SortedList.ofList (paths.map KeyPath.normalize)

theorem loadText_eq (h : reader.Lawful toml) : loadText reader filters tree base text =
    match reader.plain text with
    | .error e => .error (.invalid e)
    | .ok c =>
      match c.check filters tree base with
      | .error p => .error (.panicked p)
      | .ok warnings => .ok (c, { unknownKeys := notedKeys reader text, warnings }) := by
  rw [loadText, readNoting, notedKeys, ← h.transparent text]
  cases reader.noting text <;> rfl

theorem loadText_eq_ok_iff (h : reader.Lawful toml) : loadText reader filters tree base text = .ok (c, d) ↔
    reader.plain text = .ok c ∧ c.check filters tree base = .ok d.warnings ∧ d.unknownKeys = notedKeys reader text := by
  rw [loadText_eq h]
  cases reader.plain text with
  | error e => simp
  | ok c' =>
    simp only [Except.ok.injEq]
    constructor
    · intro hload
      split at hload
      · cases hload
      next hcheck =>
        obtain ⟨rfl, rfl⟩ := Prod.mk.inj (Except.ok.inj hload)
        exact ⟨rfl, hcheck, rfl⟩
    · rintro ⟨rfl, hcheck, hkeys⟩
      rw [hcheck, ← hkeys]

theorem reports_notedKeys (h : reader.Lawful toml) (hdoc : toml.document? text = some doc)
    (hplain : reader.plain text = .ok c) :
    Reports (notedKeys reader text) (doc.unknown ∪ doc.dates toml.dateKey) := by
  obtain ⟨paths, hpaths⟩ : ∃ paths, reader.noting text = .ok (c, paths) := by
    rw [← h.transparent text] at hplain
    cases hnoting : reader.noting text with
    | error e => simp [hnoting, Except.map] at hplain
    | ok r =>
      obtain ⟨c', paths⟩ := r
      obtain rfl : c' = c := by simpa [hnoting, Except.map] using hplain
      exact ⟨paths, rfl⟩
  have hkeys : notedKeys reader text = SortedList.ofList (paths.map KeyPath.normalize) := by
    rw [notedKeys, hpaths]
  refine ⟨?_, fun key => ?_⟩
  · rw [hkeys]
    exact (SortedList.pairwise_ofList _).imp Text.bytes_lt_iff.mpr
  · simp only [hkeys, SortedList.mem_ofList, List.mem_map, h.noted hdoc hpaths]
    constructor
    · rintro ⟨_, ⟨place, hplace, rfl⟩, rfl⟩
      exact ⟨place, hplace, rfl⟩
    · rintro ⟨place, hplace, rfl⟩
      exact ⟨_, ⟨place, hplace, rfl⟩, rfl⟩

end Config

end ClassHierarchy
