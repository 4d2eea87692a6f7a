import Mathlib
import ClassHierarchy.LogFilter
import ClassHierarchy.Proofs.Config.Reader

namespace ClassHierarchy

def Toml.without (drop : String → Prop) [DecidablePred drop] : Toml → Toml
  | .table entries => .table (entries.filter fun e => ¬ drop e.1)
  | v => v

namespace Document

def entryWithout (S : Finset KeyPlace) (e : String × Toml) : Option (String × Toml) :=
  match Config.sections.lookup e.1 with
  | none => if .top e.1 ∈ S then none else some e
  | some fields => some (e.1, e.2.without fun key => key ∉ fields ∧ .within e.1 key ∈ S)

/-- A document without the unknown keys at some places, and so without what is below them. -/
def without (doc : Document) (S : Finset KeyPlace) : Document := doc.filterMap (entryWithout S)

variable {S : Finset KeyPlace} {e : String × Toml} {place : KeyPlace} {mark : String}

theorem entryWithout_of_unknown {key : String} (h : Config.sections.lookup key = none) (v : Toml) :
    entryWithout S (key, v) = if .top key ∈ S then none else some (key, v) := by
  simp [entryWithout, h]

theorem entryWithout_of_section {table : String} {fields : List String} (h : Config.sections.lookup table = some fields)
    (v : Toml) : entryWithout S (table, v) =
      some (table, v.without fun key => key ∉ fields ∧ .within table key ∈ S) := by
  simp [entryWithout, h]

theorem unknownKey_entryWithout :
    (∃ e', entryWithout S e = some e' ∧ UnknownKey e' place) ↔ UnknownKey e place ∧ place ∉ S := by
  obtain ⟨key, v⟩ := e
  constructor
  · rintro ⟨e', he', h⟩
    cases hkey : Config.sections.lookup key with
    | none =>
      obtain ⟨hS, rfl⟩ : .top key ∉ S ∧ (key, v) = e' := by simpa [entryWithout_of_unknown hkey] using he'
      cases h with
      | top _ => exact ⟨.top hkey, hS⟩
      | within htable => simp [hkey] at htable
    | some fields =>
      obtain rfl := Option.some.inj ((entryWithout_of_section hkey v).symm.trans he')
      cases v with
      | table entries =>
        cases h with
        | top hnone => simp [hkey] at hnone
        | within htable hentry hinner =>
          obtain rfl := Option.some.inj (hkey.symm.trans htable)
          obtain ⟨hentry, hkept⟩ := List.mem_filter.mp hentry
          exact ⟨.within hkey hentry hinner, by simpa [hinner] using hkept⟩
      | _ =>
        cases h with
        | top hnone => simp [hkey] at hnone
  · rintro ⟨h, hS⟩
    cases h with
    | top hkey => exact ⟨(key, v), by simp [entryWithout_of_unknown hkey, hS], .top hkey⟩
    | within hkey hentry hinner =>
      exact ⟨_, entryWithout_of_section hkey _, .within hkey (List.mem_filter.mpr ⟨hentry, by simp [hS]⟩) hinner⟩

theorem dateKey_entryWithout : (∃ e', entryWithout S e = some e' ∧ DateKey mark e' place) ↔ DateKey mark e place := by
  obtain ⟨key, v⟩ := e
  constructor
  · rintro ⟨e', he', h⟩
    cases hkey : Config.sections.lookup key with
    | none =>
      obtain ⟨-, rfl⟩ : .top key ∉ S ∧ (key, v) = e' := by simpa [entryWithout_of_unknown hkey] using he'
      exact h
    | some fields =>
      obtain rfl := Option.some.inj ((entryWithout_of_section hkey v).symm.trans he')
      cases v with
      | table entries => cases h
      | _ => exact h
  · intro h
    cases h with
    | within hkey => exact ⟨_, entryWithout_of_section hkey _, .within hkey⟩

variable (doc : Document)

theorem unknown_without : (doc.without S).unknown = doc.unknown \ S := by
  ext place
  simp only [unknown, without, List.mem_filterMap, Set.mem_ofPred_eq, Set.mem_sdiff, Finset.mem_coe]
  constructor
  · rintro ⟨e', ⟨e, he, he'⟩, h⟩
    obtain ⟨hkey, hS⟩ := unknownKey_entryWithout.mp ⟨e', he', h⟩
    exact ⟨⟨e, he, hkey⟩, hS⟩
  · rintro ⟨⟨e, he, hkey⟩, hS⟩
    obtain ⟨e', he', h⟩ := unknownKey_entryWithout.mpr ⟨hkey, hS⟩
    exact ⟨e', ⟨e, he, he'⟩, h⟩

theorem dates_without : (doc.without S).dates mark = doc.dates mark := by
  ext place
  simp only [dates, without, List.mem_filterMap, Set.mem_ofPred_eq]
  constructor
  · rintro ⟨e', ⟨e, he, he'⟩, h⟩
    exact ⟨e, he, dateKey_entryWithout.mp ⟨e', he', h⟩⟩
  · rintro ⟨e, he, hkey⟩
    obtain ⟨e', he', h⟩ := dateKey_entryWithout.mpr hkey
    exact ⟨e', ⟨e, he, he'⟩, h⟩

end Document

namespace Toml

variable {drop : String → Prop} [DecidablePred drop] {key : String}

theorem lookup_filter (h : ¬ drop key) (entries : Entries) :
    (entries.filter fun e => ¬ drop e.1).lookup key = entries.lookup key := by
  induction entries with
  | nil => rfl
  | cons e rest ih =>
    obtain ⟨key', v⟩ := e
    by_cases hkey : key = key'
    · subst hkey
      simp [h]
    · have hne : (key == key') = false := by simpa using hkey
      by_cases hdrop : drop key'
      · simpa [hdrop, List.lookup_cons, hne] using ih
      · simpa [hdrop, List.lookup_cons, hne] using ih

theorem field_filter {α : Type} (h : ¬ drop key) (entries : Entries) (read : Toml → Option α) (default : α) :
    Entries.field (entries.filter fun e => ¬ drop e.1) key read default = entries.field key read default := by
  rw [Entries.field, lookup_filter h, Entries.field]

end Toml

section Sections

variable {drop : String → Prop} [DecidablePred drop] (entries : Toml.Entries)

theorem LoggingOptions.ofEntries?_filter (h : ∀ key, drop key → key ∉ fields) :
    ofEntries? (entries.filter fun e => ¬ drop e.1) = ofEntries? entries := by
  have hfield (key : String) (hkey : key ∈ fields) : ¬ drop key := fun hdrop => h key hdrop hkey
  simp only [ofEntries?, Toml.field_filter (hfield "level" (by decide)), Toml.field_filter (hfield "json" (by decide)),
    Toml.field_filter (hfield "stderr" (by decide)), Toml.field_filter (hfield "file" (by decide))]

theorem HierarchyOptions.ofEntries?_filter (h : ∀ key, drop key → key ∉ fields) :
    ofEntries? (entries.filter fun e => ¬ drop e.1) = ofEntries? entries := by
  have hfield (key : String) (hkey : key ∈ fields) : ¬ drop key := fun hdrop => h key hdrop hkey
  simp only [ofEntries?, Toml.field_filter (hfield "platform_fallback" (by decide)),
    Toml.field_filter (hfield "synthesize_arrays" (by decide))]

theorem PlatformOptions.ofEntries?_filter (h : ∀ key, drop key → key ∉ fields) :
    ofEntries? (entries.filter fun e => ¬ drop e.1) = ofEntries? entries := by
  have hfield (key : String) (hkey : key ∈ fields) : ¬ drop key := fun hdrop => h key hdrop hkey
  simp only [ofEntries?, Toml.field_filter (hfield "builtin" (by decide))]

end Sections

namespace Document

variable {S : Finset KeyPlace} {table : String} {fields : List String}

theorem lookup_without (htable : Config.sections.lookup table = some fields) (doc : Document) :
    (doc.without S).lookup table =
      (doc.lookup table).map (·.without fun key => key ∉ fields ∧ .within table key ∈ S) := by
  induction doc with
  | nil => rfl
  | cons e rest ih =>
    obtain ⟨key, v⟩ := e
    rw [without, List.filterMap_cons]
    by_cases hkey : table = key
    · -- the entry of a section stays, with fewer keys
      subst hkey
      simp [entryWithout_of_section htable]
    · -- another entry is not the one looked for, whether it stays or not
      have hne : (table == key) = false := by simpa using hkey
      rw [List.lookup_cons, hne, ← ih]
      cases hentry : entryWithout S (key, v) with
      | none => rfl
      | some e =>
        have hname : e.1 = key := by
          simp only [entryWithout] at hentry
          split at hentry
          · split_ifs at hentry
            obtain rfl := Option.some.inj hentry
            rfl
          · obtain rfl := Option.some.inj hentry
            rfl
        rw [List.lookup_cons, hname, hne]
        rfl

theorem field_without {α : Type} {entries? : List String → Toml → Option Toml.Entries}
    (hentries : ∀ fields entries, entries? fields (.table entries) = some entries)
    (htable : Config.sections.lookup table = some fields) {read : Toml.Entries → Option α}
    (hread : ∀ (drop : String → Prop) [DecidablePred drop], (∀ key, drop key → key ∉ fields) →
      ∀ entries : Toml.Entries, read (entries.filter fun e => ¬ drop e.1) = read entries)
    (doc : Document) (default : α) :
    (doc.without S).field table (fun v => entries? fields v >>= read) default =
      doc.field table (fun v => entries? fields v >>= read) default := by
  rw [Toml.Entries.field, lookup_without htable, Toml.Entries.field]
  cases doc.lookup table with
  | none => rfl
  | some v =>
    cases v with
    | table entries =>
      simp only [Option.map_some, Toml.without, hentries, Option.bind_eq_bind, Option.bind_some]
      exact hread (fun key => key ∉ fields ∧ .within table key ∈ S) (fun _ hdrop => hdrop.1) entries
    | _ => rfl

end Document

theorem FileTree.readText_of_file {tree : FileTree} {path text : String} {place : List String}
    (hplace : tree.locate path = .ok place) (hdirectory : tree.isDirectory place = false)
    (hfile : tree.file? place = some text.toUTF8) : tree.readText path = .ok text := by
  have htext : String.fromUTF8? text.toUTF8 = some text := dif_pos text.isValidUTF8
  simp only [readText, hplace, hdirectory, hfile, htext, bind, Except.bind]
  rfl

namespace Config

open Document

variable {S : Finset KeyPlace}

theorem ofDocument?_without {entries? : List String → Toml → Option Toml.Entries}
    (hentries : ∀ fields entries, entries? fields (.table entries) = some entries) (doc : Document) :
    ofDocument? entries? (doc.without S) = ofDocument? entries? doc := by
  rw [ofDocument?, field_without hentries rfl fun _ _ h entries => LoggingOptions.ofEntries?_filter entries h,
    field_without hentries rfl fun _ _ h entries => HierarchyOptions.ofEntries?_filter entries h,
    field_without hentries rfl fun _ _ h entries => PlatformOptions.ofEntries?_filter entries h]
  rfl

variable {E P F : Type} {reader : ConfigReader E} {toml : TomlLibrary} {filters : FilterLibrary P F}

theorem plain_without (h : reader.Lawful toml) {text text' : String} {doc : Document}
    (hdoc : toml.document? text = some doc) (hless : toml.document? text' = some (doc.without S)) (c : Config) :
    reader.plain text' = .ok c ↔ reader.plain text = .ok c := by
  rw [h.plain hdoc, h.plain hless, ofDocument?_without h.table]

/-- What loading with a report gives beside loading without one. -/
inductive Accords (filters : FilterLibrary P F) :
    Except (ConfigError E P) Config → Except (ConfigError E P) (Config × Diagnostics) → Prop
  | failed (e) : Accords filters (.error e) (.error e)
  | loaded {c} (d) : (∀ p, ¬ c.logging.PanicsWith filters p) → Accords filters (.ok c) (.ok (c, d))
  | panicked {c p} : c.logging.PanicsWith filters p → Accords filters (.ok c) (.error (.panicked p))

theorem loadText_accords (h : reader.Lawful toml) (filters : FilterLibrary P F) (tree : FileTree)
    (base : Option String) (text : String) :
    Accords filters ((reader.plain text).mapError .invalid) (loadText reader filters tree base text) := by
  rw [loadText_eq h]
  cases reader.plain text with
  | error e => exact .failed _
  | ok c =>
    simp only [Except.mapError]
    cases hcheck : c.check filters tree base with
    | error p => exact .panicked ((check_eq_error_iff filters tree c base p).mp hcheck)
    | ok warnings => exact .loaded _ ((exists_check_eq_ok_iff filters tree c base).mp ⟨warnings, hcheck⟩)

theorem loadChecked_accords (h : reader.Lawful toml) (filters : FilterLibrary P F) (tree : FileTree)
    (path : String) :
    Accords filters (load reader tree path) (loadChecked reader filters tree path) := by
  rw [load, loadChecked]
  cases readFile (E := E) (P := P) tree path with
  | error e => exact .failed e
  | ok text => exact loadText_accords h filters tree _ text

theorem loadText_of_plain_iff (h : reader.Lawful toml) {tree : FileTree} {base : Option String} {text text' : String}
    {doc' : Document} {c : Config} {d : Diagnostics} (hdoc' : toml.document? text' = some doc')
    (hplain : reader.plain text' = .ok c ↔ reader.plain text = .ok c)
    (hload : loadText reader filters tree base text = .ok (c, d)) :
    ∃ keys, loadText reader filters tree base text' = .ok (c, { d with unknownKeys := keys }) ∧
      Reports keys (doc'.unknown ∪ doc'.dates toml.dateKey) := by
  obtain ⟨hc, hcheck, -⟩ := (loadText_eq_ok_iff h).mp hload
  have hc' := hplain.mpr hc
  exact ⟨notedKeys reader text', (loadText_eq_ok_iff h).mpr ⟨hc', hcheck, rfl⟩, reports_notedKeys h hdoc' hc'⟩

theorem reports_of_loadText (h : reader.Lawful toml) {tree : FileTree} {base : Option String} {text : String}
    {doc : Document} {c : Config} {d : Diagnostics} (hdoc : toml.document? text = some doc)
    (hload : loadText reader filters tree base text = .ok (c, d)) :
    Reports d.unknownKeys (doc.unknown ∪ doc.dates toml.dateKey) := by
  obtain ⟨hc, -, hkeys⟩ := (loadText_eq_ok_iff h).mp hload
  rw [hkeys]
  exact reports_notedKeys h hdoc hc

theorem unknown_keys_inert (h : reader.Lawful toml) (filters : FilterLibrary P F) (tree : FileTree) :
    (∀ path, Accords filters (load reader tree path) (loadChecked reader filters tree path)) ∧
    (∀ base text, Accords filters ((reader.plain text).mapError .invalid) (loadText reader filters tree base text)) ∧
    ∀ base text text' (doc : Document) (S : Finset KeyPlace),
      toml.document? text = some doc → toml.document? text' = some (doc.without S) →
      (∀ c, reader.plain text' = .ok c ↔ reader.plain text = .ok c) ∧
      (∀ c d, loadText reader filters tree base text = .ok (c, d) →
        Reports d.unknownKeys (doc.unknown ∪ doc.dates toml.dateKey) ∧
        ∃ keys, loadText reader filters tree base text' = .ok (c, { d with unknownKeys := keys }) ∧
          Reports keys (doc.unknown \ S ∪ doc.dates toml.dateKey)) ∧
      ∀ c d, loadText reader filters tree base text' = .ok (c, d) →
        Reports d.unknownKeys (doc.unknown \ S ∪ doc.dates toml.dateKey) ∧
        ∃ keys, loadText reader filters tree base text = .ok (c, { d with unknownKeys := keys }) ∧
          Reports keys (doc.unknown ∪ doc.dates toml.dateKey) := by
  refine ⟨loadChecked_accords h filters tree, loadText_accords h filters tree, ?_⟩
  intro base text text' doc S hdoc hless
  have hplain := plain_without h hdoc hless
  refine ⟨hplain, fun c d hload => ?_, fun c d hload => ?_⟩
  · have hkeys := loadText_of_plain_iff h hless (hplain c) hload
    rw [unknown_without, dates_without] at hkeys
    exact ⟨reports_of_loadText h hdoc hload, hkeys⟩
  · have hkeys := reports_of_loadText h hless hload
    rw [unknown_without, dates_without] at hkeys
    exact ⟨hkeys, loadText_of_plain_iff h hdoc (hplain c).symm hload⟩

theorem unknown_keys_inert_around_level : ∃ (text text' : String) (doc : Document) (S : Finset KeyPlace) (c : Config)
    (d : Diagnostics) (keys : List String),
    Config.reader.Lawful Toml.library ∧ Toml.library.document? text = some doc ∧
    Toml.library.document? text' = some (doc.without S) ∧
    loadText Config.reader LogFilter.library {} none text = .ok (c, d) ∧ d.unknownKeys = ["7", "logging.y"] ∧
    Config.reader.plain text' = .ok c ∧
    loadText Config.reader LogFilter.library {} none text' = .ok (c, { d with unknownKeys := keys }) ∧
    Reports keys (doc.unknown \ S ∪ doc.dates Toml.library.dateKey) := by
  let doc : Document := [("7", .array [.integer 1]),
    ("logging", .table [("level", .string "warn"), ("y", .table [("z", .integer 2)])])]
  let S : Finset KeyPlace := {.within "logging" "y"}
  let c : Config := { logging := { level := "warn" } }
  have hdoc : Toml.parse? "7 = [1]\n[logging]\nlevel = \"warn\"\ny = { z = 2 }\n" = some doc := by cbv
  have hless : Toml.parse? "7 = [1]\n[logging]\nlevel = \"warn\"\n" = some (doc.without S) := by cbv
  have hcheck : c.check LogFilter.library {} none = .ok [] := by decide +kernel
  have hload := loadText_reader_of_document hdoc rfl hcheck
  obtain ⟨-, -, hinert⟩ := unknown_keys_inert reader_lawful LogFilter.library {}
  obtain ⟨hplain, hkept, -⟩ := hinert none _ _ doc S hdoc hless
  obtain ⟨-, keys, hkeys, hreports⟩ := hkept c _ hload
  have hc := (hplain c).mpr (plain_reader_of_document hdoc rfl)
  exact ⟨_, _, doc, S, c, _, keys, reader_lawful, hdoc, hless, hload, by decide +kernel, hc, hkeys, hreports⟩

theorem level_cut_when_checked : ∃ (tree : FileTree) (path : String) (c : Config),
    load (P := Text.Miscut) Config.reader tree path = .ok c ∧
    ∀ c' d, loadChecked Config.reader LogFilter.library tree path ≠ .ok (c', d) := by
  let text := "[logging]\nlevel = \"info, é=debug\"\n"
  let tree : FileTree := { files := [(["nova.toml"], text.toUTF8)] }
  let c : Config := { logging := { level := "info, é=debug" } }
  have hread : readFile tree "nova.toml" = (.ok text : Except (ConfigError ReadError Text.Miscut) String) := by
    have hplace : tree.locate "nova.toml" = .ok ["nova.toml"] := by decide +kernel
    rw [readFile, FileTree.readText_of_file hplace rfl rfl]
  have hdoc : Toml.parse? text = some [("logging", .table [("level", .string "info, é=debug")])] := by cbv
  have hload : load Config.reader tree "nova.toml" = (.ok c : Except (ConfigError ReadError Text.Miscut) Config) := by
    rw [load, hread]
    exact congrArg (Except.mapError ConfigError.invalid) (plain_reader_of_document hdoc rfl)
  have hpanic : c.logging.PanicsWith LogFilter.library ⟨.finish, 2, 'é', 1⟩ := by
    constructor <;> decide +kernel
  refine ⟨tree, "nova.toml", c, hload, fun c' d h => ?_⟩
  have haccords := loadChecked_accords reader_lawful LogFilter.library tree "nova.toml"
  rw [hload, h] at haccords
  cases haccords with
  | loaded _ hanswers => exact hanswers _ hpanic

end Config

end ClassHierarchy
