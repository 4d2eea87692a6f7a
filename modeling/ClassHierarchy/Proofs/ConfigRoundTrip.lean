import Mathlib
import ClassHierarchy.LogFilter
import ClassHierarchy.Proofs.Config.Reader
import ClassHierarchy.Toml.Writer

namespace ClassHierarchy

/-- The writer has a text for a document, and the text is that of this document. -/
def TomlLibrary.Restores {W : Type} (toml : TomlLibrary) (writer : Document → Except W String) (doc : Document) :
    Prop :=
  ∃ text, writer doc = .ok text ∧ toml.document? text = some doc

namespace Config

variable (c : Config)

theorem ofEntries?_entries : LoggingOptions.ofEntries? c.logging.entries = some c.logging ∧
    HierarchyOptions.ofEntries? c.hierarchy.entries = some c.hierarchy ∧
    PlatformOptions.ofEntries? c.platform.entries = some c.platform := by
  obtain ⟨⟨level, json, stderr, file⟩, hierarchy, platform⟩ := c
  refine ⟨?_, rfl, rfl⟩
  cases file <;> rfl

theorem ofDocument?_document {entries? : List String → Toml → Option Toml.Entries}
    (hentries : ∀ fields entries, entries? fields (.table entries) = some entries) :
    ofDocument? entries? c.document = some c := by
  obtain ⟨hlogging, hhierarchy, hplatform⟩ := c.ofEntries?_entries
  simp [ofDocument?, document, Toml.Entries.field, List.lookup, hentries, hlogging, hhierarchy, hplatform]

theorem fields_of_mem_document {e : String × Toml} (he : e ∈ c.document) : ∃ fields entries,
    sections.lookup e.1 = some fields ∧ e.2 = .table entries ∧ ∀ e' ∈ entries, e'.1 ∈ fields := by
  simp only [document, List.mem_cons, List.not_mem_nil, or_false] at he
  obtain rfl | rfl | rfl := he
  · refine ⟨_, _, rfl, rfl, ?_⟩
    cases hfile : c.logging.file <;> simp [LoggingOptions.entries, LoggingOptions.fields, hfile]
  · exact ⟨_, _, rfl, rfl, by simp [HierarchyOptions.entries, HierarchyOptions.fields]⟩
  · exact ⟨_, _, rfl, rfl, by simp [PlatformOptions.entries, PlatformOptions.fields]⟩

theorem document_known (mark : String) : c.document.unknown ∪ c.document.dates mark = ∅ := by
  rw [Set.eq_empty_iff_forall_notMem]
  rintro place (⟨e, he, hkey⟩ | ⟨e, he, hkey⟩)
  · obtain ⟨fields, entries, hfields, htable, hall⟩ := c.fields_of_mem_document he
    cases hkey with
    | top hnone => simp [hfields] at hnone
    | within hsome hentry hn =>
      cases htable
      obtain rfl := Option.some.inj (hfields.symm.trans hsome)
      exact hn (hall _ hentry)
  · obtain ⟨fields, entries, -, htable, -⟩ := c.fields_of_mem_document he
    cases hkey
    cases htable

theorem eq_nil_of_reports {keys : List String} (h : Reports keys ∅) : keys = [] := by
  rw [List.eq_nil_iff_forall_not_mem]
  intro key hkey
  obtain ⟨place, hplace, -⟩ := (h.members key).mp hkey
  exact hplace

variable {E P F W : Type} {reader : ConfigReader E} {toml : TomlLibrary} {writer : Document → Except W String}

theorem comes_back_as_written (h : reader.Lawful toml) (hwriter : toml.Restores writer c.document)
    (filters : FilterLibrary P F) (tree : FileTree) (base : Option String) :
    ∃ text, c.write writer = .ok text ∧ reader.plain text = .ok c ∧
      ((∃ warnings, loadText reader filters tree base text = .ok (c, { unknownKeys := [], warnings })) ↔
        ∀ p, ¬ c.logging.PanicsWith filters p) := by
  obtain ⟨text, hwrite, hdoc⟩ := hwriter
  -- the document has sections and fields only, so that nothing is noted of it
  have hplain : reader.plain text = .ok c := (h.plain hdoc c).mpr (c.ofDocument?_document h.table)
  have hreports := reports_notedKeys h hdoc hplain
  rw [c.document_known] at hreports
  have hkeys := eq_nil_of_reports hreports
  refine ⟨text, hwrite, hplain, ?_⟩
  rw [← exists_check_eq_ok_iff filters tree c base]
  constructor
  · rintro ⟨warnings, hload⟩
    exact ⟨warnings, ((loadText_eq_ok_iff h).mp hload).2.1⟩
  · rintro ⟨warnings, hcheck⟩
    exact ⟨warnings, (loadText_eq_ok_iff h).mpr ⟨hplain, hcheck, hkeys.symm⟩⟩

theorem comes_back_as_written_from_quotes : ∃ (c : Config) (text : String) (warnings : List ConfigWarning),
    c.logging.level = "a \"b\"\\\n\x01" ∧ c.logging.file = some "d'e.log" ∧ Config.reader.Lawful Toml.library ∧
    Toml.library.Restores Toml.write c.document ∧ (∀ p, ¬ c.logging.PanicsWith LogFilter.library p) ∧
    c.write Toml.write = .ok text ∧ Config.reader.plain text = .ok c ∧
    loadText Config.reader LogFilter.library {} none text = .ok (c, { unknownKeys := [], warnings }) := by
  let c : Config := { logging := { level := "a \"b\"\\\n\x01", file := some "d'e.log" } }
  have hwriter : Toml.library.Restores Toml.write c.document := by
    refine ⟨"[logging]\nlevel = \"\"\"\na \"b\"\\\\\n\\u0001\"\"\"\n" ++
      "json = false\nstderr = true\nfile = \"d'e.log\"\n\n" ++
      "[hierarchy]\nplatform_fallback = true\nsynthesize_arrays = true\n\n[jdk]\nbuiltin = true\n", by cbv, ?_⟩
    change Toml.parse? _ = some [
      ("logging", .table [("level", .string "a \"b\"\\\n\x01"), ("json", .boolean false), ("stderr", .boolean true),
        ("file", .string "d'e.log")]),
      ("hierarchy", .table [("platform_fallback", .boolean true), ("synthesize_arrays", .boolean true)]),
      ("jdk", .table [("builtin", .boolean true)])]
    cbv
  have hcheck : c.check LogFilter.library {} none = .ok [] := by decide +kernel
  have hanswers := (exists_check_eq_ok_iff LogFilter.library {} c none).mp ⟨_, hcheck⟩
  obtain ⟨text, hwrite, hplain, hload⟩ := comes_back_as_written c reader_lawful hwriter LogFilter.library {} none
  obtain ⟨warnings, hload⟩ := hload.mpr hanswers
  exact ⟨c, text, warnings, rfl, rfl, reader_lawful, hwriter, hanswers, hwrite, hplain, hload⟩

theorem level_cut_when_read_back : ∃ (c : Config) (text : String), c.write Toml.write = .ok text ∧
    Config.reader.plain text = .ok c ∧
    ∀ tree base c' d, loadText Config.reader LogFilter.library tree base text ≠ .ok (c', d) := by
  let c : Config := { logging := { level := "info, é=debug" } }
  have hwriter : Toml.library.Restores Toml.write c.document := by
    refine ⟨"[logging]\nlevel = \"info, é=debug\"\njson = false\nstderr = true\n\n" ++
      "[hierarchy]\nplatform_fallback = true\nsynthesize_arrays = true\n\n[jdk]\nbuiltin = true\n", by cbv, ?_⟩
    change Toml.parse? _ = some [
      ("logging", .table [("level", .string "info, é=debug"), ("json", .boolean false), ("stderr", .boolean true)]),
      ("hierarchy", .table [("platform_fallback", .boolean true), ("synthesize_arrays", .boolean true)]),
      ("jdk", .table [("builtin", .boolean true)])]
    cbv
  have hpanic : c.logging.PanicsWith LogFilter.library ⟨.finish, 2, 'é', 1⟩ := by
    constructor <;> decide +kernel
  obtain ⟨text, hwrite, hdoc⟩ := hwriter
  have hplain := (reader_lawful.plain hdoc c).mpr (c.ofDocument?_document reader_lawful.table)
  refine ⟨c, text, hwrite, hplain, fun tree base c' d h => ?_⟩
  obtain ⟨hc, hcheck, -⟩ := (loadText_eq_ok_iff reader_lawful).mp h
  obtain rfl := Except.ok.inj (hplain.symm.trans hc)
  exact (exists_check_eq_ok_iff LogFilter.library tree c base).mp ⟨_, hcheck⟩ _ hpanic

end Config

end ClassHierarchy
