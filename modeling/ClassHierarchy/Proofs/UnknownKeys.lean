import Mathlib
import ClassHierarchy.LogFilter
import ClassHierarchy.Proofs.Config.Reader

namespace ClassHierarchy

def Toml.inner : Toml → Toml.Entries
  | .table entries => entries
  | _ => []

def Toml.IsBareKey (key : String) : Prop := key ≠ "" ∧ key.toList.all Toml.isBare = true

instance (key : String) : Decidable (Toml.IsBareKey key) := inferInstanceAs (Decidable (_ ∧ _))

def Document.Bare (doc : Document) : Prop :=
  ∀ e ∈ doc, Toml.IsBareKey e.1 ∧ ∀ e' ∈ e.2.inner, Toml.IsBareKey e'.1

instance (doc : Document) : Decidable doc.Bare := inferInstanceAs (Decidable (∀ e ∈ doc, _ ∧ _))

structure KeyPath.Whole (part : String) : Prop where
  nonempty : part ≠ ""
  undotted : '.' ∉ part.toList
  unbracketed : '[' ∉ part.toList

theorem Toml.IsBareKey.whole {key : String} (h : Toml.IsBareKey key) : KeyPath.Whole key where
  nonempty := h.1
  undotted hmem := absurd (List.all_eq_true.mp h.2 _ hmem) (by decide)
  unbracketed hmem := absurd (List.all_eq_true.mp h.2 _ hmem) (by decide)

theorem Config.whole_of_lookup {table : String} {fields : List String}
    (h : Config.sections.lookup table = some fields) : KeyPath.Whole table := by
  obtain ⟨before, after, hsections, -⟩ := List.lookup_eq_some_iff.mp h
  have hmem : (table, fields) ∈ sections := by simp [hsections]
  have hall : ∀ entry ∈ sections, Toml.IsBareKey entry.1 := by decide
  exact (hall _ hmem).whole

theorem KeyPath.Whole.dropWhile {part : String} (h : KeyPath.Whole part) (rest : List Char) :
    (part.toList ++ rest).dropWhile (· = '.') = part.toList ++ rest := by
  obtain ⟨c, cs, hpart⟩ := List.exists_cons_of_ne_nil (l := part.toList) (by simpa using h.nonempty)
  have hc : c ≠ '.' := by
    rintro rfl
    exact h.undotted (by simp [hpart])
  simp [hpart, hc]

namespace KeyPlace

def written : KeyPlace → String
  | top key => key
  | within table key => if key.toList.all Char.isDigit then table ++ "[" ++ key ++ "]" else table ++ "." ++ key

def Whole (place : KeyPlace) : Prop := ∀ part ∈ place.path, KeyPath.Whole part

variable {place place' : KeyPlace}

theorem normalize_eq_written (h : place.Whole) : KeyPath.normalize place.path.joined = place.written := by
  cases place with
  | top key =>
    have hkey : KeyPath.Whole key := h key (by simp [path])
    have hdrop := hkey.dropWhile []
    rw [List.append_nil] at hdrop
    simp [path, KeyPath.joined, KeyPath.normalize, written, hdrop, Text.pieces_of_not_mem hkey.undotted,
      KeyPath.joinParts]
  | within table key =>
    have htable : KeyPath.Whole table := h table (by simp [path])
    have hkey : KeyPath.Whole key := h key (by simp [path])
    have hpieces : Text.pieces '.' (table.toList ++ '.' :: key.toList) = [table.toList, key.toList] := by
      rw [Text.pieces_append, Text.pieces_of_not_mem htable.undotted, Text.pieces_of_not_mem hkey.undotted]
      rfl
    have hjoined : (KeyPath.joined (path (within table key))).toList = table.toList ++ '.' :: key.toList := by
      simp [path, KeyPath.joined, String.intercalate_cons_cons]
    have hne : table.toList ≠ [] ∧ key.toList ≠ [] := by simpa using ⟨htable.nonempty, hkey.nonempty⟩
    rw [KeyPath.normalize, hjoined, htable.dropWhile, hpieces, ← String.toList_inj]
    by_cases hdigits : key.toList.all Char.isDigit = true
    · simp [KeyPath.joinParts, KeyPath.isIndex, written, hne, hdigits]
    · simp [KeyPath.joinParts, KeyPath.isIndex, written, hne, hdigits]

theorem toList_written_within (table key : String) : ∃ mark rest,
    (within table key).written.toList = table.toList ++ mark :: rest ∧
      (mark = '[' ∧ rest = key.toList ++ [']'] ∨ mark = '.' ∧ rest = key.toList) := by
  by_cases hdigits : key.toList.all Char.isDigit = true
  · exact ⟨'[', _, by simp [written, hdigits], .inl ⟨rfl, rfl⟩⟩
  · exact ⟨'.', _, by simp [written, hdigits], .inr ⟨rfl, rfl⟩⟩

theorem append_mark_inj {xs ys us vs : List Char} {m n : Char} (hx : '.' ∉ xs ∧ '[' ∉ xs) (hy : '.' ∉ ys ∧ '[' ∉ ys)
    (hm : m = '[' ∨ m = '.') (hn : n = '[' ∨ n = '.') (h : xs ++ m :: us = ys ++ n :: vs) :
    xs = ys ∧ m = n ∧ us = vs := by
  induction xs generalizing ys with
  | nil =>
    cases ys with
    | nil => simpa using h
    | cons y ys =>
      obtain ⟨rfl, -⟩ := List.cons.inj h
      obtain rfl | rfl := hm <;> simp at hy
  | cons x xs ih =>
    cases ys with
    | nil =>
      obtain ⟨rfl, -⟩ := List.cons.inj h
      obtain rfl | rfl := hn <;> simp at hx
    | cons y ys =>
      obtain ⟨rfl, htail⟩ := List.cons.inj h
      simp only [List.mem_cons, not_or] at hx hy
      obtain ⟨rfl, hrest⟩ := ih ⟨hx.1.2, hx.2.2⟩ ⟨hy.1.2, hy.2.2⟩ htail
      exact ⟨rfl, hrest⟩

theorem written_top_ne {key table inner : String} (h : KeyPath.Whole key) :
    (top key).written ≠ (within table inner).written := by
  intro heq
  obtain ⟨mark, rest, hwritten, hmark⟩ := toList_written_within table inner
  have hmem : mark ∈ key.toList := by
    rw [← show (top key).written = key from rfl, heq, hwritten]
    simp
  obtain ⟨rfl, -⟩ | ⟨rfl, -⟩ := hmark
  · exact h.unbracketed hmem
  · exact h.undotted hmem

theorem written_inj (h : place.Whole) (h' : place'.Whole) (heq : place.written = place'.written) : place = place' := by
  have whole {place : KeyPlace} (h : place.Whole) {part : String} (hpart : part ∈ place.path) :
      '.' ∉ part.toList ∧ '[' ∉ part.toList := ⟨(h part hpart).undotted, (h part hpart).unbracketed⟩
  cases place with
  | top key =>
    cases place' with
    | top key' => exact congrArg top heq
    | within table' key' => exact absurd heq (written_top_ne (h key (by simp [path])))
  | within table key =>
    cases place' with
    | top key' => exact absurd heq.symm (written_top_ne (h' key' (by simp [path])))
    | within table' key' =>
      obtain ⟨m, rest, hwritten, hm⟩ := toList_written_within table key
      obtain ⟨n, rest', hwritten', hn⟩ := toList_written_within table' key'
      rw [← String.toList_inj, hwritten, hwritten'] at heq
      -- no name of a table has a mark in it, so both texts are cut at the same place
      obtain ⟨htable, rfl, rfl⟩ := append_mark_inj (whole h (by simp [path])) (whole h' (by simp [path]))
        (hm.imp And.left And.left) (hn.imp And.left And.left) heq
      have hkey : key.toList = key'.toList := by
        obtain ⟨rfl, hr⟩ | ⟨rfl, hr⟩ := hm
        · obtain ⟨-, hr'⟩ | ⟨⟨⟩, -⟩ := hn
          exact List.append_cancel_right (hr.symm.trans hr')
        · obtain ⟨⟨⟩, -⟩ | ⟨-, hr'⟩ := hn
          exact hr.symm.trans hr'
      rw [String.toList_inj.mp htable, String.toList_inj.mp hkey]

end KeyPlace

theorem Document.Bare.whole {doc : Document} {mark : String} (h : doc.Bare) (hmark : KeyPath.Whole mark)
    {place : KeyPlace} (hplace : place ∈ doc.unknown ∪ doc.dates mark) : place.Whole := by
  obtain ⟨e, he, hkey⟩ | ⟨e, he, hkey⟩ := hplace
  · cases hkey with
    | top => simpa [KeyPlace.Whole, KeyPlace.path] using (h _ he).1.whole
    | within htable hentry =>
      have hkey := ((h _ he).2 _ hentry).whole
      simpa [KeyPlace.Whole, KeyPlace.path] using ⟨Config.whole_of_lookup htable, hkey⟩
  · cases hkey with
    | within htable => simpa [KeyPlace.Whole, KeyPlace.path] using ⟨Config.whole_of_lookup htable, hmark⟩

theorem unknown_keys_told_apart {E P F : Type} {reader : ConfigReader E} {filters : FilterLibrary P F}
    {toml : TomlLibrary} {tree : FileTree} {base : Option String} {text : String} {doc : Document} {c : Config}
    {d : Diagnostics} (h : reader.Lawful toml) (hmark : KeyPath.Whole toml.dateKey)
    (hdoc : toml.document? text = some doc) (hbare : doc.Bare)
    (hload : Config.loadText reader filters tree base text = .ok (c, d)) :
    d.unknownKeys.Pairwise (fun key key' => Text.bytes key < Text.bytes key') ∧
    Set.BijOn KeyPlace.written (doc.unknown ∪ doc.dates toml.dateKey) {key | key ∈ d.unknownKeys} := by
  obtain ⟨hplain, -, hkeys⟩ := (Config.loadText_eq_ok_iff h).mp hload
  obtain ⟨hincreasing, hmembers⟩ := Config.reports_notedKeys h hdoc hplain
  rw [← hkeys] at hincreasing hmembers
  have hwhole {place : KeyPlace} (hplace : place ∈ doc.unknown ∪ doc.dates toml.dateKey) : place.Whole :=
    hbare.whole hmark hplace
  refine ⟨hincreasing, fun place hplace => ?_, fun place hplace place' hplace' heq => ?_, fun key hkey => ?_⟩
  · exact (hmembers _).mpr ⟨place, hplace, KeyPlace.normalize_eq_written (hwhole hplace)⟩
  · exact KeyPlace.written_inj (hwhole hplace) (hwhole hplace') heq
  · obtain ⟨place, hplace, rfl⟩ := (hmembers key).mp hkey
    exact ⟨place, hplace, (KeyPlace.normalize_eq_written (hwhole hplace)).symm⟩

theorem unknown_keys_told_apart_among_sevens : ∃ (text : String) (doc : Document) (c : Config) (d : Diagnostics),
    Config.reader.Lawful Toml.library ∧ KeyPath.Whole Toml.library.dateKey ∧ Toml.library.document? text = some doc ∧
    doc.Bare ∧ Config.loadText Config.reader LogFilter.library {} none text = .ok (c, d) ∧
    d.unknownKeys = ["7", "jdk.$__toml_private_datetime", "logging[7]"] ∧
    d.unknownKeys.Pairwise (fun key key' => Text.bytes key < Text.bytes key') ∧
    Set.BijOn KeyPlace.written (doc.unknown ∪ doc.dates Toml.library.dateKey) {key | key ∈ d.unknownKeys} := by
  let doc : Document := [("jdk", .dateTime "1979-05-27"), ("7", .integer 1), ("logging", .table [("7", .integer 2)])]
  have hdoc : Toml.parse? "jdk = 1979-05-27\n7 = 1\n[logging]\n7 = 2\n" = some doc := by cbv
  have hbare : doc.Bare := by decide
  have hmark : KeyPath.Whole Toml.library.dateKey := by constructor <;> decide
  have hcheck : ({} : Config).check LogFilter.library {} none = .ok [] := by decide +kernel
  have hload := Config.loadText_reader_of_document (c := {}) hdoc rfl hcheck
  exact ⟨_, doc, _, _, Config.reader_lawful, hmark, hdoc, hbare, hload, by decide +kernel,
    unknown_keys_told_apart Config.reader_lawful hmark hdoc hbare hload⟩

theorem date_reported_as_key : ∃ (text : String) (doc : Document) (c : Config) (d : Diagnostics),
    Toml.library.document? text = some doc ∧ doc.Bare ∧
    Config.loadText Config.reader LogFilter.library {} none text = .ok (c, d) ∧ doc.unknown = ∅ ∧
    d.unknownKeys = ["logging.$__toml_private_datetime"] := by
  let doc : Document := [("logging", .dateTime "1979-05-27")]
  have hdoc : Toml.parse? "logging = 1979-05-27\n" = some doc := by cbv
  have hcheck : ({} : Config).check LogFilter.library {} none = .ok [] := by decide +kernel
  have hload := Config.loadText_reader_of_document (c := {}) hdoc rfl hcheck
  refine ⟨_, doc, _, _, hdoc, by decide, hload, ?_, by decide +kernel⟩
  rw [Set.eq_empty_iff_forall_notMem]
  rintro place ⟨e, he, hkey⟩
  obtain rfl := List.mem_singleton.mp he
  cases hkey with
  | top hnone => cases hnone

end ClassHierarchy
