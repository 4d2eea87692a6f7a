import ClassHierarchy.Config.Reader
import ClassHierarchy.Proofs.Config.Keys

namespace ClassHierarchy

def Toml.library : TomlLibrary where
  document? := parse?
  entries? := entries?
  dateKey := dateKey

namespace Config

theorem mem_strange {e : String × Toml} {path : KeyPath} :
    path ∈ strange e ↔ ∃ place, (UnknownKey e place ∨ DateKey Toml.dateKey e place) ∧ place.path = path := by
  obtain ⟨key, v⟩ := e
  constructor
  · intro h
    cases hkey : sections.lookup key with
    | none =>
      obtain rfl : path = [key] := by simpa [strange, hkey] using h
      exact ⟨.top key, .inl (.top hkey), rfl⟩
    | some fields =>
      simp only [strange, hkey, List.mem_map] at h
      obtain ⟨inner, hinner, rfl⟩ := h
      cases v with
      | table entries =>
        obtain ⟨⟨w, hw⟩, hn⟩ : (∃ w, (inner, w) ∈ entries) ∧ inner ∉ fields := by simpa [strangeKeys] using hinner
        exact ⟨.within key inner, .inl (.within hkey hw hn), rfl⟩
      | dateTime text =>
        obtain rfl : inner = Toml.dateKey := by simpa [strangeKeys] using hinner
        exact ⟨.within key Toml.dateKey, .inr (.within hkey), rfl⟩
      | _ => cases hinner
  · rintro ⟨place, h | h, rfl⟩
    · cases h with
      | top hkey => simp [strange, hkey, KeyPlace.path]
      | within hkey hw hn => simpa [strange, hkey, KeyPlace.path, strangeKeys] using ⟨⟨_, hw⟩, hn⟩
    · cases h with
      | within hkey => simp [strange, hkey, KeyPlace.path, strangeKeys]

theorem mem_noted {doc : Document} {path : String} : path ∈ (doc.flatMap strange).map KeyPath.joined ↔
    ∃ place ∈ doc.unknown ∪ doc.dates Toml.dateKey, place.path.joined = path := by
  simp only [List.mem_map, List.mem_flatMap, mem_strange]
  constructor
  · rintro ⟨_, ⟨e, he, place, h, rfl⟩, rfl⟩
    exact ⟨place, h.imp (⟨e, he, ·⟩) (⟨e, he, ·⟩), rfl⟩
  · rintro ⟨place, ⟨e, he, h⟩ | ⟨e, he, h⟩, rfl⟩
    · exact ⟨_, ⟨e, he, place, .inl h, rfl⟩, rfl⟩
    · exact ⟨_, ⟨e, he, place, .inr h, rfl⟩, rfl⟩

variable {text : String} {doc : Document} {c : Config} {paths : List String}

theorem read_eq_ok_iff (hdoc : Toml.parse? text = some doc) : read text = .ok (c, paths) ↔
    ofDocument? Toml.entries? doc = some c ∧ paths = (doc.flatMap strange).map KeyPath.joined := by
  rw [read, hdoc]
  cases hc : ofDocument? Toml.entries? doc with
  | none => simp [hc]
  | some c' => simp [hc, eq_comm]

theorem plain_reader_of_document (hdoc : Toml.parse? text = some doc) (hc : ofDocument? Toml.entries? doc = some c) :
    reader.plain text = .ok c := by
  change (read text).map (·.1) = .ok c
  rw [(read_eq_ok_iff hdoc).mpr ⟨hc, rfl⟩]
  rfl

theorem loadText_reader_of_document {P F : Type} {filters : FilterLibrary P F} {tree : FileTree} {base : Option String}
    {warnings : List ConfigWarning} (hdoc : Toml.parse? text = some doc)
    (hc : ofDocument? Toml.entries? doc = some c) (hcheck : c.check filters tree base = .ok warnings) :
    loadText reader filters tree base text = .ok (c, {
      unknownKeys := SortedList.ofList (((doc.flatMap strange).map KeyPath.joined).map KeyPath.normalize)
      warnings }) := by
  have hnoting : reader.noting text = .ok (c, (doc.flatMap strange).map KeyPath.joined) :=
    (read_eq_ok_iff hdoc).mpr ⟨hc, rfl⟩
  simp [loadText, readNoting, hnoting, hcheck, Except.map]

theorem reader_lawful : reader.Lawful Toml.library where
  transparent _ := rfl
  table _ _ := rfl
  plain {text doc} hdoc c := by
    change (read text).map (·.1) = .ok c ↔ _
    rw [read, show Toml.parse? text = some doc from hdoc]
    cases hc : ofDocument? Toml.entries? doc with
    | none => simp [hc, Except.map, Toml.library]
    | some c' => simp [hc, Except.map, Toml.library]
  noted hdoc hread path := by
    rw [((read_eq_ok_iff hdoc).mp hread).2]
    exact mem_noted

end Config

end ClassHierarchy
