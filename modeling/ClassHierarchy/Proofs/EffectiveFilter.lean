import Mathlib.Data.List.Forall2
import Mathlib.Tactic.Common
import ClassHierarchy.Config.Check
import ClassHierarchy.LogFilter

namespace ClassHierarchy

variable {D P F : Type} {filters : FilterLibrary P F} {piece? : List Char → Option D} {make : List D → F} {info : D}
  {text as : List Char} {ds es : List D}

def directives? (piece? : List Char → Option D) (text : List Char) : Option (List D) :=
  ((Text.pieces ',' text).filter (· ≠ [])).mapM piece?

/-- What is assumed of a library of filters: there is a filter of a text just if every piece between its commas is a
directive, empty pieces apart, and it is made of these; the word `info` is a directive. -/
structure FilterLibrary.Splits (filters : FilterLibrary P F) (piece? : List Char → Option D) (make : List D → F)
    (info : D) : Prop where
  ofText : ∀ text, filters.ofText text = .ok ((directives? piece? text.toList).map make)
  infoOnly : filters.infoOnly = make [info]
  piece_info : piece? "info".toList = some info

def FilterLibrary.ofPieces (piece? : List Char → Option D) (make : List D → F) (info : D) : FilterLibrary P F where
  ofText text := .ok ((directives? piece? text.toList).map make)
  infoOnly := make [info]

theorem FilterLibrary.splits_ofPieces (h : piece? "info".toList = some info) :
    (ofPieces piece? make info : FilterLibrary P F).Splits piece? make info where
  ofText _ := rfl
  infoOnly := rfl
  piece_info := h

def ReadsAs (piece? : List Char → Option D) (text : List Char) (ds : List D) : Prop :=
  List.Forall₂ (fun piece d => piece? piece = some d) ((Text.pieces ',' text).filter (· ≠ [])) ds

theorem mapM_eq_some_iff {pieces : List (List Char)} :
    pieces.mapM piece? = some ds ↔ List.Forall₂ (fun piece d => piece? piece = some d) pieces ds := by
  induction pieces generalizing ds with
  | nil => cases ds <;> simp
  | cons piece pieces ih =>
    rw [List.mapM_cons]
    cases hd : piece? piece with
    | none => cases ds <;> simp [hd]
    | some d =>
      cases hds : pieces.mapM piece? with
      | none => cases ds <;> simp [← ih, hd, hds]
      | some rest => cases ds <;> simp [← ih, hd, hds]

theorem readsAs_iff : ReadsAs piece? text ds ↔ directives? piece? text = some ds := mapM_eq_some_iff.symm

theorem not_readsAs_iff : (¬ ∃ ds, ReadsAs piece? text ds) ↔ directives? piece? text = none := by
  simp only [readsAs_iff]
  cases directives? piece? text <;> simp

theorem directives?_join (as bs : List Char) : directives? piece? (as ++ ',' :: bs) = do
    return (← directives? piece? as) ++ (← directives? piece? bs) := by
  rw [directives?, Text.pieces_append, List.filter_append, List.mapM_append]
  rfl

/-- The directives in force, where `own` is the text that is configured and the other the one that the environment
gives, if any. -/
inductive InForce (piece? : List Char → Option D) (info : D) (own : List Char) : Option (List Char) → List D → Prop
  | both {given ds es} : ReadsAs piece? own ds → ReadsAs piece? given es →
      InForce piece? info own (some given) (ds ++ es)
  | given {given es} : (¬ ∃ ds, ReadsAs piece? own ds) → ReadsAs piece? given es →
      InForce piece? info own (some given) es
  | own {given? ds} : ReadsAs piece? own ds → (∀ given ∈ given?, ¬ ∃ es, ReadsAs piece? given es) →
      InForce piece? info own given? ds
  | neither {given?} : (¬ ∃ ds, ReadsAs piece? own ds) → (∀ given ∈ given?, ¬ ∃ es, ReadsAs piece? given es) →
      InForce piece? info own given? [info]

theorem exists_inForce (piece? : List Char → Option D) (info : D) (own : List Char) (given? : Option (List Char)) :
    ∃ ds, InForce piece? info own given? ds := by
  by_cases hgiven : ∃ given ∈ given?, ∃ es, ReadsAs piece? given es
  · obtain ⟨given, rfl, es, he⟩ := hgiven
    by_cases hown : ∃ ds, ReadsAs piece? own ds
    · exact ⟨_, .both hown.choose_spec he⟩
    · exact ⟨es, .given hown he⟩
  · have hn : ∀ given ∈ given?, ¬ ∃ es, ReadsAs piece? given es := fun given hg he => hgiven ⟨given, hg, he⟩
    by_cases hown : ∃ ds, ReadsAs piece? own ds
    · exact ⟨_, .own hown.choose_spec hn⟩
    · exact ⟨_, .neither hown hn⟩

namespace LoggingOptions

variable (o : LoggingOptions) {environment : Option String} {given : List Char}

def levelText : List Char := (normalizeLevel o.level).toList

def givenText (environment : Option String) : Option (List Char) :=
  (environment.map fun text => Text.trim text.toList).filter (· ≠ [])

theorem ownFilter_eq (h : filters.Splits piece? make info) :
    o.ownFilter filters = .ok (make ((directives? piece? o.levelText).getD [info])) := by
  rw [ownFilter, h.ofText, h.infoOnly, ← levelText]
  cases directives? piece? o.levelText <;> rfl

theorem filter_of_none (h : givenText environment = none) : o.filter filters environment = o.ownFilter filters := by
  have hblank : Text.trim (environment.getD "").toList = [] := by
    cases environment with
    | none => rfl
    | some text => simpa [givenText, Option.filter_eq_none_iff] using h
  rw [filter, hblank]

theorem filter_of_some (h : filters.Splits piece? make info) (hgiven : givenText environment = some given) :
    o.filter filters environment =
      match directives? piece? (o.levelText ++ ',' :: given), directives? piece? given with
      | some ds, _ => .ok (make ds)
      | none, some es => .ok (make es)
      | none, none => o.ownFilter filters := by
  cases environment with
  | none => cases hgiven
  | some text =>
    obtain ⟨rfl, hne⟩ : Text.trim text.toList = given ∧ given ≠ [] := by
      simpa [givenText, Option.filter_eq_some_iff, and_comm] using hgiven
    obtain ⟨c, cs, hcs⟩ := List.exists_cons_of_ne_nil hne
    have hjoined : (normalizeLevel o.level ++ "," ++ String.ofList (c :: cs)).toList =
        o.levelText ++ ',' :: c :: cs := by
      simp [levelText]
    simp only [filter, Option.getD_some, hcs, h.ofText, hjoined, String.toList_ofList]
    cases directives? piece? (o.levelText ++ ',' :: c :: cs) <;> cases directives? piece? (c :: cs) <;> rfl

theorem filter_of_given (h : filters.Splits piece? make info) (hgiven : givenText environment = some given)
    (he : ReadsAs piece? given es) :
    o.filter filters environment = .ok (make ((directives? piece? o.levelText).getD [] ++ es)) := by
  -- as the environment reads, the joined text reads just if the level does
  rw [o.filter_of_some h hgiven, directives?_join, readsAs_iff.mp he]
  cases directives? piece? o.levelText <;> rfl

theorem filter_of_not_given (h : filters.Splits piece? make info)
    (hgiven : ∀ given ∈ givenText environment, ¬ ∃ es, ReadsAs piece? given es) :
    o.filter filters environment = o.ownFilter filters := by
  cases hg : givenText environment with
  | none => exact o.filter_of_none hg
  | some given =>
    have hnone := not_readsAs_iff.mp (hgiven given hg)
    rw [o.filter_of_some h hg, directives?_join, hnone]
    cases directives? piece? o.levelText <;> rfl

theorem filter_of_inForce (h : filters.Splits piece? make info)
    (hds : InForce piece? info o.levelText (givenText environment) ds) :
    o.filter filters environment = .ok (make ds) := by
  generalize hg : givenText environment = given? at hds
  cases hds with
  | both hd he => simp [o.filter_of_given h hg he, readsAs_iff.mp hd]
  | given hn he => simp [o.filter_of_given h hg he, not_readsAs_iff.mp hn]
  | own hd hn => simp [o.filter_of_not_given h (hg ▸ hn), o.ownFilter_eq h, readsAs_iff.mp hd]
  | neither hl hn => simp [o.filter_of_not_given h (hg ▸ hn), o.ownFilter_eq h, not_readsAs_iff.mp hl]

end LoggingOptions

def Directive.parse? (piece : List Char) : Option Directive := (ofText piece).toOption

namespace Config

variable (c : Config)

theorem readsAs_levelText_of_blank (h : filters.Splits piece? make info)
    (hblank : Text.trim c.logging.level.toList = []) : ReadsAs piece? c.logging.levelText [info] := by
  have htext : c.logging.levelText = "info".toList := by
    rw [LoggingOptions.levelText, LoggingOptions.normalizeLevel, hblank]
  have hpieces : (Text.pieces ',' "info".toList).filter (· ≠ []) = ["info".toList] := by decide
  rw [ReadsAs, htext, hpieces]
  exact .cons h.piece_info .nil

theorem checkLevel_eq (h : filters.Splits piece? make info) : c.checkLevel filters = .ok
    (if (directives? piece? c.logging.levelText).isSome then []
      else [.levelInvalid c.logging.level (LoggingOptions.normalizeLevel c.logging.level)]) := by
  rw [checkLevel]
  by_cases hblank : Text.trim c.logging.level.toList = []
  · simp [hblank, readsAs_iff.mp (c.readsAs_levelText_of_blank h hblank)]
    rfl
  · rw [if_neg hblank, h.ofText, ← LoggingOptions.levelText]
    cases directives? piece? c.logging.levelText <;> rfl

theorem levelInvalid_not_mem_others (tree : FileTree) (base : Option String) (value normalized : String) :
    .levelInvalid value normalized ∉ c.checkLogFile tree base ∧ .levelInvalid value normalized ∉ c.checkPlatform := by
  constructor
  · rw [checkLogFile]
    split
    · split <;> simp
    · simp
  · rw [checkPlatform]
    split <;> simp

theorem levelInvalid_mem_checkLevel {ws : List ConfigWarning} (h : filters.Splits piece? make info)
    (hws : c.checkLevel filters = .ok ws) (value normalized : String) :
    .levelInvalid value normalized ∈ ws ↔ (¬ ∃ ds, ReadsAs piece? c.logging.levelText ds) ∧
      value = c.logging.level ∧ normalized = LoggingOptions.normalizeLevel c.logging.level := by
  obtain rfl := Except.ok.inj ((c.checkLevel_eq h).symm.trans hws)
  rw [not_readsAs_iff]
  cases directives? piece? c.logging.levelText <;> simp

theorem filter_and_warning_agree (h : filters.Splits piece? make info) (tree : FileTree)
    (base environment : Option String) :
    (∃ ds, InForce piece? info c.logging.levelText (LoggingOptions.givenText environment) ds ∧
      c.logging.filter filters environment = .ok (make ds)) ∧
    ∃ warnings, c.check filters tree base = .ok warnings ∧ ∀ value normalized,
      (.levelInvalid value normalized ∈ warnings ↔ (¬ ∃ ds, ReadsAs piece? c.logging.levelText ds) ∧
        value = c.logging.level ∧ normalized = LoggingOptions.normalizeLevel c.logging.level) := by
  constructor
  · obtain ⟨ds, hds⟩ := exists_inForce piece? info c.logging.levelText (LoggingOptions.givenText environment)
    exact ⟨ds, hds, c.logging.filter_of_inForce h hds⟩
  · have hlevel := c.checkLevel_eq h
    refine ⟨_, by rw [check, hlevel]; rfl, fun value normalized => ?_⟩
    obtain ⟨hfile, hplatform⟩ := c.levelInvalid_not_mem_others tree base value normalized
    simp only [List.mem_append, hfile, hplatform, or_false]
    exact c.levelInvalid_mem_checkLevel h hlevel value normalized

theorem filter_and_warning_agree_beside_environment :
    ∃ (filters : FilterLibrary Text.Miscut LogFilter) (info : Directive) (c : Config) (ds : List Directive)
      (warnings : List ConfigWarning),
    filters.Splits Directive.parse? LogFilter.ofDirectives info ∧ c.logging.level = "nova=loud" ∧
    InForce Directive.parse? info c.logging.levelText (LoggingOptions.givenText (some " nova.jdk=debug ")) ds ∧
    c.logging.filter filters (some " nova.jdk=debug ") = .ok (LogFilter.ofDirectives ds) ∧
    LogFilter.ofDirectives ds = LogFilter.ofDirectives [{ target := some "nova.jdk", threshold := .upTo .debug }] ∧
    c.check filters {} none = .ok warnings ∧ (.levelInvalid "nova=loud" "nova=loud" ∈ warnings ↔
      (¬ ∃ ds, ReadsAs Directive.parse? c.logging.levelText ds) ∧ "nova=loud" = c.logging.level ∧
        "nova=loud" = LoggingOptions.normalizeLevel c.logging.level) := by
  let info : Directive := { target := none, threshold := .upTo .info }
  let filters : FilterLibrary Text.Miscut LogFilter := .ofPieces Directive.parse? LogFilter.ofDirectives info
  let c : Config := { logging := { level := "nova=loud" } }
  have h : filters.Splits Directive.parse? LogFilter.ofDirectives info :=
    FilterLibrary.splits_ofPieces (by decide +kernel)
  have hjdk : c.logging.filter filters (some " nova.jdk=debug ") =
      .ok (LogFilter.ofDirectives [{ target := some "nova.jdk", threshold := .upTo .debug }]) := by decide +kernel
  obtain ⟨⟨ds, hds, hfilter⟩, warnings, hcheck, hmem⟩ :=
    filter_and_warning_agree c h {} none (some " nova.jdk=debug ")
  exact ⟨filters, info, c, ds, warnings, h, rfl, hds, hfilter, Except.ok.inj (hfilter.symm.trans hjdk), hcheck,
    hmem _ _⟩

end Config

end ClassHierarchy
