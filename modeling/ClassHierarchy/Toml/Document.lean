import ClassHierarchy.Toml.Reader

/-!
TOML documents: the table that the statements of a text build. No key is given twice, and no table
is defined by two headers or by a header and a dotted key.
-/

namespace ClassHierarchy.Toml

structure TableKind where
  implicit : Bool := false
  dotted : Bool := false
  deriving DecidableEq

inductive Node where
  | value (v : Toml)
  | table (kind : TableKind) (entries : List (String × Node))
  | tables (done : List (List (String × Node))) (latest : List (String × Node))
  | opened

namespace Node

abbrev Entries := List (String × Node)

def put (k : String) (n : Node) : Entries → Entries
  | [] => [(k, n)]
  | e :: rest => if e.1 = k then (k, n) :: rest else e :: put k n rest

def alter (dotted : Bool) (f : TableKind → Entries → Option Entries) :
    List String → TableKind → Entries → Option Entries
  | [], kind, entries => f kind entries
  | k :: path, _, entries =>
    match entries.lookup k with
    | none => do
      let kind : TableKind := { implicit := true, dotted }
      return entries ++ [(k, .table kind (← alter dotted f path kind []))]
    | some (.value _) => none
    | some .opened => none
    | some (.tables done latest) => do
      return put k (.tables done (← alter dotted f path {} latest)) entries
    | some (.table kind sub) =>
      if dotted && !kind.implicit then none
      else do return put k (.table kind (← alter dotted f path kind sub)) entries

def addEntry (path : List String) (last : String) (v : Toml) (entries : Entries) : Option Entries :=
  alter true (fun kind entries =>
    if kind.dotted = path.isEmpty then none
    else
      match entries.lookup last with
      | none => some (entries ++ [(last, .value v)])
      | some _ => none) path {} entries

def takeForHeader (last : String) (entries : Entries) : Option (Entries × Entries) :=
  match entries.lookup last with
  | none => some ([], entries)
  | some (.table { implicit := true, dotted := false } sub) =>
    some (sub, entries.filter (·.1 ≠ last))
  | some _ => none

def openArray (last : String) (entries : Entries) : Option Entries :=
  match entries.lookup last with
  | none => some (entries ++ [(last, .opened)])
  | some .opened => some entries
  | some (.tables ..) => some entries
  | some _ => none

def closeArray (last : String) (table : Entries) (entries : Entries) : Option Entries :=
  match entries.lookup last with
  | some .opened => some (put last (.tables [] table) entries)
  | some (.tables done latest) => some (put last (.tables (done ++ [latest]) table) entries)
  | _ => none

mutual

def toToml : Node → Toml
  | value v => v
  | table _ entries => .table (tableToToml entries)
  | tables done latest => .array (tablesToToml done ++ [.table (tableToToml latest)])
  | opened => .array []

def tableToToml : List (String × Node) → List (String × Toml)
  | [] => []
  | (k, n) :: rest => (k, n.toToml) :: tableToToml rest

def tablesToToml : List (List (String × Node)) → List Toml
  | [] => []
  | t :: rest => .table (tableToToml t) :: tablesToToml rest

end

end Node

inductive Filling where
  | root
  | table (path : List String) (last : String)
  | arrayTable (path : List String) (last : String)

structure Draft where
  finished : Node.Entries := []
  filling : Filling := .root
  current : Node.Entries := []

namespace Draft

def finish (d : Draft) : Option Node.Entries :=
  match d.filling with
  | .root => some d.current
  | .table path last =>
    Node.alter false (fun _ entries => some (entries ++ [(last, .table {} d.current)])) path {}
      d.finished
  | .arrayTable path last =>
    Node.alter false (fun _ entries => Node.closeArray last d.current entries) path {} d.finished

def tableAt (path : List String) (entries : Node.Entries) : Option Node.Entries :=
  match path with
  | [] => some entries
  | k :: path =>
    match entries.lookup k with
    | none => some []
    | some (.table _ sub) => tableAt path sub
    | some (.tables _ latest) => tableAt path latest
    | some _ => none

def add (d : Draft) : Statement → Option Draft
  | .entry path last v => do
    return { d with current := ← Node.addEntry path last v d.current }
  | .header path last => do
    let finished ← d.finish
    let (current, _) ← Node.takeForHeader last (← tableAt path finished)
    let rest ← Node.alter false (fun _ entries => (Node.takeForHeader last entries).map (·.2)) path {}
      finished
    return { finished := rest, filling := .table path last, current }
  | .arrayHeader path last => do
    let finished ← d.finish
    let opened ← Node.alter false (fun _ entries => Node.openArray last entries) path {} finished
    return { finished := opened, filling := .arrayTable path last, current := [] }

end Draft

def parse? (text : String) : Option Document := do
  let draft ← (← statements text.toList).foldlM Draft.add {}
  return Node.tableToToml (← draft.finish)

end ClassHierarchy.Toml
