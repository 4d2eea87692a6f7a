import ClassHierarchy.Step

namespace ClassHierarchy

structure TableRow where
  before : List Step := []
  outline : Outline := {}

structure LoaderTable where
  rows : List (FullName × TableRow)
  failures : List (FullName × LoadError) := []

namespace LoaderTable

def takeSteps (direct : Loader) (name : FullName) : List Step → Script Unit
  | [] => return ()
  | step :: rest => do
    let answer ← step.script direct
    let size := (← Script.inspect).size
    Script.request (.note { loading := name, answer, size })
    takeSteps direct name rest

def loaderWithin (t : LoaderTable) : Nat → Loader
  | 0 => .notFound
  | n + 1 => fun c name => do
    let row? := t.rows.lookup name
    takeSteps (t.loaderWithin n) name (row?.elim [] (·.before))
    match t.failures.lookup name, row? with
    | some e, _ => return .error e
    | none, some row => return .ok (← row.outline.read c)
    | none, none => return .error (.notFound name)

def loader (t : LoaderTable) : Loader := t.loaderWithin (t.rows.length + 1)

end LoaderTable

end ClassHierarchy
