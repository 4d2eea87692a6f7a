import ClassHierarchy.Toml.Lexical

namespace ClassHierarchy.Toml

inductive Inline where
  | value (v : Toml)
  | dotted (entries : List (String × Inline))

namespace Inline

def insert (v : Toml) (last : String) :
    List String → List (String × Inline) → Option (List (String × Inline))
  | [], entries =>
    match entries.lookup last with
    | none => some (entries ++ [(last, .value v)])
    | some _ => none
  | k :: path, entries =>
    match entries.lookup k with
    | none => (insert v last path []).map fun sub => entries ++ [(k, .dotted sub)]
    | some (.value _) => none
    | some (.dotted sub) =>
      (insert v last path sub).map fun sub =>
        entries.map fun e => if e.1 = k then (k, .dotted sub) else e

def toToml : Inline → Toml
  | value v => v
  | dotted entries => .table (go entries)
where
  go : List (String × Inline) → List (String × Toml)
    | [] => []
    | (k, i) :: rest => (k, i.toToml) :: go rest

end Inline

def arrayItems (item : List Char → Option (Toml × List Char)) :
    Nat → List Char → Option (List Toml × List Char)
  | 0, _ => none
  | n + 1, cs =>
    match skipLines cs.length cs with
    | ']' :: rest => some ([], rest)
    | cs => do
      let (v, rest) ← item cs
      match skipLines rest.length rest with
      | ',' :: rest =>
        let (vs, rest) ← arrayItems item n rest
        return (v :: vs, rest)
      | ']' :: rest => return ([v], rest)
      | _ => none

def inlineEntries (item : List Char → Option (Toml × List Char)) :
    Nat → List (String × Inline) → List Char → Option (List (String × Inline) × List Char)
  | 0, _, _ => none
  | n + 1, entries, cs => do
    let ((path, last), rest) ← key cs
    match rest with
    | '=' :: rest =>
      let (v, rest) ← item (skipBlanks rest)
      let entries ← Inline.insert v last path entries
      match skipBlanks rest with
      | ',' :: rest => inlineEntries item n entries rest
      | '\x7d' :: rest => return (entries, rest)
      | _ => none
    | _ => none

def value : Nat → List Char → Option (Toml × List Char)
  | 0, cs => scalar cs
  | n + 1, cs =>
    match cs with
    | '[' :: rest =>
      (arrayItems (value n) (rest.length + 1) rest).map fun (vs, rest) => (.array vs, rest)
    | '\x7b' :: rest =>
      match skipBlanks rest with
      | '\x7d' :: rest => some (.table [], rest)
      | _ =>
        (inlineEntries (value n) (rest.length + 1) [] rest).map fun (entries, rest) =>
          ((Inline.dotted entries).toToml, rest)
    | _ => scalar cs

inductive Statement where
  | header (path : List String) (last : String)
  | arrayHeader (path : List String) (last : String)
  | entry (path : List String) (last : String) (v : Toml)

def statement (cs : List Char) : Option (Statement × List Char) :=
  match cs with
  | '[' :: '[' :: rest => do
    let ((path, last), rest) ← key rest
    match rest with
    | ']' :: ']' :: rest => return (.arrayHeader path last, ← lineEnd? rest)
    | _ => none
  | '[' :: rest => do
    let ((path, last), rest) ← key rest
    match rest with
    | ']' :: rest => return (.header path last, ← lineEnd? rest)
    | _ => none
  | _ => do
    let ((path, last), rest) ← key cs
    match rest with
    | '=' :: rest =>
      let (v, rest) ← value (depthLimit - 1) (skipBlanks rest)
      return (.entry path last v, ← lineEnd? rest)
    | _ => none

def statements (text : List Char) : Option (List Statement) :=
  match text with
  | '\uFEFF' :: rest => go (rest.length + 1) rest
  | _ => go (text.length + 1) text
where
  go : Nat → List Char → Option (List Statement)
    | 0, _ => none
    | n + 1, cs =>
      match skipBlanks cs with
      | [] => some []
      | '#' :: rest => do go n (← lineEnd? ('#' :: rest))
      | cs =>
        match lineBreak? cs with
        | some rest => go n rest
        | none => do
          let (s, rest) ← statement cs
          return s :: (← go n rest)

end ClassHierarchy.Toml
