import ClassHierarchy.Toml.Basic

namespace ClassHierarchy.Toml

inductive StringForm where
  | basic | literal | basicLines | literalLines
  deriving DecidableEq

namespace StringForm

def delimiter : StringForm → List Char
  | basic => ['"']
  | literal => ['\'']
  | basicLines => ['"', '"', '"']
  | literalLines => ['\'', '\'', '\'']

def hasLines : StringForm → Bool
  | basic | literal => false
  | basicLines | literalLines => true

def hasEscapes : StringForm → Bool
  | basic | basicLines => true
  | literal | literalLines => false

def openQuotes : StringForm → Nat
  | basicLines => 2
  | _ => 0

end StringForm

def needsEscape (c : Char) : Bool := c.toNat < 0x20 && c ≠ '\t' && c ≠ '\n' || c.toNat = 0x7F

def longestRun (q : Char) : (run : Nat) → List Char → Nat
  | run, [] => run
  | run, c :: cs => if c = q then longestRun q (run + 1) cs else max run (longestRun q 0 cs)

def hasTriple (q : Char) (s : List Char) : Bool := 2 < longestRun q 0 s

def StringForm.shows (s : List Char) : StringForm → Bool
  | basic => !s.any needsEscape && !s.contains '\\' && !s.contains '"' && !s.contains '\n'
  | literal => !s.any needsEscape && !s.contains '\'' && !s.contains '\n'
  | basicLines => !s.any needsEscape && !s.contains '\\' && !hasTriple '"' s
  | literalLines => !s.any needsEscape && !hasTriple '\'' s

def stringForm (s : List Char) : StringForm :=
  ([.basic, .literal, .basicLines, .literalLines].find? (StringForm.shows s)).getD
    (if s.contains '\n' then .basicLines else .basic)

def upperHex (width n : Nat) : List Char :=
  let digits := (Nat.toDigits 16 n).map Char.toUpper
  List.replicate (width - digits.length) '0' ++ digits

def writeChar (form : StringForm) (c : Char) : List Char :=
  match c with
  | '\x08' => ['\\', 'b']
  | '\t' => ['\\', 't']
  | '\n' => if form.hasLines then ['\n'] else ['\\', 'n']
  | '\x0c' => ['\\', 'f']
  | '\r' => ['\\', 'r']
  | '\\' => ['\\', '\\']
  | c => if needsEscape c then '\\' :: 'u' :: upperHex 4 c.toNat else [c]

def writeEscaped (form : StringForm) : (quotes : Nat) → List Char → List Char
  | _, [] => []
  | quotes, '"' :: rest =>
    if quotes < form.openQuotes then '"' :: writeEscaped form (quotes + 1) rest
    else '\\' :: '"' :: writeEscaped form 0 rest
  | _, c :: rest => writeChar form c ++ writeEscaped form 0 rest

inductive WriteError where
  | quoteRun
  | unwritable
  deriving DecidableEq

def WriteError.message : WriteError → String
  | .quoteRun => "attempt to add with overflow"
  | .unwritable => "value cannot be written"

def runLimit : Nat := 255

def delimit (s : List Char) : List Char :=
  let form := stringForm s
  let opening := if form.hasLines && s.contains '\n' then ['\n'] else []
  let inside := if form.hasEscapes then writeEscaped form 0 s else s
  form.delimiter ++ opening ++ inside ++ form.delimiter

def writeString (s : List Char) : Except WriteError (List Char) :=
  if runLimit < longestRun '"' 0 s ∨ runLimit < longestRun '\'' 0 s then .error .quoteRun
  else .ok (delimit s)

def writeValue : Toml → Except WriteError (List Char)
  | .string s => writeString s.toList
  | .boolean b => .ok (if b then "true" else "false").toList
  | _ => .error .unwritable

def writeEntry (e : String × Toml) : Except WriteError (List Char) := do
  return e.1.toList ++ " = ".toList ++ (← writeValue e.2) ++ ['\n']

def writeTable (e : String × Toml) : Except WriteError (List Char) :=
  match e.2 with
  | .table entries => do return '[' :: e.1.toList ++ [']', '\n'] ++ (← entries.mapM writeEntry).flatten
  | _ => .error .unwritable

def write (doc : Document) : Except WriteError String := do
  return String.ofList (['\n'].intercalate (← doc.mapM writeTable))

end ClassHierarchy.Toml
