import ClassHierarchy.Config.Basic
import ClassHierarchy.Event
import ClassHierarchy.Text.Bytes

/-!
A library of log filters to run with; what is proved of the effective filter holds for every one that splits texts at
commas. A filter is a list of directives, each a threshold for the targets that begin in a given way; the directive with
the longest beginning that fits an event's target decides. Directives for spans are left out.
-/

namespace ClassHierarchy

inductive Threshold where
  | off
  | upTo (s : Severity)
  deriving DecidableEq

namespace Threshold

def rank : Threshold → Nat
  | off => 0
  | upTo s => s.rank

def all : List Threshold := off :: Severity.all.map upTo

def label : Threshold → String
  | off => "off"
  | upTo .error => "error"
  | upTo .warn => "warn"
  | upTo .info => "info"
  | upTo .debug => "debug"
  | upTo .trace => "trace"

def max (a b : Threshold) : Threshold := if a.rank < b.rank then b else a

def admits (t : Threshold) (s : Severity) : Bool := s.rank ≤ t.rank

def number? (text : List Char) : Option Nat :=
  let digits := match text with
    | '+' :: rest => rest
    | _ => text
  if digits ≠ [] ∧ digits.all Char.isDigit then
    some (digits.foldl (fun n d => 10 * n + (d.toNat - '0'.toNat)) 0)
  else none

def parse? (text : List Char) : Option Threshold :=
  match number? text with
  | some n => all.find? (·.rank == n)
  | none => all.find? (·.label.toList == text.map Char.toLower)

end Threshold

inductive FilterError where
  | malformed
  | miscut (m : Text.Miscut)
  deriving DecidableEq

structure Directive where
  target : Option String
  threshold : Threshold
  deriving DecidableEq

namespace Directive

def precedes (a b : Directive) : Bool :=
  match a.target, b.target with
  | some s, some t => t.utf8ByteSize < s.utf8ByteSize || (s.utf8ByteSize == t.utf8ByteSize && t < s)
  | some _, none => true
  | none, _ => false

def covers (d : Directive) (target : String) : Bool :=
  d.target.all fun t => t.toList.isPrefixOf target.toList

def render (d : Directive) : String :=
  match d.target with
  | some t => t ++ "=" ++ d.threshold.label
  | none => d.threshold.label

def canBegin (c : Char) : Bool := c = '-' || c = ':' || c = '_' || Text.isAlphanumeric c

def levelAfter? (level : List Char) : Option Threshold :=
  if level = [] then some (.upTo .trace) else Threshold.parse? level

def sides (text : List Char) : Except Text.Miscut (List Char × List Char) := do
  let place := Text.byteLength ((Text.trim text).takeWhile (· ≠ '='))
  let (target, _) ← Text.cutAtByte .finish place text
  let (_, level) ← Text.cutAtByte .start (place + 1) text
  return (target, level)

def ofText (text : List Char) : Except FilterError Directive :=
  let trimmed := Text.trim text
  if !trimmed.head?.any canBegin then .error .malformed
  else if '=' ∈ trimmed then
    match sides text with
    | .error m => .error (.miscut m)
    | .ok (target, level) =>
      match levelAfter? level with
      | none => .error .malformed
      | some threshold => .ok { target := some (String.ofList target), threshold }
  else
    match Threshold.parse? text with
    | some threshold => .ok { target := none, threshold }
    | none => .ok { target := some (String.ofList text), threshold := .upTo .trace }

def listOfText (text : List Char) : Except FilterError (List Directive) :=
  ((Text.pieces ',' text).filter (· ≠ [])).mapM ofText

end Directive

structure LogFilter where
  directives : List Directive := []
  widest : Threshold := .off
  deriving DecidableEq

namespace LogFilter

def place (d : Directive) : List Directive → List Directive
  | [] => [d]
  | x :: xs =>
    if d.precedes x then d :: x :: xs
    else if x.precedes d then x :: place d xs
    else d :: xs

def add (f : LogFilter) (d : Directive) : LogFilter :=
  { directives := place d f.directives, widest := f.widest.max d.threshold }

def ofDirectives (ds : List Directive) : LogFilter := ds.foldl add {}

def ofText (text : String) : Except FilterError LogFilter :=
  (Directive.listOfText text.toList).map ofDirectives

def threshold (f : LogFilter) (target : String) : Threshold :=
  (f.directives.find? (·.covers target)).elim .off (·.threshold)

def admits (f : LogFilter) (e : Event) : Bool := (f.threshold e.target).admits e.severity

def render (f : LogFilter) : String := ",".intercalate (f.directives.map Directive.render)

def infoOnly : LogFilter := add {} { target := none, threshold := .upTo .info }

def library : FilterLibrary Text.Miscut LogFilter where
  ofText text :=
    match ofText text with
    | .ok f => .ok (some f)
    | .error .malformed => .ok none
    | .error (.miscut m) => .error m
  infoOnly := infoOnly

end LogFilter

end ClassHierarchy
