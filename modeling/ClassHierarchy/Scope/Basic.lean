import ClassHierarchy.Declaration
import ClassHierarchy.Event
import ClassHierarchy.Text.Split

/-!
A scope: the registry of the classes of one analysis. A class is registered under its full name
before anything is known of it. Once it is settled it has a declaration, and the scope keeps for
it the set of classes that extend it. Until then the classes that extend it queue at its entry,
and a super class that it was given while its loader ran waits there too.
-/

namespace ClassHierarchy

structure Settled where
  declaration : Declaration
  derived : List ClassId := []
  missing : Bool := false
  deriving DecidableEq

inductive Slot where
  | pending (queued : List ClassId) (rebound : Option ClassId)
  | settled (s : Settled)
  deriving DecidableEq

structure Entry where
  name : FullName
  loading : Bool := false
  slot : Slot := .pending [] none
  deriving DecidableEq

namespace Entry

def settled? (e : Entry) : Option Settled :=
  match e.slot with
  | .settled st => some st
  | .pending .. => none

def isUntouched (e : Entry) : Bool := !e.loading && e.settled?.isNone

def settle (st : Settled) (e : Entry) : Entry := { e with slot := .settled st }

def enter (c : ClassId) (e : Entry) : Entry :=
  match e.slot with
  | .settled st => { e with slot := .settled { st with derived := SortedList.insert c st.derived } }
  | .pending queued rebound => { e with slot := .pending (queued ++ [c]) rebound }

def strike (c : ClassId) (e : Entry) : Entry :=
  match e.slot with
  | .settled st => { e with slot := .settled { st with derived := st.derived.filter (· != c) } }
  | .pending queued rebound => { e with slot := .pending (queued.filter (· != c)) rebound }

def rebase (superClass : ClassId) (e : Entry) : Entry :=
  match e.slot with
  | .settled st =>
    { e with slot := .settled { st with
        declaration := st.declaration.withSuperClass (some superClass) } }
  | .pending queued _ => { e with slot := .pending queued (some superClass) }

end Entry

structure Scope where
  entries : Array Entry
  deriving DecidableEq

inductive AttachError where
  | alreadyDeclared (name : FullName)
  | foreignClass (name : FullName) (id : ClassId)
  deriving DecidableEq

def AttachError.message : AttachError → String
  | .alreadyDeclared name => s!"class `{name}` already has detail attached"
  | .foreignClass name id =>
    s!"detail for class `{name}` references {id.describe}, which this scope never registered"

namespace Scope

def size (s : Scope) : Nat := s.entries.size

def get? (s : Scope) (c : ClassId) : Option Entry := s.entries[c.index]?

def ids (s : Scope) : List ClassId := (List.range s.size).map ClassId.mk

def names (s : Scope) : List FullName := s.entries.toList.map (·.name)

def find? (s : Scope) (name : FullName) : Option ClassId :=
  (s.entries.findIdx? (·.name == name)).map ClassId.mk

def name (s : Scope) (c : ClassId) : FullName := (s.get? c).elim "" (·.name)

def slot? (s : Scope) (c : ClassId) : Option Slot := (s.get? c).map (·.slot)

def settled? (s : Scope) (c : ClassId) : Option Settled := (s.get? c).bind Entry.settled?

def declaration (s : Scope) (c : ClassId) : Declaration :=
  (s.settled? c).elim .missing (·.declaration)

def derived (s : Scope) (c : ClassId) : List ClassId := (s.settled? c).elim [] (·.derived)

def isMissing (s : Scope) (c : ClassId) : Bool := (s.settled? c).elim false (·.missing)

def isUntouched (s : Scope) (c : ClassId) : Bool := (s.get? c).any Entry.isUntouched

def update (s : Scope) (c : ClassId) (f : Entry → Entry) : Scope :=
  ⟨s.entries.modify c.index f⟩

def foreign? (s : Scope) (d : Declaration) : Option ClassId :=
  d.mentions.find? (s.size ≤ ·.index)

def link (s : Scope) (superClass : Option ClassId) (c : ClassId) : Scope :=
  superClass.elim s fun p => s.update p (.enter c)

def unlink (s : Scope) (superClass : Option ClassId) (c : ClassId) : Scope :=
  superClass.elim s fun p => s.update p (.strike c)

/-- What becomes of a pending class: the queue is its derived set, and a super class that was
waiting takes the place of the declared one. -/
def settle (d : Declaration) (queued : List ClassId) (rebound : Option ClassId) (missing : Bool) :
    Settled :=
  { declaration := d.withSuperClass (rebound <|> d.superClass)
    derived := SortedList.ofList queued
    missing }

def install? (s : Scope) (c : ClassId) (d : Declaration) (missing : Bool) : Option Scope :=
  match s.slot? c with
  | some (.pending queued rebound) =>
    let st := settle d queued rebound missing
    some ((s.update c (.settle st)).link st.declaration.superClass c)
  | _ => none

def attach (s : Scope) (c : ClassId) (d : Declaration) : Except AttachError Scope :=
  match s.foreign? d with
  | some foreign => .error (.foreignClass (s.name c) foreign)
  | none =>
    match s.install? c d false with
    | some s' => .ok s'
    | none => .error (.alreadyDeclared (s.name c))

/-- Replaces the super class of `c`. While the loader of `c` runs and nothing has settled it, the
new super class only waits. -/
def rebind (s : Scope) (c superClass : ClassId) : Scope :=
  match s.settled? c with
  | some st =>
    ((s.unlink st.declaration.superClass c).update c (.rebase superClass)).link (some superClass) c
  | none => s.update c (.rebase superClass)

def append (s : Scope) (names : List FullName) : Scope :=
  ⟨s.entries ++ (names.map fun n => { name := n }).toArray⟩

def register (s : Scope) (name : FullName) : ClassId × Option Event × Scope :=
  match s.find? name with
  | some c => (c, none, s)
  | none =>
    let fresh := name.elementChain.takeWhile fun e => (s.find? e).isNone
    let last := (name :: fresh).getLast (by simp)
    let event := if last.isArray && last.element?.isNone then
      some (Event.malformedArrayRegistered last) else none
    (⟨s.size⟩, event, s.append (name :: fresh))

def mark (s : Scope) (c : ClassId) (loading : Bool) : Scope :=
  s.update c fun e => { e with loading }

def beginLoad (s : Scope) (c : ClassId) : Scope := s.mark c true

/-- What the loader returned for `c`; a declaration that mentions a class unknown here counts as a
failure. -/
def vet (s : Scope) (c : ClassId) (outcome : Except LoadError Declaration) :
    Except LoadError Declaration :=
  outcome.bind fun d =>
    match s.foreign? d with
    | some foreign => .error (.initializationFailed (s.name c)
        s!"detail references {foreign.describe}, which this scope never registered")
    | none => .ok d

def verdict : Except LoadError Declaration → Declaration × Bool
  | .ok d => (d, false)
  | .error _ => (.missing, true)

def complaints : Except LoadError Declaration → List Event
  | .ok _ => []
  | .error e => [.ofLoadError e]

/-- Takes in what the loader returned for `c`. A class that was settled while its loader ran keeps
what it has. -/
def endLoad (s : Scope) (c : ClassId) (outcome : Except LoadError Declaration) :
    List Event × Scope :=
  let s := s.mark c false
  let vetted := s.vet c outcome
  match s.install? c (verdict vetted).1 (verdict vetted).2 with
  | some s' => (complaints vetted, s')
  | none => (complaints vetted ++ [.loadDiscarded (s.name c)], s)

def primitiveEntry (p : Primitive) : Entry :=
  { name := p.keyword
    slot := .settled { declaration := {
      flags := .publicBit ||| .finalBit ||| .abstractBit
      framework := true } } }

def new : Scope := ⟨(Primitive.all.map primitiveEntry).toArray⟩

end Scope

end ClassHierarchy
