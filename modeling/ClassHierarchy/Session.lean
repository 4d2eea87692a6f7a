import ClassHierarchy.Script

/-!
Sessions: a scope at work, with a trace of what happened. Scripts are carried out here, as runs of
actions that each change the session at one stroke. Loading calls the loader, whose script may ask
for more loading; the budget bounds how deep loads nest and how long a walk through the hierarchy
gets. A run either ends with the same answer under every large enough budget or has no answer.
-/

namespace ClassHierarchy

abbrev Loader := ClassId → FullName → Script (Except LoadError Declaration)

inductive Occurrence where
  | event (e : Event)
  | called (c : ClassId) (name : FullName)
  | returned (c : ClassId)
  | remark (r : Remark)
  deriving DecidableEq

structure Session where
  scope : Scope
  trace : Array Occurrence

namespace Session

def new : Session := ⟨.new, #[]⟩

def record (w : Session) (o : Occurrence) : Session := { w with trace := w.trace.push o }

def emit (w : Session) (e : Event) : Session := w.record (.event e)

end Session

inductive Action where
  | look
  | register (name : FullName)
  | attach (c : ClassId) (d : Declaration)
  | rebind (c superClass : ClassId)
  | call (c : ClassId)
  | finish (c : ClassId) (outcome : Except LoadError Declaration)
  | emit (e : Event)
  | note (r : Remark)
  | giveUp

namespace Action

abbrev Reply : Action → Type
  | .look => Scope
  | .register _ => ClassId
  | .attach .. => Except AttachError Unit
  | .rebind .. => Unit
  | .call _ => Unit
  | .finish .. => Unit
  | .emit _ => Unit
  | .note _ => Unit
  | .giveUp => Empty

def perform : (x : Action) → StateT Session Option x.Reply
  | .look, w => some (w.scope, w)
  | .register name, w =>
    let (c, event, s) := w.scope.register name
    some (c, event.elim { w with scope := s } ({ w with scope := s } : Session).emit)
  | .attach c d, w =>
    match w.scope.attach c d with
    | .ok s => some (.ok (), { w with scope := s })
    | .error e => some (.error e, w)
  | .rebind c superClass, w =>
    let w := if w.scope.isMissing c then w.emit (.missingRebound (w.scope.name c)) else w
    some ((), { w with scope := w.scope.rebind c superClass })
  | .call c, w =>
    some ((), { w.record (.called c (w.scope.name c)) with scope := w.scope.beginLoad c })
  | .finish c outcome, w =>
    let (events, s) := w.scope.endLoad c outcome
    some ((), { events.foldl Session.emit (w.record (.returned c)) with scope := s })
  | .emit e, w => some ((), w.emit e)
  | .note r, w => some ((), w.record (.remark r))
  | .giveUp, _ => none

end Action

abbrev Run := Program Action.Reply

namespace Run

variable (load : ClassId → Run (Except LoadError Declaration))

def act (x : Action) : Run x.Reply := .ask x .done

def exhausted {α : Type} : Run α := .ask .giveUp nofun

def exec {α : Type} (p : Run α) : StateT Session Option α := p.run Action.perform

def resolve (c : ClassId) : Run Unit := do
  if (← act .look).isUntouched c then
    act (.call c)
    act (.finish c (← load c))

def rebind (c superClass : ClassId) : Run Unit := do
  resolve load c
  act (.rebind c superClass)

def superChain : Nat → List ClassId → Option ClassId → Run (List ClassId)
  | _, seen, none => return seen.reverse
  | 0, _, some _ => exhausted
  | n + 1, seen, some c => do
    if c ∈ seen then return seen.reverse
    resolve load c
    superChain n (c :: seen) ((← act .look).declaration c).superClass

def unseen (seen xs : List ClassId) : List ClassId := (xs.filter (· ∉ seen)).eraseDups

def interfaceClosure : Nat → List ClassId → List ClassId → List ClassId → Run (List ClassId)
  | _, [], _, out => return out
  | 0, _ :: _, _, _ => exhausted
  | n + 1, c :: queue, seen, out => do
    resolve load c
    let fresh := unseen seen ((← act .look).declaration c).interfaces
    interfaceClosure n (queue ++ fresh) (seen ++ fresh) (out ++ fresh)

/-- Works off `queue` breadth first until `target` is among the parents of some class. -/
def climbs (target : ClassId) : Nat → List ClassId → List ClassId → Run Bool
  | _, [], _ => return false
  | 0, _ :: _, _ => exhausted
  | n + 1, c :: queue, seen => do
    resolve load c
    let parents := ((← act .look).declaration c).parents
    if target ∈ parents then return true
    let fresh := unseen seen parents
    climbs target n (queue ++ fresh) (seen ++ fresh)

def handle (budget : Nat) : (r : Request) → Run r.Reply
  | .register name => act (.register name)
  | .inspect => act .look
  | .resolve c => resolve load c
  | .superChain c => superChain load budget [] (some c)
  | .interfaceClosure roots => interfaceClosure load budget roots roots []
  | .climbs c target => climbs load target budget [c] [c]
  | .attach c d => act (.attach c d)
  | .rebind c p => rebind load c p
  | .emit e => act (.emit e)
  | .note r => act (.note r)

end Run

namespace Loader

def call (L : Loader) : Nat → ClassId → Run (Except LoadError Declaration)
  | 0, _ => Run.exhausted
  | n + 1, c => do (L c ((← Run.act .look).name c)).run (Run.handle (call L n) n)

def perform {α : Type} (L : Loader) (budget : Nat) (script : Script α) : Run α :=
  script.run (Run.handle (L.call budget) budget)

def notFound : Loader := fun _ name => .done (.error (.notFound name))

end Loader

end ClassHierarchy
