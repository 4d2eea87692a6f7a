import ClassHierarchy.Answer

namespace ClassHierarchy

inductive Program {Q : Type} (Reply : Q → Type) (α : Type) where
  | done (a : α)
  | ask (q : Q) (k : Reply q → Program Reply α)

namespace Program

variable {Q : Type} {Reply : Q → Type} {α β : Type}

def bind : Program Reply α → (α → Program Reply β) → Program Reply β
  | done a, f => f a
  | ask q k, f => ask q fun x => (k x).bind f

instance : Monad (Program Reply) where
  pure := done
  bind := bind

def run {m : Type → Type} [Monad m] (answer : (q : Q) → m (Reply q)) : Program Reply α → m α
  | done a => pure a
  | ask q k => do (k (← answer q)).run answer

@[simp] theorem pure_eq (a : α) : (pure a : Program Reply α) = done a := rfl

@[simp] theorem done_bind (a : α) (f : α → Program Reply β) : done a >>= f = f a := rfl

@[simp] theorem ask_bind (q : Q) (k : Reply q → Program Reply α) (f : α → Program Reply β) :
    ask q k >>= f = ask q fun x => k x >>= f := rfl

theorem bind_done (p : Program Reply α) : p.bind done = p := by
  induction p with
  | done a => rfl
  | ask q k ih => exact congrArg (ask q) (funext ih)

theorem bind_bind {γ : Type} (p : Program Reply α) (f : α → Program Reply β)
    (g : β → Program Reply γ) : (p.bind f).bind g = p.bind fun a => (f a).bind g := by
  induction p with
  | done a => rfl
  | ask q k ih => exact congrArg (ask q) (funext ih)

instance : LawfulMonad (Program Reply) :=
  LawfulMonad.mk' (Program Reply) bind_done (fun _ _ => rfl) bind_bind

variable {m : Type → Type} [Monad m] (answer : (q : Q) → m (Reply q))

@[simp] theorem run_done (a : α) : (done a : Program Reply α).run answer = pure a := rfl

@[simp] theorem run_ask (q : Q) (k : Reply q → Program Reply α) :
    (ask q k).run answer = answer q >>= fun x => (k x).run answer := rfl

theorem run_bind [LawfulMonad m] (p : Program Reply α) (f : α → Program Reply β) :
    (p >>= f).run answer = p.run answer >>= fun a => (f a).run answer := by
  induction p with
  | done a => simp
  | ask q k ih => simp [ih]

end Program

inductive Request where
  | register (name : FullName)
  | inspect
  | resolve (c : ClassId)
  | superChain (c : ClassId)
  | interfaceClosure (roots : List ClassId)
  | climbs (c target : ClassId)
  | attach (c : ClassId) (d : Declaration)
  | rebind (c superClass : ClassId)
  | emit (e : Event)
  | note (r : Remark)

abbrev Request.Reply : Request → Type
  | .register _ => ClassId
  | .inspect => Scope
  | .superChain _ => List ClassId
  | .interfaceClosure _ => List ClassId
  | .climbs .. => Bool
  | .attach .. => Except AttachError Unit
  | .resolve _ => Unit
  | .rebind .. => Unit
  | .emit _ => Unit
  | .note _ => Unit

abbrev Script := Program Request.Reply

def Script.request (r : Request) : Script r.Reply := .ask r .done

end ClassHierarchy
