import ClassHierarchy.Query
import ClassHierarchy.Proofs.Checked.Run
import ClassHierarchy.Proofs.Run.Reading

namespace ClassHierarchy

inductive Query.Operation (s : Scope) (c : ClassId) : {α : Type} → Script α → Prop
  | name : Operation s c (Query.name c)
  | isMissing : Operation s c (Query.isMissing c)
  | isFramework : Operation s c (Query.isFramework c)
  | isFinal : Operation s c (Query.isFinal c)
  | isInterface : Operation s c (Query.isInterface c)
  | isAbstract : Operation s c (Query.isAbstract c)
  | superClass : Operation s c (Query.superClass c)
  | interfaces : Operation s c (Query.interfaces c)
  | derivedClasses : Operation s c (Query.derivedClasses c)
  | isAlmostFinal : Operation s c (Query.isAlmostFinal c)
  | isArray : Operation s c (Query.isArray c)
  | isInner : Operation s c (Query.isInner c)
  | fieldType (field : String) : Operation s c (Query.fieldType c field)
  | staticFieldType (field : String) : Operation s c (Query.staticFieldType c field)
  | fields : Operation s c (Query.fields c)
  | staticFields : Operation s c (Query.staticFields c)
  | findMethodHere (sig : Signature) : Operation s c (Query.findMethodHere c sig)
  | findMethodsHere (method : String) : Operation s c (Query.findMethodsHere c method)
  | findMethod (sig : Signature) : Operation s c (Query.findMethod c sig)
  | findMethods (method : String) : Operation s c (Query.findMethods c method)
  | allMethods : Operation s c (Query.allMethods c)
  | defaultConstructor : Operation s c (Query.defaultConstructor c)
  | staticInitializer : Operation s c (Query.staticInitializer c)
  | isConvertibleTo (target : ClassId) : Operation s c (Query.isConvertibleTo c target)
  | elementClass : Operation s c (Query.elementClass c)
  | outerClass : Operation s c (Query.outerClass c)
  | attach (d : Declaration) : Operation s c (Script.request (.attach c d))
  | rebind (p : ClassId) (hp : s.Registered p) : Operation s c (Script.request (.rebind c p))

namespace Checked

variable {α β : Type} {L : Loader} {n : Nat} {beyond : Array Entry} {w v : Session} {c : ClassId}
  {Q : α → Session → Prop} {Q' : β → Session → Prop} {q : Script α} {f : α → Script β}

def Safe (L : Loader) (n : Nat) (beyond : Array Entry) (q : Script α) (w : Session)
    (Q : α → Session → Prop) : Prop :=
  Agrees (L.check .outOfRange beyond n q) (L.perform n q) w Q

def Any : α → Session → Prop := fun _ _ => True

theorem Safe.pure (a : α) (h : Q a w) : Safe L n beyond (Pure.pure a) w Q := Agrees.pure a h

theorem Safe.bind (h : Safe L n beyond q w Q)
    (hf : ∀ a v, w.scope.Evolves (fun _ => True) v.scope → Q a v → Safe L n beyond (f a) v Q') :
    Safe L n beyond (q >>= f) w Q' := by
  unfold Safe Loader.check
  rw [Program.run_bind, Loader.perform_bind]
  exact Agrees.bind h hf

theorem Safe.map (h : Safe L n beyond q w Q) (f : α → β) : Safe L n beyond (do return f (← q)) w Any :=
  Safe.bind h fun _ _ _ _ => .pure _ trivial

theorem safe_request {r : Request} {Q : r.Reply → Session → Prop} (hr : Own r.subjects w)
    (h : Agrees (answer (call L n) beyond n r) (Run.handle (L.call n) n r) w Q) :
    Safe L n beyond (Script.request r) w Q := by
  have hcheck : L.check .outOfRange beyond n (Script.request r) =
      handle (call L n) .outOfRange beyond n r := bind_pure _
  rw [Safe, hcheck, Loader.perform_request]
  exact .guard (.inr hr) fun _ => h

theorem safe_read {read : Scope → β} (h : read (w.scope.padded beyond) = read w.scope) :
    Safe L n beyond (do return read (← Script.inspect)) w Any := by
  change Agrees ((guard .outOfRange fun _ => []) >>= fun _ =>
    (ExceptT.lift (Run.act .look) >>= fun s => Pure.pure (s.padded beyond)) >>= fun s => Pure.pure (read s))
    (Run.act .look >>= fun s => .done (read s)) w Any
  refine .guard (.inr own_nil) fun _ => ?_
  rw [bind_assoc]
  apply Agrees.look
  rw [pure_bind, h]
  exact .pure _ trivial

theorem get?_padded (hc : w.scope.Registered c) (beyond : Array Entry) :
    (w.scope.padded beyond).get? c = w.scope.get? c := by
  simp only [Scope.get?, Scope.padded]
  exact Array.getElem?_append_left hc

theorem safe_register (name : FullName) : Safe L n beyond (Script.register name) w Any :=
  safe_request own_nil (.act trivial nofun fun _ _ _ => trivial)

theorem safe_emit (e : Event) : Safe L n beyond (Script.emit e) w Any :=
  safe_request own_nil (.act trivial nofun fun _ _ _ => trivial)

section

variable (hc : w.scope.Registered c)
include hc

theorem own_singleton : Own [c] w := own_cons.mpr ⟨hc, own_nil⟩

theorem safe_resolve : Safe L n beyond (Script.resolve c) w Any :=
  safe_request (own_singleton hc) (agrees_resolve (agrees_call L n) hc)

theorem safe_superChain : Safe L n beyond (Script.superChain c) w Own := by
  refine safe_request (own_singleton hc) (agrees_superChain (agrees_call L n) n own_nil ?_)
  rintro _ ⟨⟩
  exact hc

theorem safe_name : Safe L n beyond (Query.name c) w Any := by
  apply safe_read
  rw [Scope.name, get?_padded hc, Scope.name]

theorem safe_declaration : Safe L n beyond (Query.declaration c) w Any := by
  refine Safe.bind (safe_resolve hc) fun _ v hv _ => safe_read ?_
  rw [Scope.declaration, Scope.settled?, get?_padded (hv.registered hc), Scope.declaration, Scope.settled?]

theorem safe_isMissing : Safe L n beyond (Query.isMissing c) w Any := by
  refine Safe.bind (safe_resolve hc) fun _ v hv _ => safe_read ?_
  rw [Scope.isMissing, Scope.settled?, get?_padded (hv.registered hc), Scope.isMissing, Scope.settled?]

theorem safe_derivedClasses : Safe L n beyond (Query.derivedClasses c) w Any := by
  refine Safe.bind (safe_resolve hc) fun _ v hv _ => safe_read ?_
  rw [Scope.derived, Scope.settled?, get?_padded (hv.registered hc), Scope.derived, Scope.settled?]

theorem safe_unless_missing {q : Script (Option α)}
    (hq : ∀ v : Session, v.scope.Registered c → Safe L n beyond q v Any) :
    Safe L n beyond (do if ← Query.isMissing c then return none else q) w Any := by
  refine Safe.bind (safe_isMissing hc) fun b v hv _ => ?_
  cases b with
  | true => exact .pure none trivial
  | false => exact hq v (hv.registered hc)

theorem safe_ofDeclared (read : Declaration → α) : Safe L n beyond (Query.ofDeclared c read) w Any :=
  safe_unless_missing hc fun _ hv => (safe_declaration hv).map _

theorem safe_hasFlag (bit : AccessFlags) : Safe L n beyond (Query.hasFlag bit c) w Any :=
  (safe_ofDeclared hc _).map _

theorem safe_supertypes : Safe L n beyond (Query.supertypes c) w Own := by
  refine Safe.bind (safe_superChain hc) fun chain v _ hchain => ?_
  have hclosure : Safe L n beyond (Script.interfaceClosure chain) v Own :=
    safe_request hchain (agrees_interfaceClosure (agrees_call L n) n hchain own_nil)
  exact hclosure.bind fun above u hu habove => .pure _ ((hchain.evolves hu).append habove)

end

theorem safe_firstDeclared (read : Declaration → Option α) {cs : List ClassId} (hcs : Own cs w) :
    Safe L n beyond (Query.firstDeclared read cs) w Any := by
  induction cs generalizing w with
  | nil => exact .pure none trivial
  | cons c cs ih =>
    obtain ⟨hc, hcs⟩ := own_cons.mp hcs
    refine Safe.bind (safe_declaration hc) fun d v hv _ => ?_
    cases read d with
    | none => exact ih (hcs.evolves hv)
    | some a => exact .pure (some a) trivial

theorem safe_visibleMethods (select : ClassId → Declaration → List Method) (out : List Method)
    {cs : List ClassId} (hcs : Own cs w) : Safe L n beyond (Query.visibleMethods select out cs) w Any := by
  induction cs generalizing w out with
  | nil => exact .pure out trivial
  | cons c cs ih =>
    obtain ⟨hc, hcs⟩ := own_cons.mp hcs
    exact Safe.bind (safe_declaration hc) fun d v hv _ => ih _ (hcs.evolves hv)

section

variable (hc : w.scope.Registered c)
include hc

theorem safe_fieldType (field : String) : Safe L n beyond (Query.fieldType c field) w Any :=
  safe_unless_missing hc fun _ hv => Safe.bind (safe_superChain hv) fun _ _ _ h => safe_firstDeclared _ h

theorem safe_staticFieldType (field : String) : Safe L n beyond (Query.staticFieldType c field) w Any :=
  safe_unless_missing hc fun _ hv => Safe.bind (safe_supertypes hv) fun _ _ _ h => safe_firstDeclared _ h

theorem safe_findMethod (sig : Signature) : Safe L n beyond (Query.findMethod c sig) w Any :=
  safe_unless_missing hc fun _ hv => Safe.bind (safe_supertypes hv) fun _ _ _ h => safe_firstDeclared _ h

theorem safe_findMethods (method : String) : Safe L n beyond (Query.findMethods c method) w Any :=
  safe_unless_missing hc fun _ hv =>
    Safe.bind (safe_supertypes hv) fun _ _ _ h => (safe_visibleMethods _ _ h).map _

theorem safe_allMethods : Safe L n beyond (Query.allMethods c) w Any :=
  safe_unless_missing hc fun _ hv =>
    Safe.bind (safe_superChain hv) fun _ _ _ h => (safe_visibleMethods _ _ h).map _

theorem safe_isConvertibleTo (target : ClassId) : Safe L n beyond (Query.isConvertibleTo c target) w Any := by
  unfold Query.isConvertibleTo
  split
  · exact .pure _ trivial
  · split
    · exact .pure _ trivial
    · exact safe_request (own_singleton hc) (agrees_climbs (agrees_call L n) target n (own_singleton hc))

theorem safe_elementClass : Safe L n beyond (Query.elementClass c) w Any := by
  refine Safe.bind (safe_name hc) fun full _ _ _ => ?_
  split
  · split
    · exact .pure _ trivial
    · exact (safe_register _).map _
    · exact (safe_emit _).bind fun _ _ _ _ => .pure _ trivial
  · exact .pure _ trivial

theorem safe_outerClass : Safe L n beyond (Query.outerClass c) w Any := by
  refine Safe.bind (safe_name hc) fun full _ _ _ => ?_
  split
  · exact (safe_register _).map _
  · exact .pure _ trivial

theorem safe_operation (h : Query.Operation w.scope c q) : Safe L n beyond q w Any := by
  cases h with
  | name => exact safe_name hc
  | isMissing => exact safe_isMissing hc
  | isFramework | superClass | interfaces => exact (safe_declaration hc).map _
  | isFinal | isInterface | isAbstract => exact safe_hasFlag hc _
  | derivedClasses => exact safe_derivedClasses hc
  | isAlmostFinal => exact (safe_derivedClasses hc).map _
  | isArray | isInner => exact (safe_name hc).map _
  | fieldType field => exact safe_fieldType hc field
  | staticFieldType field => exact safe_staticFieldType hc field
  | fields | staticFields | findMethodsHere => exact safe_ofDeclared hc _
  | findMethodHere | defaultConstructor => exact (safe_ofDeclared hc _).map _
  | findMethod | staticInitializer => exact safe_findMethod hc _
  | findMethods method => exact safe_findMethods hc method
  | allMethods => exact safe_allMethods hc
  | isConvertibleTo target => exact safe_isConvertibleTo hc target
  | elementClass => exact safe_elementClass hc
  | outerClass => exact safe_outerClass hc
  | attach d =>
    refine safe_request (own_singleton hc) (.act trivial ?_ fun _ _ _ => trivial)
    rintro _ ⟨⟩
    exact hc
  | rebind p hp =>
    exact safe_request (own_cons.mpr ⟨hc, own_singleton hp⟩) (agrees_rebind (agrees_call L n) hc hp)

end

end Checked

end ClassHierarchy
