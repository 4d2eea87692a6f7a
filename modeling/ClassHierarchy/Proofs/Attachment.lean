import ClassHierarchy.Proofs.Scope.Heirless

namespace ClassHierarchy

inductive Declaration.Refers (d : Declaration) (m : ClassId) : Prop
  | superClass (h : d.superClass = some m)
  | interface (h : m ∈ d.interfaces)
  | field {name : String} (h : (name, m) ∈ d.fields)
  | staticField {name : String} (h : (name, m) ∈ d.staticFields)
  | owner {x : Method} (h : x ∈ d.methods) (hm : x.owner = m)
  | param {x : Method} (h : x ∈ d.methods) (hm : m ∈ x.params)
  | returns {x : Method} (h : x ∈ d.methods) (hm : x.returns = m)

theorem Declaration.mem_mentions_iff {d : Declaration} {m : ClassId} : m ∈ d.mentions ↔ d.Refers m := by
  simp only [mentions, List.cons_append, List.append_assoc, List.mem_append, Option.mem_toList, List.mem_map,
    List.mem_flatMap, List.mem_cons, List.not_mem_nil, or_false, Prod.exists]
  constructor
  · rintro (h | h | ⟨name, _, h, rfl⟩ | ⟨name, _, h, rfl⟩ | ⟨x, h, rfl | hm | rfl⟩)
    · exact .superClass h
    · exact .interface h
    · exact .field h
    · exact .staticField h
    · exact .owner h rfl
    · exact .param h hm
    · exact .returns h rfl
  · rintro (h | h | h | h | ⟨h, rfl⟩ | ⟨h, hm⟩ | ⟨h, rfl⟩)
    · exact .inl h
    · exact .inr (.inl h)
    · exact .inr (.inr (.inl ⟨_, m, h, rfl⟩))
    · exact .inr (.inr (.inr (.inl ⟨_, m, h, rfl⟩)))
    · exact .inr (.inr (.inr (.inr ⟨_, h, .inl rfl⟩)))
    · exact .inr (.inr (.inr (.inr ⟨_, h, .inr (.inl hm)⟩)))
    · exact .inr (.inr (.inr (.inr ⟨_, h, .inr (.inr rfl)⟩)))

namespace Scope

/-- What holds after `d` has been attached to `c`. A super class that waited takes the place of the declared
one, the queue becomes the derived set, and the super class counts `c` among its heirs. -/
structure Attached (s : Scope) (c : ClassId) (d : Declaration) (s' : Scope) : Prop where
  names : s'.names = s.names
  loading : ∀ x, s'.isLoading x = s.isLoading x
  own : ∃ queued rebound derived, s.slot? c = some (.pending queued rebound) ∧
    s'.settled? c = some { declaration := d.withSuperClass (rebound <|> d.superClass), derived } ∧
    derived.Pairwise (· < ·) ∧
    ∀ x, x ∈ derived ↔ x ∈ queued ∨ (rebound <|> d.superClass) = some c ∧ x = c
  registered : ∀ p, (s'.declaration c).superClass = some p → s.Registered p
  settled : ∀ p st, (s'.declaration c).superClass = some p → s.settled? p = some st →
    ∃ derived, s'.settled? p = some { st with derived } ∧ derived.Pairwise (· < ·) ∧
      ∀ x, x ∈ derived ↔ x = c ∨ x ∈ st.derived
  pending : ∀ p queued rebound, (s'.declaration c).superClass = some p → p ≠ c →
    s.slot? p = some (.pending queued rebound) → s'.slot? p = some (.pending (queued ++ [c]) rebound)
  others : ∀ x, x ≠ c → (s'.declaration c).superClass ≠ some x → s'.get? x = s.get? x

variable {s s' : Scope} {c p x : ClassId} {d : Declaration} {missing : Bool} {st : Settled}

theorem get?_superClass_of_install? (h : s.install? c d missing = some s') (hp : p ≠ c)
    (hsuper : (s'.declaration c).superClass = some p) : s'.get? p = (s.get? p).map (.enter c) := by
  have hi := installed_of_eq_some h
  unfold install? at h
  split at h
  next queued rebound _ =>
    obtain rfl := Option.some.inj h
    have hsettled : (s.update c (.settle (settle d queued rebound missing))).settled? c =
        some (settle d queued rebound missing) := settled?_settle hi.registered
    rw [declaration_link, declaration_of_settled hsettled] at hsuper
    rw [get?_link, if_pos hsuper, get?_update, if_neg (Ne.symm hp)]
  next => cases h

theorem slot?_of_unsettled (hc : s.Registered c) (hs : s.settled? c = none) :
    s.slot? c = some (.pending (s.heirs c) (s.waiting? c)) := by
  obtain ⟨e, he⟩ := registered_iff.mp hc
  cases hslot : e.slot with
  | settled st => simp [settled?, he, Entry.settled?, hslot] at hs
  | pending queued rebound => simp [slot?, he, heirs, Entry.heirs, waiting?, Entry.waiting?, hslot]

theorem Tallied.attached (ht : s.Tallied) (h : s.attach c d = .ok s') : s.Attached c d s' := by
  obtain ⟨hforeign, hinstall⟩ := attach_eq_ok h
  have hi := installed_of_eq_some hinstall
  have ht' := ht.installed hi (foreign?_eq_none_iff.mp hforeign)
  have hevolves := hi.evolves fun _ => False
  obtain ⟨st, hst, hmissing, hdecl⟩ := hi.settled
  have hown : (s'.declaration c).superClass = (s.waiting? c <|> d.superClass) := by
    rw [declaration_of_settled hst, hdecl]
    rfl
  have hheirs : ∀ {p st'}, s.Registered p → s'.settled? p = some st' → ∀ x,
      x ∈ st'.derived ↔ (s'.declaration c).superClass = some p ∧ x = c ∨ x ∈ s.heirs p := by
    intro p st' hp hst' x
    rw [← heirs_of_settled hst']
    exact hi.heirs p x hp
  constructor
  case names => exact hevolves.names_eq hi.size
  case loading => exact hi.loading
  case own =>
    refine ⟨s.heirs c, s.waiting? c, st.derived, slot?_of_unsettled hi.registered hi.unsettled, ?_,
      ht'.orderly.pairwise_derived hst, fun x => ?_⟩
    · rw [hst, ← hdecl, ← hmissing]
    · rw [hheirs hi.registered hst, hown, or_comm]
  case registered =>
    intro p hp
    exact (registered_congr hi.size).mp (ht'.mentioned c p (superClass_mem_mentions hp))
  case settled =>
    intro p st₀ hp hst₀
    have hpc : p ≠ c := by
      rintro rfl
      rw [hi.unsettled] at hst₀
      cases hst₀
    obtain ⟨st', hst', hev⟩ := hevolves.settled hst₀
    refine ⟨st'.derived, ?_, ht'.orderly.pairwise_derived hst', fun x => ?_⟩
    · rw [hst', ← hev.missing, ← hev.declaration id]
    · rw [hheirs (.of_settled hst₀) hst', heirs_of_settled hst₀]
      simp [hp]
  case pending =>
    intro p queued rebound hp hpc hslot
    obtain ⟨e, he, hs⟩ := Option.map_eq_some_iff.mp hslot
    have hget := get?_superClass_of_install? hinstall hpc hp
    simp [slot?, hget, he, Entry.enter, hs]
  case others => exact fun x hx hp => get?_install? hinstall hx hp

theorem attach_cases (hc : s.Registered c) (d : Declaration) :
    (∃ m, s.attach c d = .error (.foreignClass (s.name c) m) ∧ d.Refers m ∧ ¬ s.Registered m) ∨
      (∀ m, d.Refers m → s.Registered m) ∧
        ((∃ st, s.settled? c = some st) ∧ s.attach c d = .error (.alreadyDeclared (s.name c)) ∨
          s.settled? c = none ∧ ∃ s', s.attach c d = .ok s') := by
  cases hforeign : s.foreign? d with
  | some m =>
    refine .inl ⟨m, by simp [attach, hforeign], ?_, ?_⟩
    · exact Declaration.mem_mentions_iff.mp (List.mem_of_find?_eq_some hforeign)
    · exact Nat.not_lt.mpr (by simpa using List.find?_some hforeign)
  | none =>
    refine .inr ⟨fun m hm => foreign?_eq_none_iff.mp hforeign m (Declaration.mem_mentions_iff.mpr hm), ?_⟩
    cases hinstall : s.install? c d false with
    | none => exact .inl ⟨settled_of_install?_eq_none hinstall hc, by simp [attach, hforeign, hinstall]⟩
    | some s' =>
      exact .inr ⟨(installed_of_eq_some hinstall).unsettled, s', by simp [attach, hforeign, hinstall]⟩

theorem attach_of_unsettled (hc : s.Registered c) (hn : s.settled? c = none) (d : Declaration) :
    ((s.attach c d).map fun _ => ()) =
      (s.foreign? d).elim (.ok ()) fun m => .error (.foreignClass (s.name c) m) := by
  cases hforeign : s.foreign? d with
  | some m => simp [attach, hforeign, Except.map]
  | none =>
    cases hinstall : s.install? c d false with
    | none =>
      obtain ⟨st, hst⟩ := settled_of_install?_eq_none hinstall hc
      exact absurd (hn.symm.trans hst) nofun
    | some s' => simp [attach, hforeign, hinstall, Except.map]

end Scope

namespace Loader

variable {L : Loader} {w : Session} {c : ClassId}

theorem ends_attach (L : Loader) (n : Nat) (w : Session) (c : ClassId) (d : Declaration) :
    (L.perform n (Script.request (.attach c d))).Ends Action.Own w ((w.scope.attach c d).map fun _ => ())
      { w with scope := (w.scope.attach c d).toOption.getD w.scope } := by
  rw [perform_request]
  refine Run.ends_ask_iff.mpr ⟨trivial, _, _, ?_, .refl _ _⟩
  simp only [Action.perform]
  cases w.scope.attach c d <;> rfl

theorem attachment_all_or_nothing (h : L.Reaches Action.Own w) (hc : w.scope.Registered c) (d : Declaration)
    (n : Nat) : ∃ r w', (L.perform n (Script.request (.attach c d))).Ends Action.Own w r w' ∧
      ((∃ m, r = .error (.foreignClass (w.scope.name c) m)) ↔ ∃ m, d.Refers m ∧ ¬ w.scope.Registered m) ∧
      (∀ m, r = .error (.foreignClass (w.scope.name c) m) → d.Refers m ∧ ¬ w.scope.Registered m) ∧
      (r = .error (.alreadyDeclared (w.scope.name c)) ↔
        (∀ m, d.Refers m → w.scope.Registered m) ∧ ∃ st, w.scope.settled? c = some st) ∧
      (r = .ok () ↔ (∀ m, d.Refers m → w.scope.Registered m) ∧ w.scope.settled? c = none) ∧
      (r ≠ .ok () → w' = w) ∧
      (r = .ok () → w'.trace = w.trace ∧ w.scope.Attached c d w'.scope) := by
  refine ⟨_, _, ends_attach L n w c d, ?_⟩
  obtain ⟨m, hattach, hm, hmr⟩ | ⟨hall, ⟨⟨st, hst⟩, hattach⟩ | ⟨hn, s', hattach⟩⟩ := Scope.attach_cases hc d <;>
    rw [hattach]
  · have hnot : ¬ ∀ m, d.Refers m → w.scope.Registered m := fun hall => hmr (hall m hm)
    refine ⟨⟨fun _ => ⟨m, hm, hmr⟩, fun _ => ⟨m, rfl⟩⟩, ?_, ?_, ?_, fun _ => rfl, nofun⟩
    · rintro _ ⟨⟩
      exact ⟨hm, hmr⟩
    · exact ⟨nofun, fun h => absurd h.1 hnot⟩
    · exact ⟨nofun, fun h => absurd h.1 hnot⟩
  · refine ⟨⟨nofun, fun ⟨m, hm, hmr⟩ => absurd (hall m hm) hmr⟩, nofun, ?_, ?_, fun _ => rfl, nofun⟩
    · exact ⟨fun _ => ⟨hall, st, hst⟩, fun _ => rfl⟩
    · exact ⟨nofun, fun h => absurd (hst.symm.trans h.2) nofun⟩
  · refine ⟨⟨nofun, fun ⟨m, hm, hmr⟩ => absurd (hall m hm) hmr⟩, nofun, ?_, ?_, fun h => absurd rfl h,
      fun _ => ⟨rfl, h.tallied.attached hattach⟩⟩
    · exact ⟨nofun, fun ⟨_, st, hst⟩ => absurd (hn.symm.trans hst) nofun⟩
    · exact ⟨fun _ => ⟨hall, hn⟩, fun _ => rfl⟩

def entangling : Loader := fun c name => do
  let b ← Script.register "B"
  let _ ← Script.request (.attach b { superClass := some c })
  Script.request (.rebind c c)
  return .error (.notFound name)

theorem attachment_all_or_nothing_when_entangled : ∃ w w' st, entangling.Reaches Action.Own w ∧
    w.scope.slot? ⟨9⟩ = some (.pending [⟨10⟩] (some ⟨9⟩)) ∧
    (entangling.perform 0 (Script.request (.attach ⟨9⟩ { superClass := some ⟨10⟩ }))).Ends Action.Own w (.ok ()) w' ∧
    w'.scope.settled? ⟨9⟩ = some st ∧ st.declaration.superClass = some ⟨9⟩ ∧
    ∀ x, x ∈ st.derived ↔ x = ⟨10⟩ ∨ x = ⟨9⟩ := by
  let script : Script Unit := do Script.resolve (← Script.register "A")
  let d : Declaration := { superClass := some ⟨10⟩ }
  have h : ((entangling.perform 1 script).advance Action.Own 8 .new).map (fun m =>
      (m.2.scope.slot? ⟨9⟩, m.2.scope.size, m.2.scope.settled? ⟨9⟩)) =
        some (some (.pending [⟨10⟩] (some ⟨9⟩)), 11, none) := by decide +kernel
  obtain ⟨⟨rest, w⟩, ha, h⟩ := Option.map_eq_some_iff.mp h
  simp only [Prod.mk.injEq] at h
  obtain ⟨hslot, hsize, hn⟩ := h
  have hw : entangling.Reaches Action.Own w := ⟨_, script, 1, rest, Run.leads_iff_advance.mpr ⟨8, ha⟩⟩
  have hreg : ∀ i < 11, w.scope.Registered ⟨i⟩ := fun i hi => lt_of_lt_of_eq hi hsize.symm
  obtain ⟨r, w', hends, -, -, -, hok, -, hattached⟩ :=
    attachment_all_or_nothing hw (hreg 9 (by decide)) d 0
  have hrefers : ∀ m, d.Refers m → w.scope.Registered m := by
    intro m hm
    obtain rfl : m = ⟨10⟩ := by simpa [d, Declaration.mentions] using Declaration.mem_mentions_iff.mpr hm
    exact hreg 10 (by decide)
  obtain rfl := hok.mpr ⟨hrefers, hn⟩
  obtain ⟨queued, rebound, derived, hslot', hst, -, hmem⟩ := (hattached rfl).2.own
  obtain ⟨rfl, rfl⟩ : queued = [⟨10⟩] ∧ rebound = some ⟨9⟩ := by
    rw [hslot] at hslot'
    simpa [eq_comm] using hslot'
  exact ⟨w, w', _, hw, hslot, hends, hst, rfl, fun x => by simpa using hmem x⟩

end Loader

end ClassHierarchy
