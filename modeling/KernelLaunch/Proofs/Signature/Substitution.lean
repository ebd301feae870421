import KernelLaunch.Proofs.Except
import KernelLaunch.Signature.Override
import Mathlib.Data.List.Nodup

/-!
`override` as a simultaneous substitution, specified as a relation between a parameter
before and after by the pairs of type name and element type alone. The relation mentions
neither the order of the pairs nor other parameters, so the order does not matter and no
replacement is replaced again.
-/

namespace KernelLaunch

namespace ElementType

open Host

/-- A name that callers may use for an element type, and the canonical name that it means. -/
inductive Names : String → String → Prop where
  | canonical {t : String} (resolved : isResolved t = true) : Names t t
  | spelling {name t : String} (spelled : (name, t) ∈ spellings) : Names name t

/-- Spellings are no canonical names themselves. -/
theorem spellings_apart :
    ∀ s ∈ spellings, isResolved s.1 = false ∧ isResolved s.2 = true ∧
      spellings.lookup s.1 = some s.2 := by
  decide +kernel

theorem Names.resolved {name t : String} (h : Names name t) : isResolved t = true := by
  cases h with
  | canonical resolved => exact resolved
  | spelling spelled => exact (spellings_apart _ spelled).2.1

theorem mem_of_lookup {table : List (String × String)} {name t : String}
    (h : table.lookup name = some t) : (name, t) ∈ table := by
  obtain ⟨before, after, rfl, _⟩ := List.lookup_eq_some_iff.mp h
  exact List.mem_append_right before List.mem_cons_self

theorem normalize_text_iff {name t : String} : normalize (.text name) = .ok t ↔ Names name t := by
  constructor
  · intro h
    simp only [normalize] at h
    split at h
    · next hresolved =>
      cases hlookup : spellings.lookup name with
      | none =>
          rw [hlookup] at h hresolved
          cases h
          exact .canonical hresolved
      | some s =>
          rw [hlookup] at h
          cases h
          exact .spelling (mem_of_lookup hlookup)
    · cases h
  · intro h
    cases h with
    | canonical resolved =>
        have hlookup : spellings.lookup name = none := by
          cases hlookup : spellings.lookup name with
          | none => rfl
          | some s =>
              have happart := (spellings_apart _ (mem_of_lookup hlookup)).1
              rw [resolved] at happart
              cases happart
        simp [normalize, hlookup, resolved]
    | spelling spelled =>
        obtain ⟨_, hresolved, hlookup⟩ := spellings_apart _ spelled
        simp [normalize, hlookup, hresolved]

theorem Names.unique {name t t' : String} (h : Names name t) (h' : Names name t') : t = t' :=
  Except.ok.inj ((normalize_text_iff.mpr h).symm.trans (normalize_text_iff.mpr h'))

/-- Only a text can be the name of a type. -/
theorem normalize_ok_iff {given : Value} {t : String} :
    normalize given = .ok t ↔ ∃ name, given = .text name ∧ Names name t := by
  constructor
  · intro h
    match given with
    | .atom (.text name) => exact ⟨name, rfl, normalize_text_iff.mp h⟩
  · rintro ⟨name, rfl, hnames⟩
    exact normalize_text_iff.mpr hnames

end ElementType

namespace Signature

open Host ElementType

/-- Simultaneous substitution of element types in one parameter. -/
structure Substituted (pairs : List (String × String)) (p q : Parameter) : Prop where
  rest : q = { p with elementType := q.elementType }
  replaced : ∀ type, (p.elementType, type) ∈ pairs → Names type q.elementType
  kept : p.elementType ∉ pairs.map Prod.fst → q.elementType = p.elementType

namespace Substituted

variable {pairs pairs' : List (String × String)} {p q q' : Parameter}

theorem unique (h : Substituted pairs p q) (h' : Substituted pairs p q') : q = q' := by
  have htype : q.elementType = q'.elementType := by
    by_cases hnamed : p.elementType ∈ pairs.map Prod.fst
    · obtain ⟨⟨name, type⟩, hpair, hname⟩ := List.mem_map.mp hnamed
      dsimp only at hname
      subst hname
      exact (h.replaced type hpair).unique (h'.replaced type hpair)
    · rw [h.kept hnamed, h'.kept hnamed]
  rw [h.rest, h'.rest, htype]

theorem perm (hperm : pairs.Perm pairs') (h : Substituted pairs p q) :
    Substituted pairs' p q where
  rest := h.rest
  replaced type hpair := h.replaced type (hperm.mem_iff.mpr hpair)
  kept hnamed := h.kept fun hmem => hnamed ((hperm.map Prod.fst).mem_iff.mp hmem)

end Substituted

/-- A parameter and what has become of it when types have been defined. -/
structure Refines (p q : Parameter) : Prop where
  rest : q = { p with elementType := q.elementType }
  resolved : p.isResolved = true → q.isResolved = true

namespace Refines

theorem refl (p : Parameter) : Refines p p := ⟨rfl, id⟩

theorem trans {p q r : Parameter} (h : Refines p q) (h' : Refines q r) : Refines p r := by
  refine ⟨?_, fun hp => h'.resolved (h.resolved hp)⟩
  rw [h'.rest, h.rest]

theorem all_trans {ps qs rs : List Parameter} (h : List.Forall₂ Refines ps qs)
    (h' : List.Forall₂ Refines qs rs) : List.Forall₂ Refines ps rs := by
  induction h generalizing rs with
  | nil => exact h'
  | cons hfirst _ ih =>
      obtain ⟨r, rs, hfirst', hrest', rfl⟩ := List.forall₂_cons_left_iff.mp h'
      exact .cons (hfirst.trans hfirst') (ih hrest')

end Refines

section Unresolved

theorem mem_unresolvedFrom {t : String} {seen : List String} {ps : List Parameter} :
    t ∈ unresolvedFrom seen ps ↔
      t ∉ seen ∧ ∃ p ∈ ps, p.isResolved = false ∧ p.elementType = t := by
  induction ps generalizing seen with
  | nil => simp [unresolvedFrom]
  | cons p ps ih =>
      unfold unresolvedFrom
      split
      · next hskip =>
        rw [ih]
        constructor
        · rintro ⟨hseen, q, hq, hopen⟩
          exact ⟨hseen, q, List.mem_cons_of_mem p hq, hopen⟩
        · rintro ⟨hseen, q, hq, hopen, rfl⟩
          rcases List.mem_cons.mp hq with rfl | hq
          · simp [hopen, hseen] at hskip
          · exact ⟨hseen, q, hq, hopen, rfl⟩
      · next hnew =>
        simp only [Bool.or_eq_true, decide_eq_true_eq, not_or, Bool.not_eq_true] at hnew
        rw [List.mem_cons, ih]
        constructor
        · rintro (rfl | ⟨hseen, q, hq, hopen⟩)
          · exact ⟨hnew.2, p, List.mem_cons_self, hnew.1, rfl⟩
          · exact ⟨fun h => hseen (List.mem_cons_of_mem _ h), q, List.mem_cons_of_mem p hq, hopen⟩
        · rintro ⟨hseen, q, hq, hopen, rfl⟩
          rcases List.mem_cons.mp hq with rfl | hq
          · exact .inl rfl
          · by_cases hsame : q.elementType = p.elementType
            · exact .inl hsame
            · exact .inr ⟨by simp [hsame, hseen], q, hq, hopen, rfl⟩

theorem unresolvedFrom_nodup (seen : List String) (ps : List Parameter) :
    (unresolvedFrom seen ps).Nodup := by
  induction ps generalizing seen with
  | nil => exact List.nodup_nil
  | cons p ps ih =>
      unfold unresolvedFrom
      split
      · exact ih seen
      · refine List.nodup_cons.mpr ⟨?_, ih _⟩
        intro hmem
        exact (mem_unresolvedFrom.mp hmem).1 List.mem_cons_self

theorem mem_unresolved {t : String} {ps : List Parameter} :
    t ∈ unresolved ps ↔ ∃ p ∈ ps, p.isResolved = false ∧ p.elementType = t := by
  rw [unresolved, mem_unresolvedFrom]
  simp

end Unresolved

section Mapped

/-- Of different names each is replaced by the one type that is given for it. -/
theorem replacement_eq_lookup {given : List (String × String)}
    (h : (given.map Prod.fst).Nodup) (t : String) :
    replacement (given.map fun g => (.atom (.text g.1), g.2)) t = (given.lookup t).getD t := by
  have hfind : (given.map fun g => ((.atom (.text g.1) : Value), g.2)).reverse.find?
      (fun pair => pair.1.text? == some t) =
        (given.lookup t).map fun a => (.atom (.text t), a) := by
    induction given with
    | nil => rfl
    | cons g rest ih =>
        obtain ⟨name, a⟩ := g
        obtain ⟨hfirst, hrest⟩ := List.nodup_cons.mp h
        rw [List.map_cons, List.reverse_cons, List.find?_append, ih hrest]
        by_cases hname : t = name
        · subst hname
          have hlookup : rest.lookup t = none := by
            rw [List.lookup_eq_none_iff]
            intro r hr
            have hne : r.1 ≠ t := fun heq => hfirst (List.mem_map.mpr ⟨r, hr, heq⟩)
            simpa using hne.symm
          simp [hlookup, Value.text?]
        · have hne : ¬ name = t := fun heq => hname heq.symm
          have hlookup : ((name, a) :: rest).lookup t = rest.lookup t := by
            rw [List.lookup_cons, beq_eq_false_iff_ne.mpr hname]
          simp [hlookup, hne, Value.text?]
  rw [replacement, hfind, Option.map_map]
  cases given.lookup t <;> rfl

/-- The types that are named with different names are replaced, each by its own, and all
others stay. -/
theorem override_eq {parameters : List Parameter} {types names : Value} {items : List Value}
    {given : List (String × String)} (hitems : types.items = .ok items)
    (haliases : aliases parameters names = .ok (given.map fun g => .atom (.text g.1)))
    (htypes : items.mapM ElementType.normalize = .ok (given.map Prod.snd))
    (hnames : (given.map Prod.fst).Nodup) :
    override parameters types names =
      .ok (parameters.map fun p =>
        { p with elementType := (given.lookup p.elementType).getD p.elementType }) := by
  have hlength : items.length = given.length := by
    simpa using (Steps.mapM_ok_iff.mp htypes).length_eq
  have hreplacements : replacements (given.map fun g => .atom (.text g.1)) (given.map Prod.snd) =
      .ok (given.map fun g => (.atom (.text g.1), g.2)) := by
    simp [replacements, List.zip_map']
  unfold override
  simp only [haliases, hitems, bind, Except.bind, htypes, hreplacements, List.length_map, hlength,
    replacement_eq_lookup hnames, ne_eq, not_true_eq_false, if_false]
  rfl

end Mapped

/-- Types are given for names: each name once, and for each a type. -/
structure Paired (ps : List Parameter) (types names : Value) (pairs : List (String × String)) :
    Prop where
  types : types.items = .ok (pairs.map fun pair => .text pair.2)
  names : aliases ps names = .ok (pairs.map fun pair => .text pair.1)
  distinct : (pairs.map Prod.fst).Nodup

/-- A pair of a name and a type, and the same with the canonical name of the type. -/
structure Meant (pair given : String × String) : Prop where
  name : given.1 = pair.1
  type : Names pair.2 given.2

section Overridden

variable {ps qs : List Parameter} {types names : Value} {pairs : List (String × String)}

/-- The pairs with canonical names for the types. -/
theorem exists_given (h : ∀ pair ∈ pairs, ∃ t, Names pair.2 t) :
    ∃ given, List.Forall₂ Meant pairs given :=
  Steps.exists_forall₂ fun pair hpair =>
    let ⟨t, ht⟩ := h pair hpair
    ⟨(pair.1, t), rfl, ht⟩

section Given

variable {given : List (String × String)}

theorem names_of_given
    (h : List.Forall₂ Meant pairs given) :
    given.map Prod.fst = pairs.map Prod.fst := by
  induction h with
  | nil => rfl
  | cons hfirst _ ih => rw [List.map_cons, List.map_cons, hfirst.name, ih]

theorem normalize_given
    (h : List.Forall₂ Meant pairs given) :
    (pairs.map fun pair => Value.text pair.2).mapM normalize = .ok (given.map Prod.snd) := by
  rw [Steps.mapM_ok_iff, List.forall₂_map_left_iff, List.forall₂_map_right_iff]
  exact h.imp fun pair g hg => normalize_text_iff.mpr hg.type

theorem lookup_given
    (h : List.Forall₂ Meant pairs given) (t : String) :
    t ∉ pairs.map Prod.fst ∧ given.lookup t = none ∨
      ∃ type c, (t, type) ∈ pairs ∧ given.lookup t = some c ∧ Names type c := by
  induction h with
  | nil => exact .inl ⟨List.not_mem_nil, rfl⟩
  | @cons pair g pairs given hfirst _ ih =>
      obtain ⟨name, type⟩ := pair
      obtain ⟨name', c⟩ := g
      obtain ⟨hname, hc⟩ := hfirst
      dsimp only at hname hc
      subst hname
      by_cases ht : t = name'
      · subst ht
        exact .inr ⟨type, c, List.mem_cons_self, List.lookup_cons_self, hc⟩
      · have hlookup : ((name', c) :: given).lookup t = given.lookup t := by
          rw [List.lookup_cons, beq_eq_false_iff_ne.mpr ht]
        rw [hlookup, List.map_cons, List.mem_cons]
        rcases ih with ⟨hnone, hlook⟩ | ⟨type', c', hmem, hlook⟩
        · exact .inl ⟨fun hor => hor.elim ht hnone, hlook⟩
        · exact .inr ⟨type', c', List.mem_cons_of_mem _ hmem, hlook⟩

theorem substituted_lookup (hdistinct : (pairs.map Prod.fst).Nodup)
    (h : List.Forall₂ Meant pairs given)
    (p : Parameter) :
    Substituted pairs p
      { p with elementType := (given.lookup p.elementType).getD p.elementType } := by
  refine ⟨rfl, ?_, ?_⟩
  · intro type hmem
    rcases lookup_given h p.elementType with ⟨hnone, _⟩ | ⟨type', c, hmem', hlook, hc⟩
    · exact absurd (List.mem_map_of_mem hmem) hnone
    · cases List.inj_on_of_nodup_map hdistinct hmem hmem' rfl
      simpa [hlook] using hc
  · intro hnamed
    rcases lookup_given h p.elementType with ⟨_, hlook⟩ | ⟨type, c, hmem, _⟩
    · simp [hlook]
    · exact absurd (List.mem_map_of_mem hmem) hnamed

end Given

/-- Whatever is given: what has been accepted is one type for each name, all of them names
of types, and each parameter has kept its element type or taken one of these. -/
theorem override_inv (h : override ps types names = .ok qs) :
    ∃ items given cs, types.items = .ok items ∧ aliases ps names = .ok given ∧
      items.length = given.length ∧
      List.Forall₂ (fun v c => ∃ name, v = Value.text name ∧ Names name c) items cs ∧
      List.Forall₂ (fun p q => q = { p with elementType := q.elementType } ∧
        (q.elementType = p.elementType ∨ q.elementType ∈ cs)) ps qs := by
  obtain ⟨items, hitems, h⟩ := Steps.bind_ok_iff.mp h
  obtain ⟨given, hgiven, h⟩ := Steps.bind_ok_iff.mp h
  by_cases hlength : items.length = given.length
  · rw [if_neg (not_not_intro hlength)] at h
    obtain ⟨cs, hcs, h⟩ := Steps.bind_ok_iff.mp h
    obtain ⟨table, htable, h⟩ := Steps.bind_ok_iff.mp h
    cases h
    have hnormalized := (Steps.mapM_ok_iff.mp hcs).imp fun v c hv => normalize_ok_iff.mp hv
    refine ⟨items, given, cs, hitems, hgiven, hlength, hnormalized, ?_⟩
    rw [List.forall₂_map_right_iff]
    refine List.forall₂_same.mpr fun p _ => ⟨rfl, ?_⟩
    unfold replacements at htable
    split at htable
    · cases htable
    · cases htable
      unfold replacement
      cases hfind : (given.zip cs).reverse.find? fun pair => pair.1.text? == some p.elementType with
      | none => exact .inl rfl
      | some pair =>
          have hmem := List.mem_reverse.mp (List.mem_of_find?_eq_some hfind)
          exact .inr (List.of_mem_zip hmem).2
  · rw [if_pos hlength] at h
    obtain ⟨_, _, h⟩ := Steps.bind_ok_iff.mp h
    obtain ⟨_, _, h⟩ := Steps.bind_ok_iff.mp h
    cases h

theorem names_resolved {items : List Value} {cs : List String}
    (h : List.Forall₂ (fun v c => ∃ name, v = Value.text name ∧ Names name c) items cs) :
    ∀ c ∈ cs, ElementType.isResolved c = true := by
  induction h with
  | nil => exact List.forall_mem_nil _
  | cons hfirst _ ih =>
      obtain ⟨_, _, hnames⟩ := hfirst
      exact List.forall_mem_cons.mpr ⟨hnames.resolved, ih⟩

theorem exists_substituted (h : Paired ps types names pairs)
    (hnamed : ∀ pair ∈ pairs, ∃ t, Names pair.2 t) :
    ∃ qs, override ps types names = .ok qs ∧ List.Forall₂ (Substituted pairs) ps qs := by
  obtain ⟨given, hgiven⟩ := exists_given hnamed
  have hfirst := names_of_given hgiven
  have haliases : aliases ps names = .ok (given.map fun g => .text g.1) := by
    rw [h.names]
    simpa [List.map_map, Function.comp_def] using
      (congrArg (List.map Value.text) hfirst).symm
  refine ⟨_, override_eq h.types haliases (normalize_given hgiven) (hfirst ▸ h.distinct), ?_⟩
  rw [List.forall₂_map_right_iff]
  exact List.forall₂_same.mpr fun p _ => substituted_lookup h.distinct hgiven p

theorem named_of_override (h : Paired ps types names pairs)
    (hoverride : override ps types names = .ok qs) : ∀ pair ∈ pairs, ∃ t, Names pair.2 t := by
  obtain ⟨items, _, cs, hitems, _, _, hnamed, _⟩ := override_inv hoverride
  cases hitems.symm.trans h.types
  rw [List.forall₂_map_left_iff] at hnamed
  intro pair hpair
  obtain ⟨i, hi⟩ := List.mem_iff_getElem?.mp hpair
  obtain ⟨t, _, _, hname, ht⟩ := Steps.place hnamed hi
  cases hname
  exact ⟨t, ht⟩

/-- Types are defined with success if all are names of types, and the parameters are then
those that the substitution makes of the parameters before. -/
theorem override_ok_iff (h : Paired ps types names pairs) :
    override ps types names = .ok qs ↔
      (∀ pair ∈ pairs, ∃ t, Names pair.2 t) ∧ List.Forall₂ (Substituted pairs) ps qs := by
  have hunique : Relator.RightUnique (Substituted pairs) := fun _ _ _ => Substituted.unique
  constructor
  · intro hoverride
    have hnamed := named_of_override h hoverride
    obtain ⟨qs', hoverride', hplaces⟩ := exists_substituted h hnamed
    cases hoverride.symm.trans hoverride'
    exact ⟨hnamed, hplaces⟩
  · rintro ⟨hnamed, hplaces⟩
    obtain ⟨qs', hoverride, hplaces'⟩ := exists_substituted h hnamed
    rw [hoverride, hunique.forall₂ hplaces hplaces']

theorem override_refines (h : override ps types names = .ok qs) :
    List.Forall₂ Refines ps qs := by
  obtain ⟨_, _, cs, _, _, _, hnamed, hplaces⟩ := override_inv h
  have hresolved := names_resolved hnamed
  refine hplaces.imp fun p q hq => ⟨hq.1, fun hp => ?_⟩
  rcases hq.2 with hkept | htaken
  · rw [Parameter.isResolved, hkept]
    exact hp
  · exact hresolved _ htaken

theorem exists_texts {items : List Value} {cs : List String}
    (h : List.Forall₂ (fun v c => ∃ name, v = Value.text name ∧ Names name c) items cs) :
    ∃ texts : List String, items = texts.map Value.text := by
  induction h with
  | nil => exact ⟨[], rfl⟩
  | cons hfirst _ ih =>
      obtain ⟨name, rfl, _⟩ := hfirst
      obtain ⟨texts, rfl⟩ := ih
      exact ⟨name :: texts, rfl⟩

/-- Without names the types are for the unresolved ones, in their order. -/
theorem paired_unresolved (h : override ps types .absent = .ok qs) :
    ∃ pairs, Paired ps types .absent pairs ∧ pairs.map Prod.fst = unresolved ps := by
  obtain ⟨items, given, cs, hitems, hgiven, hlength, hnamed, _⟩ := override_inv h
  obtain ⟨texts, rfl⟩ := exists_texts hnamed
  cases hgiven
  have hcount : (unresolved ps).length = texts.length := by simpa using hlength.symm
  have hfirst : ((unresolved ps).zip texts).map Prod.fst = unresolved ps :=
    List.map_fst_zip (Nat.le_of_eq hcount)
  have hsecond : ((unresolved ps).zip texts).map Prod.snd = texts :=
    List.map_snd_zip (Nat.le_of_eq hcount.symm)
  refine ⟨(unresolved ps).zip texts, ⟨?_, ?_, ?_⟩, hfirst⟩
  · rw [hitems, ← Function.comp_def, ← List.map_map, hsecond]
  · rw [← Function.comp_def, ← List.map_map, hfirst]
    rfl
  · rw [hfirst]
    exact unresolvedFrom_nodup [] ps

/-- Without names no unresolved type is left. -/
theorem override_resolves (h : override ps types .absent = .ok qs) :
    ∀ q ∈ qs, q.isResolved = true := by
  obtain ⟨pairs, hpaired, hnames⟩ := paired_unresolved h
  obtain ⟨hnamed, hplaces⟩ := (override_ok_iff hpaired).mp h
  have hrefines := override_refines h
  intro q hq
  obtain ⟨i, hi⟩ := List.mem_iff_getElem?.mp hq
  obtain ⟨p, hp, hrefined⟩ := Steps.place hrefines.flip hi
  obtain ⟨p', hp', hsubstituted⟩ := Steps.place hplaces.flip hi
  cases hp.symm.trans hp'
  by_cases hresolved : p.isResolved = true
  · exact hrefined.resolved hresolved
  · have hopen : p.elementType ∈ pairs.map Prod.fst := by
      rw [hnames, mem_unresolved]
      exact ⟨p, List.mem_of_getElem? hp, by simpa using hresolved, rfl⟩
    obtain ⟨⟨name, type⟩, hpair, hname⟩ := List.mem_map.mp hopen
    dsimp only at hname
    subst hname
    exact (hsubstituted.replaced type hpair).resolved

end Overridden

end Signature

end KernelLaunch
