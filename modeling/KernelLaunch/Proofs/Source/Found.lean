import Mathlib.Data.List.Nodup
import KernelLaunch.Proofs.Source.ParameterList
import KernelLaunch.Source.Selection

/-!
Kernel extraction from arbitrary text. A place of the text declares a kernel if a header
that is not part of a longer word starts there, followed by a parameter list. The kernels
found are the declarations at these places, each distinct one once, in the order of first
occurrence; selection returns the only one that matches the requested name.
-/

namespace KernelLaunch.Source

open Text

section Places

/-- A kernel is declared at a place of a text: `place` characters stand before its header. -/
def DeclaresAt (cs : List Char) (place : Nat) (i : Interface) : Prop :=
  ∃ (before : List Char) (head : Header) (s rest : List Char),
    cs = before ++ (head.text ++ (s ++ ')' :: rest)) ∧ before.length = place ∧
      (∀ c ∈ before.getLast?, isWord c = false) ∧ IsList s ∧
        i = ⟨String.ofList head.name, String.ofList s⟩

/-- What is found at a place of a text; `inWord` says that the text goes on a word. -/
def foundAt? (inWord : Bool) (cs : List Char) (place : Nat) : Option Interface :=
  if endsInWord inWord (cs.take place) then none else interface? (cs.drop place)

theorem foundAt?_cons (inWord : Bool) (c : Char) (cs : List Char) (place : Nat) :
    foundAt? inWord (c :: cs) (place + 1) = foundAt? (isWord c) cs place := by
  simp only [foundAt?, List.take_succ_cons, List.drop_succ_cons, endsInWord_cons]

/-- A text is searched place by place. -/
theorem declaredFrom_eq (inWord : Bool) (cs : List Char) :
    declaredFrom inWord cs = (List.range cs.length).filterMap (foundAt? inWord cs) := by
  induction cs generalizing inWord with
  | nil => rfl
  | cons c cs ih =>
      have hrest : foundAt? inWord (c :: cs) ∘ Nat.succ = foundAt? (isWord c) cs :=
        funext (foundAt?_cons inWord c cs)
      have hfirst : foundAt? inWord (c :: cs) 0 =
          if inWord then none else interface? (c :: cs) := rfl
      rw [declaredFrom, ih, List.length_cons, List.range_succ_eq_map, List.filterMap_cons,
        List.filterMap_map, hrest, hfirst]
      cases (if inWord then none else interface? (c :: cs)) <;> rfl

theorem endsInWord_false {t : List Char} :
    endsInWord false t = false ↔ ∀ c ∈ t.getLast?, isWord c = false := by
  unfold endsInWord
  cases t.getLast? <;> simp

theorem declaresAt_iff {cs : List Char} {place : Nat} {i : Interface} :
    DeclaresAt cs place i ↔ foundAt? false cs place = some i := by
  constructor
  · rintro ⟨before, head, s, rest, rfl, rfl, hbefore, hs, rfl⟩
    rw [foundAt?, List.take_left, List.drop_left, endsInWord_false.mpr hbefore]
    exact interface?_eq_some_iff.mpr ⟨head, s, rest, rfl, hs, rfl⟩
  · intro h
    rw [foundAt?] at h
    split at h
    · cases h
    · next hword =>
      obtain ⟨head, s, rest, hdrop, hs, rfl⟩ := interface?_eq_some_iff.mp h
      refine ⟨cs.take place, head, s, rest, ?_, ?_, ?_, hs, rfl⟩
      · rw [← hdrop, List.take_append_drop]
      · have hlength := congrArg List.length hdrop
        simp at hlength
        rw [List.length_take]
        omega
      · exact endsInWord_false.mp (by simpa using hword)

theorem declaresAt_lt {cs : List Char} {place : Nat} {i : Interface} (h : DeclaresAt cs place i) :
    place < cs.length := by
  obtain ⟨before, head, s, rest, rfl, rfl, _⟩ := h
  simp only [List.length_append, List.length_cons]
  omega

end Places

section Distinct

theorem distinctFrom_sublist (seen : List (String × List Char)) (l : List Interface) :
    (distinctFrom seen l).Sublist l := by
  induction l generalizing seen with
  | nil => exact List.Sublist.refl []
  | cons i l ih =>
      rw [distinctFrom]
      split
      · exact (ih seen).cons i
      · exact (ih (i.key :: seen)).cons_cons i

theorem distinctFrom_keys (seen : List (String × List Char)) (l : List Interface) :
    ((distinctFrom seen l).map Interface.key).Nodup ∧
      ∀ i ∈ distinctFrom seen l, i.key ∉ seen := by
  induction l generalizing seen with
  | nil => exact ⟨List.nodup_nil, nofun⟩
  | cons i l ih =>
      rw [distinctFrom]
      split
      · exact ih seen
      · next hnew =>
        obtain ⟨hdistinct, hfresh⟩ := ih (i.key :: seen)
        constructor
        · rw [List.map_cons, List.nodup_cons]
          refine ⟨?_, hdistinct⟩
          intro hmem
          obtain ⟨j, hj, hkey⟩ := List.mem_map.mp hmem
          exact hfresh j hj (hkey ▸ List.mem_cons_self)
        · intro j hj
          rcases List.mem_cons.mp hj with rfl | hj
          · exact hnew
          · exact fun hseen => hfresh j hj (List.mem_cons_of_mem _ hseen)

/-- No kind is lost. -/
theorem distinctFrom_covers (seen : List (String × List Char)) {l : List Interface}
    {j : Interface} (h : j ∈ l) :
    j.key ∈ seen ∨ ∃ i ∈ distinctFrom seen l, i.key = j.key := by
  induction l generalizing seen with
  | nil => cases h
  | cons i l ih =>
      rw [distinctFrom]
      split
      · next hseen =>
        rcases List.mem_cons.mp h with rfl | h
        · exact .inl hseen
        · exact ih seen h
      · rcases List.mem_cons.mp h with rfl | h
        · exact .inr ⟨j, List.mem_cons_self, rfl⟩
        · rcases ih (i.key :: seen) h with hseen | ⟨k, hk, hkey⟩
          · rcases List.mem_cons.mp hseen with heq | hseen
            · exact .inr ⟨i, List.mem_cons_self, heq.symm⟩
            · exact .inl hseen
          · exact .inr ⟨k, List.mem_cons_of_mem i hk, hkey⟩

/-- A new kind, at the first of some places where it is found. -/
def IsFirst (f : Nat → Option Interface) (ps : List Nat) (seen : List (String × List Char))
    (i : Interface) (place : Nat) : Prop :=
  i.key ∉ seen ∧ f place = some i ∧
    ∀ other ∈ ps, ∀ j, f other = some j → j.key = i.key → place ≤ other

/-- What is first at some places is so with a place before them where no new kind is found. -/
theorem IsFirst.cons {f : Nat → Option Interface} {p : Nat} {ps : List Nat}
    {seen seen' : List (String × List Char)} (hseen : seen ⊆ seen')
    (hp : ∀ j, f p = some j → j.key ∈ seen') {i : Interface} {place : Nat}
    (h : IsFirst f ps seen' i place) : IsFirst f (p :: ps) seen i place := by
  obtain ⟨hnew, hfound, hleast⟩ := h
  refine ⟨fun hmem => hnew (hseen hmem), hfound, ?_⟩
  intro other hother j hj hkey
  rcases List.mem_cons.mp hother with rfl | hother
  · exact absurd (hkey ▸ hp j hj) hnew
  · exact hleast other hother j hj hkey

/-- Of what is found at increasing places, each new kind is kept where it is found first. -/
theorem distinctFrom_places {f : Nat → Option Interface} {ps : List Nat}
    (h : ps.Pairwise (· < ·)) (seen : List (String × List Char)) :
    ∃ places : List Nat, places.Sublist ps ∧
      List.Forall₂ (IsFirst f ps seen) (distinctFrom seen (ps.filterMap f)) places := by
  induction ps generalizing seen with
  | nil => exact ⟨[], List.Sublist.refl [], .nil⟩
  | cons p ps ih =>
      obtain ⟨hfirst, hrest⟩ := List.pairwise_cons.mp h
      cases hp : f p with
      | none =>
          obtain ⟨places, hsub, hkept⟩ := ih hrest seen
          rw [List.filterMap_cons_none hp]
          refine ⟨places, hsub.cons p, hkept.imp fun _ _ => IsFirst.cons (fun _ hmem => hmem) ?_⟩
          simp [hp]
      | some i =>
          rw [List.filterMap_cons_some hp, distinctFrom]
          split
          · next hseen =>
            obtain ⟨places, hsub, hkept⟩ := ih hrest seen
            refine ⟨places, hsub.cons p, hkept.imp fun _ _ => IsFirst.cons (fun _ hmem => hmem) ?_⟩
            simpa [hp] using hseen
          · next hnew =>
            obtain ⟨places, hsub, hkept⟩ := ih hrest (i.key :: seen)
            have hlater := hkept.imp fun _ _ =>
              IsFirst.cons (p := p) (List.subset_cons_self i.key seen) (by simp [hp])
            refine ⟨p :: places, hsub.cons_cons p, .cons ⟨hnew, hp, ?_⟩ hlater⟩
            intro other hother j _ _
            rcases List.mem_cons.mp hother with rfl | hother
            · exact Nat.le_refl _
            · exact (hfirst other hother).le

end Distinct

section Found

/-- A place is the first at which a text declares a kernel of this kind. -/
def FirstAt (cs : List Char) (i : Interface) (place : Nat) : Prop :=
  DeclaresAt cs place i ∧
    ∀ other j, DeclaresAt cs other j → j.key = i.key → place ≤ other

/-- The specification of kernel extraction. -/
structure KernelsOf (cs : List Char) (found : List Interface) : Prop where
  /-- No kind is there twice. -/
  distinct : (found.map Interface.key).Nodup
  /-- No declaration is lost. -/
  complete : ∀ place j, DeclaresAt cs place j → ∃! i, i ∈ found ∧ i.key = j.key
  /-- Each is as written at the first place of its kind, and they are in the order of these. -/
  ordered : ∃ places, places.Pairwise (· < ·) ∧ List.Forall₂ (FirstAt cs) found places

theorem mem_declaredFrom_iff {cs : List Char} {i : Interface} :
    i ∈ declaredFrom false cs ↔ ∃ place, DeclaresAt cs place i := by
  simp only [declaredFrom_eq, List.mem_filterMap, List.mem_range, declaresAt_iff]
  constructor
  · rintro ⟨place, _, hfound⟩
    exact ⟨place, hfound⟩
  · rintro ⟨place, hfound⟩
    exact ⟨place, declaresAt_lt (declaresAt_iff.mpr hfound), hfound⟩

theorem kernels_first (cs : List Char) :
    ∃ places, places.Pairwise (· < ·) ∧ List.Forall₂ (FirstAt cs) (kernels cs) places := by
  have hrange : (List.range cs.length).Pairwise (· < ·) := List.pairwise_lt_range
  obtain ⟨places, hsub, hkept⟩ := distinctFrom_places (f := foundAt? false cs) hrange []
  rw [← declaredFrom_eq] at hkept
  refine ⟨places, hrange.sublist hsub, hkept.imp ?_⟩
  rintro i place ⟨_, hfound, hleast⟩
  refine ⟨declaresAt_iff.mpr hfound, fun other j hj => ?_⟩
  exact hleast other (List.mem_range.mpr (declaresAt_lt hj)) j (declaresAt_iff.mp hj)

theorem kernels_complete {cs : List Char} {place : Nat} {j : Interface}
    (h : DeclaresAt cs place j) : ∃! i, i ∈ kernels cs ∧ i.key = j.key := by
  rcases distinctFrom_covers [] (mem_declaredFrom_iff.mpr ⟨place, h⟩) with
    hseen | ⟨i, hi, hkey⟩
  · cases hseen
  · refine ⟨i, ⟨hi, hkey⟩, ?_⟩
    rintro other ⟨hother, hsame⟩
    exact List.inj_on_of_nodup_map (distinctFrom_keys [] _).1 hother hi (hsame.trans hkey.symm)

theorem kernelsOf_kernels (cs : List Char) : KernelsOf cs (kernels cs) where
  distinct := (distinctFrom_keys [] _).1
  complete := fun _ _ => kernels_complete
  ordered := kernels_first cs

/-- Whether a caller who asks by a name, or by none, can mean this kernel. -/
def isMeant (name : Option String) (i : Interface) : Bool := name.all (i.name == ·)

theorem isMeant_none : isMeant none = fun _ => true := rfl

theorem isMeant_some (wanted : String) : isMeant (some wanted) = (·.name == wanted) := rfl

/-- Selection returns the only candidate for the requested name, and an error listing the
candidates otherwise. -/
structure Chooses (name : Option String) (found : List Interface)
    (result : Except Failure Interface) : Prop where
  only : ∀ i, result = .ok i ↔ found.filter (isMeant name) = [i]
  nothing : name = none → found = [] → result = .error (.kernel (.notFound none []))
  several : name = none → 1 < found.length →
    result = .error (.kernel (.ambiguous (found.map (·.name))))
  named : ∀ wanted, name = some wanted → (found.filter (·.name == wanted)).length ≠ 1 →
    result = .error (.kernel (.notFound (some wanted) (found.map (·.name))))

theorem select_ok_iff {name : Option String} {found : List Interface} {i : Interface} :
    select name found = .ok i ↔ found.filter (isMeant name) = [i] := by
  cases name with
  | none =>
      rw [isMeant_none, List.filter_true]
      match found with
      | [] => simp [select]
      | [only] => simp [select]
      | _ :: _ :: _ => simp [select]
  | some wanted =>
      rw [isMeant_some, select]
      split
      · next hfilter => simp [hfilter]
      · next hfilter =>
        exact iff_of_false nofun (hfilter i)

theorem chooses_select (name : Option String) (found : List Interface) :
    Chooses name found (select name found) where
  only := fun _ => select_ok_iff
  nothing := by
    rintro rfl rfl
    rfl
  several := by
    rintro rfl hseveral
    match found, hseveral with
    | _ :: _ :: _, _ => rfl
  named := by
    rintro wanted rfl hcount
    rw [select]
    split
    · next hfilter =>
      rw [hfilter] at hcount
      exact absurd rfl hcount
    · rfl

/-- Extraction and selection meet their specification on every text. -/
theorem found_and_chosen :
    (∀ cs, KernelsOf cs (kernels cs)) ∧
      ∀ name source, Chooses name (kernels (code source.toList)) (interface name source) :=
  ⟨kernelsOf_kernels, fun name source => chooses_select name (kernels (code source.toList))⟩

/-- A list that does not end hides no other, and a repeated kind counts once. -/
example : kernels "kernel void a(int[) kernel void b(int x); kernel void b(int  x) {}".toList =
    [⟨"b", "int x"⟩] := by
  decide

end Found

section Chosen

variable {cs : List Char} {place : Nat} {i j : Interface}

/-- What is declared within a parameter list is declared in the text. -/
theorem DeclaresAt.nested (h : DeclaresAt cs place i)
    (hj : j ∈ declaredFrom false i.signature.toList) : ∃ other, DeclaresAt cs other j := by
  obtain ⟨before, head, s, rest, rfl, _, _, _, rfl⟩ := h
  obtain ⟨within, before', head', s', rest', hs, rfl, hword, hlist, rfl⟩ :=
    mem_declaredFrom_iff.mp hj
  rw [String.toList_ofList] at hs
  refine ⟨_, before ++ (head.text ++ before'), head', s', rest' ++ ')' :: rest, ?_, rfl, ?_, hlist,
    rfl⟩
  · simp [hs]
  · intro c hc
    cases hbefore : before' with
    | nil =>
        obtain ⟨opened, hopened⟩ := head.exists_paren
        rw [hbefore, List.append_nil, hopened, ← List.append_assoc, List.getLast?_concat] at hc
        cases hc
        decide
    | cons d t =>
        rw [hbefore, ← List.append_assoc, getLast?_append_cons, ← hbefore] at hc
        exact hword c hc

/-- A parameter list is longer than those within it. -/
theorem key_ne_of_nested (hj : j ∈ declaredFrom false i.signature.toList) : j.key ≠ i.key := by
  intro hkey
  obtain ⟨place, before, head, s, rest, hs, _, _, _, rfl⟩ := mem_declaredFrom_iff.mp hj
  have hcollapse : collapse s = collapse i.signature.toList := by
    simpa [Interface.key] using congrArg Prod.snd hkey
  have hvisible : visible s = visible i.signature.toList := by
    rw [← visible_collapse, hcollapse, visible_collapse]
  have hlength := congrArg List.length hvisible
  have hparen : visible (')' :: rest) = ')' :: visible rest := rfl
  rw [hs] at hlength
  simp only [visible_append, hparen, List.length_append, List.length_cons] at hlength
  omega

theorem mem_of_chosen {name : Option String} {found : List Interface}
    (h : select name found = .ok i) : i ∈ found ∧ isMeant name i = true := by
  have hmem : i ∈ found.filter (isMeant name) := by
    rw [select_ok_iff.mp h]
    exact List.mem_singleton_self i
  exact List.mem_filter.mp hmem

theorem declaresAt_of_chosen {name : Option String} (h : select name (kernels cs) = .ok i) :
    ∃ place, DeclaresAt cs place i :=
  mem_declaredFrom_iff.mp ((distinctFrom_sublist [] _).mem (mem_of_chosen h).1)

/-- No other kernel of the text has the name of one that is chosen. -/
theorem key_eq_of_chosen {name : Option String} (h : select name (kernels cs) = .ok i)
    (hj : DeclaresAt cs place j) (hname : j.name = i.name) : j.key = i.key := by
  obtain ⟨_, hmeant⟩ := mem_of_chosen h
  obtain ⟨k, ⟨hk, hkey⟩, _⟩ := kernels_complete hj
  have hkname : k.name = i.name := (congrArg Prod.fst hkey).trans hname
  rw [isMeant, ← hkname] at hmeant
  have hmem : k ∈ (kernels cs).filter (isMeant name) := List.mem_filter.mpr ⟨hk, hmeant⟩
  rw [select_ok_iff.mp h, List.mem_singleton] at hmem
  rw [← hkey, hmem]

end Chosen

end KernelLaunch.Source
