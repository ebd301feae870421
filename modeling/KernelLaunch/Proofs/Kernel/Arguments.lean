import KernelLaunch.Proofs.Host.Conversion
import KernelLaunch.Proofs.Host.Shapes
import KernelLaunch.Proofs.Kernel.Limits

/-!
Marshalled arguments of copying calls. Each argument is split if it is complex, cast to the
element type of its parameter and flagged as read only or not. The array passed to the
backend has the storage type of the parameter, with the converted elements of the argument.
-/

namespace KernelLaunch.Kernel

open Host Signature Backend

/-- An argument marshalled by a copying call. -/
inductive Marshalled (p : Parameter) (arg : Value) (t : Tensor) : Prop where
  | real (notComplex : arg.isComplex = .ok false)
      (cast : ElementType.cast arg p.elementType = .ok t)
  | complex {parts : Tensor} (isComplex : arg.isComplex = .ok true)
      (split : arg.split = .ok parts)
      (cast : ElementType.cast (.ofTensor parts) p.elementType = .ok t)

/-- The marshalled array has the storage type of the parameter's element type, and its
elements are the converted elements of the argument. -/
structure Converted (p : Parameter) (arg : Value) (t : Tensor) : Prop where
  storage : ElementType.storage? p.elementType = some t.storage
  elements : arg.ConvertedTo t

/-- The launch request holds the marshalled arguments, each in its position. -/
structure PassesOn (ps : List Parameter) (args : List Value) (request : RunRequest) : Prop where
  counts : request.args.length = args.length ∧ request.readOnly.length = args.length
  places : ∀ (i : Nat) p arg, ps[i]? = some p → args[i]? = some arg →
    ∃ t readOnly, request.args[i]? = some (Value.ofTensor t) ∧ request.readOnly[i]? = some readOnly ∧
      Marshalled p arg t ∧ Converted p arg t ∧
      (readOnly = true ↔ p.shape = .scalar ∨ p.direction = .input ∧ t.size ≠ 1)

theorem Marshalled.dimensions {p : Parameter} {arg : Value} {t : Tensor}
    (h : Marshalled p arg t) : t.shape.length ≤ maxDimensions := by
  cases h with
  | real notComplex cast =>
      obtain ⟨g, hleaves⟩ := Value.leaves_of_isComplex notComplex
      obtain ⟨s, _, hcollect⟩ := Steps.bind_ok_iff.mp cast
      rw [Value.collectAs_shape hleaves hcollect]
      exact (Value.leaves_ok hleaves).2
  | @complex parts isComplex split cast =>
      obtain ⟨s, _, hcollect⟩ := Steps.bind_ok_iff.mp cast
      have hroom := Value.split_dimensions split
      have hleaves := Value.leaves_array (.ofTensor parts) hroom
      rw [Value.collectAs_shape hleaves hcollect]
      exact hroom

/-- Casting keeps the shape of a real argument. -/
theorem Marshalled.shape_real {p : Parameter} {arg : Value} {t : Tensor} (h : Marshalled p arg t)
    (hreal : arg.isComplex = .ok false) : arg.shape? = some t.shape := by
  cases h with
  | real notComplex cast =>
      obtain ⟨g, hleaves⟩ := Value.leaves_of_isComplex notComplex
      obtain ⟨s, _, hcollect⟩ := Steps.bind_ok_iff.mp cast
      rw [Value.shape?_of_leaves hleaves, Value.collectAs_shape hleaves hcollect]
  | complex isComplex => cases isComplex.symm.trans hreal

/-- A complex argument goes on as a tensor of two rows in its shape. -/
theorem Marshalled.shape_complex {p : Parameter} {arg : Value} {t : Tensor} (h : Marshalled p arg t)
    (hcomplex : arg.isComplex = .ok true) :
    ∃ shape, arg.shape? = some shape ∧ t.shape = 2 :: shape := by
  cases h with
  | real notComplex => cases notComplex.symm.trans hcomplex
  | complex isComplex split cast =>
      obtain ⟨shape, hshape, hparts⟩ := Value.shape?_of_split split
      obtain ⟨s, _, hcollect⟩ := Steps.bind_ok_iff.mp cast
      cases hcollect
      exact ⟨shape, hshape, hparts⟩


/-- What casting needs is a storage type, and it takes the value to it. -/
theorem storage_of_cast {p : Parameter} {v : Value} {t : Tensor}
    (h : ElementType.cast v p.elementType = .ok t) :
    ElementType.storage? p.elementType = some t.storage ∧ v.collectAs t.storage = .ok t := by
  obtain ⟨s, hstorage, hcollect⟩ := Steps.bind_ok_iff.mp h
  unfold ElementType.storage at hstorage
  split at hstorage
  · next hsome =>
    cases hstorage
    rw [Value.collectAs_storage hcollect]
    exact ⟨hsome, hcollect⟩
  · cases hstorage

theorem Marshalled.storage {p : Parameter} {arg : Value} {t : Tensor} (h : Marshalled p arg t) :
    ElementType.storage? p.elementType = some t.storage := by
  cases h with
  | real _ cast => exact (storage_of_cast cast).1
  | complex _ _ cast => exact (storage_of_cast cast).1

/-- An argument can be marshalled only for a parameter whose type is known. -/
theorem Marshalled.isResolved {p : Parameter} {arg : Value} {t : Tensor}
    (h : Marshalled p arg t) : p.isResolved = true := by
  rw [Parameter.isResolved, ElementType.isResolved, h.storage]
  rfl

/-- No element type stands for truth values. -/
theorem storage?_ne_truth {name : String} {s : Storage} (h : ElementType.storage? name = some s) :
    s ≠ .truth := by
  obtain ⟨_, _, hcanonical, _⟩ := List.lookup_eq_some_iff.mp h
  have hmem : (name, s) ∈ ElementType.canonical := by
    rw [hcanonical]
    exact List.mem_append_right _ List.mem_cons_self
  rintro rfl
  simp [ElementType.canonical] at hmem

/-- What has been marshalled is what the leaves of the argument become, one by one. -/
theorem Marshalled.converted {p : Parameter} {arg : Value} {t : Tensor}
    (h : Marshalled p arg t) : Converted p arg t := by
  have htarget := storage?_ne_truth h.storage
  refine ⟨h.storage, ?_⟩
  cases h with
  | real notComplex cast =>
      obtain ⟨g, hleaves⟩ := Value.leaves_of_isComplex notComplex
      exact .real notComplex hleaves
        (Value.collectAs_castFrom hleaves (storage_of_cast cast).2 htarget)
  | @complex parts isComplex split cast =>
      obtain ⟨g, hleaves, hcomplex⟩ := Steps.bind_ok_iff.mp isComplex
      split at hcomplex
      · next hkind =>
        have hconvert : parts.convert t.storage = t := Except.ok.inj (storage_of_cast cast).2
        exact .complex hleaves hkind (hconvert ▸ Value.splitFrom hleaves hkind split htarget)
      · cases hcomplex

/-- Encoding and casting one argument is marshalling it. -/
theorem marshalled_iff {p : Parameter} {arg : Value} {c : Bool} (hc : arg.isComplex = .ok c)
    {passed : Passed} :
    (∃ encoded, encode c arg = .ok encoded ∧ castTo p encoded = .ok passed) ↔
      ∃ t, Marshalled p arg t ∧ passed = .fresh t := by
  constructor
  · rintro ⟨encoded, hencode, hcast⟩
    obtain ⟨t, hcollect, rfl⟩ := Steps.map_ok_iff.mp hcast
    refine ⟨t, ?_, rfl⟩
    cases c with
    | false =>
        cases hencode
        exact .real hc hcollect
    | true =>
        obtain ⟨parts, hsplit, rfl⟩ := Steps.map_ok_iff.mp hencode
        exact .complex hc hsplit hcollect
  · rintro ⟨t, hmarshalled, rfl⟩
    cases hmarshalled with
    | real notComplex cast =>
        cases hc.symm.trans notComplex
        exact ⟨⟨arg, true⟩, rfl, Steps.map_ok_iff.mpr ⟨t, cast, rfl⟩⟩
    | @complex parts isComplex split cast =>
        cases hc.symm.trans isComplex
        exact ⟨.fresh parts, Steps.map_ok_iff.mpr ⟨parts, split, rfl⟩,
          Steps.map_ok_iff.mpr ⟨t, cast, rfl⟩⟩

theorem readOnly_fresh (p : Parameter) {t : Tensor} (h : t.shape.length ≤ maxDimensions) :
    ∃ flag, readOnly p (Passed.fresh t).value = .ok flag ∧
      (flag = true ↔ p.shape = .scalar ∨ p.direction = .input ∧ t.size ≠ 1) := by
  have hsingle : (Passed.fresh t).value.isSingle = .ok (t.size == 1) :=
    Value.isSingle_array (.ofTensor t) h
  unfold readOnly
  rw [hsingle]
  obtain ⟨name, direction, shape, sourceType, elementType⟩ := p
  cases shape with
  | scalar => exact ⟨true, rfl, by simp⟩
  | vector =>
      cases direction with
      | inout => exact ⟨false, rfl, by simp⟩
      | input => exact ⟨!(t.size == 1), rfl, by simp⟩

theorem unresolvedFrom_eq_nil {ps : List Parameter} (h : ∀ p ∈ ps, p.isResolved = true)
    (seen : List String) : unresolvedFrom seen ps = [] := by
  induction ps with
  | nil => rfl
  | cons p ps ih =>
      rw [unresolvedFrom, if_pos (by simp [h p List.mem_cons_self])]
      exact ih fun q hq => h q (List.mem_cons_of_mem p hq)

theorem Marshalled.exists_isComplex {p : Parameter} {arg : Value} {t : Tensor}
    (h : Marshalled p arg t) : ∃ c, arg.isComplex = .ok c := by
  cases h with
  | real notComplex _ => exact ⟨false, notComplex⟩
  | complex isComplex _ _ => exact ⟨true, isComplex⟩

theorem castAll_of_resolved {name : String} {ps : List Parameter} {encoded : List Passed}
    (h : ∀ p ∈ ps, p.isResolved = true) :
    castAll name ps false encoded = (ps.zip encoded).mapM fun (p, a) => castTo p a := by
  simp only [castAll, unresolved, unresolvedFrom_eq_nil h, Bool.false_eq_true, if_false]

/-- An argument cast for a call of either kind. -/
def castFor (inPlace : Bool) (p : Parameter) (passed : Passed) : Except Failure Passed :=
  if inPlace then castInPlace p passed else castTo p passed

theorem castAll_each {name : String} {ps : List Parameter} {inPlace : Bool}
    {encoded passed : List Passed} (h : castAll name ps inPlace encoded = .ok passed) :
    (ps.zip encoded).mapM (fun (p, a) => castFor inPlace p a) = .ok passed := by
  unfold castAll at h
  cases inPlace with
  | true => exact h
  | false =>
      rw [if_neg Bool.false_ne_true] at h
      split at h
      · exact h
      · cases h

/-- What stands in one place of the arguments of a call, from the first stage to
the last. -/
structure Stages (inPlace : Bool) (p : Parameter) (arg : Value) (c : Bool) (passed : Passed)
    (flag : Bool) : Prop where
  isComplex : arg.isComplex = .ok c
  cast : ∃ encoded, encode c arg = .ok encoded ∧ castFor inPlace p encoded = .ok passed
  readOnly : readOnly p passed.value = .ok flag

theorem prepare_stages {k : Kernel} {device : Device} {args : List Value} {inPlace : Bool}
    {p : Prepared} (hcount : args.length = k.parameters.length)
    (h : k.prepare device args inPlace = .ok p) :
    (p.complex.length = args.length ∧ p.passed.length = args.length ∧
      p.flags.length = args.length) ∧
    ∀ (i : Nat) parameter arg, k.parameters[i]? = some parameter → args[i]? = some arg →
      ∃ c passed flag, p.complex[i]? = some c ∧ p.passed[i]? = some passed ∧
        p.flags[i]? = some flag ∧ Stages inPlace parameter arg c passed flag := by
  obtain ⟨_, _, h⟩ := Steps.bind_ok_iff.mp h
  obtain ⟨complex, hcomplex, h⟩ := Steps.bind_ok_iff.mp h
  obtain ⟨passed, hpassed, h⟩ := Steps.bind_ok_iff.mp h
  obtain ⟨flags, hflags, h⟩ := Steps.bind_ok_iff.mp h
  cases h
  obtain ⟨encoded, hencoded, hcast⟩ := Steps.bind_ok_iff.mp hpassed
  have complexAt := Steps.mapM_ok_iff.mp hcomplex
  have encodedAt := Steps.mapM_ok_iff.mp hencoded
  have passedAt := Steps.mapM_ok_iff.mp (castAll_each hcast)
  have flagsAt := Steps.mapM_ok_iff.mp hflags
  have lengths := And.intro complexAt.length_eq
    (And.intro encodedAt.length_eq (And.intro passedAt.length_eq flagsAt.length_eq))
  simp only [List.length_zip, List.length_map] at lengths
  dsimp only
  refine ⟨by omega, ?_⟩
  intro i parameter arg hparameter harg
  obtain ⟨c, hc, hcomplexArg⟩ := Steps.place complexAt harg
  have hzipped := (List.getElem?_zip_eq_some (z := (c, arg))).mpr ⟨hc, harg⟩
  obtain ⟨e, he, hencode⟩ := Steps.place encodedAt hzipped
  have hpaired := (List.getElem?_zip_eq_some (z := (parameter, e))).mpr ⟨hparameter, he⟩
  obtain ⟨a, ha, hcastFor⟩ := Steps.place passedAt hpaired
  have hvalue : (passed.map (·.value))[i]? = some a.value := by
    rw [List.getElem?_map, ha]
    rfl
  have hflagged := (List.getElem?_zip_eq_some (z := (parameter, a.value))).mpr ⟨hparameter, hvalue⟩
  obtain ⟨flag, hflag, hreadOnly⟩ := Steps.place flagsAt hflagged
  exact ⟨c, a, flag, hc, ha, hflag, hcomplexArg, ⟨e, hencode, hcastFor⟩, hreadOnly⟩

/-- What stands in one place of the arguments of a copying call, from the first
stage to the last. -/
structure Place (p : Parameter) (arg : Value) (c : Bool) (passed : Passed) (flag : Bool) :
    Prop where
  isComplex : arg.isComplex = .ok c
  cast : ∃ t, Marshalled p arg t ∧ passed = .fresh t
  readOnly : readOnly p passed.value = .ok flag

theorem prepare_inv {k : Kernel} {device : Device} {args : List Value} {p : Prepared}
    (hcount : args.length = k.parameters.length)
    (h : k.prepare device args false = .ok p) :
    (p.complex.length = args.length ∧ p.passed.length = args.length ∧
      p.flags.length = args.length) ∧
    ∀ (i : Nat) parameter arg, k.parameters[i]? = some parameter → args[i]? = some arg →
      ∃ c passed flag, p.complex[i]? = some c ∧ p.passed[i]? = some passed ∧
        p.flags[i]? = some flag ∧ Place parameter arg c passed flag := by
  obtain ⟨hlengths, hstages⟩ := prepare_stages hcount h
  refine ⟨hlengths, fun i parameter arg hparameter harg => ?_⟩
  obtain ⟨c, passed, flag, hc, hpassed, hflag, hstage⟩ := hstages i parameter arg hparameter harg
  exact ⟨c, passed, flag, hc, hpassed, hflag, hstage.isComplex,
    (marshalled_iff hstage.isComplex).mp hstage.cast, hstage.readOnly⟩

/-- Arguments that can be marshalled pass every stage. -/
theorem exists_stages {ps : List Parameter} {args : List Value}
    (castable : List.Forall₂ (fun p arg => ∃ t, Marshalled p arg t) ps args) :
    ∃ complex encoded passed flags, args.mapM Value.isComplex = .ok complex ∧
      encodeAll complex args = .ok encoded ∧
      ((ps.zip encoded).mapM fun (p, a) => castTo p a) = .ok passed ∧
      readOnlyAll ps (passed.map (·.value)) = .ok flags := by
  simp only [encodeAll, readOnlyAll, Steps.mapM_ok_iff]
  induction castable with
  | nil => exact ⟨[], [], [], [], .nil, .nil, .nil, .nil⟩
  | @cons p arg ps args hfirst _ ih =>
      obtain ⟨t, hmarshalled⟩ := hfirst
      obtain ⟨complex, encoded, passed, flags, hcomplex, hencoded, hpassed, hflags⟩ := ih
      obtain ⟨c, hc⟩ := hmarshalled.exists_isComplex
      obtain ⟨e, hencode, hcast⟩ := (marshalled_iff hc).mpr ⟨t, hmarshalled, rfl⟩
      obtain ⟨flag, hflag, _⟩ := readOnly_fresh p hmarshalled.dimensions
      exact ⟨c :: complex, e :: encoded, .fresh t :: passed, flag :: flags, .cons hc hcomplex,
        .cons hencode hencoded, .cons hcast hpassed, .cons hflag hflags⟩

/-- Arguments that can be marshalled are prepared, for a block that the device
admits. -/
theorem exists_prepare {k : Kernel} {device : Device} {args : List Value}
    (hadmits : device.Admits k.geometry.block.toList)
    (castable : List.Forall₂ (fun p arg => ∃ t, Marshalled p arg t) k.parameters args) :
    ∃ p, k.prepare device args false = .ok p := by
  obtain ⟨complex, encoded, passed, flags, hcomplex, hencoded, hpassed, hflags⟩ :=
    exists_stages castable
  have hresolved : ∀ p ∈ k.parameters, p.isResolved = true := by
    intro p hp
    obtain ⟨i, hi⟩ := List.mem_iff_getElem?.mp hp
    obtain ⟨arg, _, t, hmarshalled⟩ := Steps.place castable hi
    exact hmarshalled.isResolved
  have hpassedOn : k.passedOn args false complex = .ok passed :=
    Steps.bind_ok_iff.mpr ⟨encoded, hencoded, (castAll_of_resolved hresolved).trans hpassed⟩
  refine ⟨⟨complex, passed, flags⟩, ?_⟩
  apply Steps.bind_ok_iff.mpr ⟨(), checkBlock_of_admits hadmits, ?_⟩
  apply Steps.bind_ok_iff.mpr ⟨complex, hcomplex, ?_⟩
  apply Steps.bind_ok_iff.mpr ⟨passed, hpassedOn, ?_⟩
  exact Steps.bind_ok_iff.mpr ⟨flags, hflags, rfl⟩

theorem passesOn_of_prepare {k : Kernel} {device : Device} {args : List Value} {p : Prepared}
    (hcount : args.length = k.parameters.length)
    (h : k.prepare device args false = .ok p) :
    PassesOn k.parameters args (k.runRequest device p.passed p.flags) := by
  obtain ⟨⟨_, hpassed, hflags⟩, hplaces⟩ := prepare_inv hcount h
  refine ⟨⟨by rw [runRequest, List.length_map, hpassed], hflags⟩, ?_⟩
  intro i parameter arg hparameter harg
  obtain ⟨c, passed, flag, _, hpassedAt, hflagAt, hplace⟩ := hplaces i parameter arg hparameter harg
  obtain ⟨t, hmarshalled, rfl⟩ := hplace.cast
  obtain ⟨flag', hflag', hmeaning⟩ := readOnly_fresh parameter hmarshalled.dimensions
  cases hplace.readOnly.symm.trans hflag'
  refine ⟨t, flag, ?_, hflagAt, hmarshalled, hmarshalled.converted, hmeaning⟩
  rw [runRequest, List.getElem?_map, hpassedAt]
  rfl

end KernelLaunch.Kernel
