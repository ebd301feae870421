import KernelLaunch.Proofs.Host.Pairs
import KernelLaunch.Proofs.Number.Rounding

/-!
Element conversions of casts, splits and joins. An integer type takes the integer part of an
element, which wraps modulo the width unless the element is a plain number without storage
type; a floating-point type takes the number nearest to the real part. Casting converts the
elements one by one, each in its place; splitting a complex value stores all real parts and
then all imaginary parts, and joining reads two such rows as complex numbers again.
-/

namespace KernelLaunch.Host

open Number

section Elements

/-- What an integer stands for. -/
def readingOfInt (n : Int) : Reading := .finite (n < 0) n.natAbs 0

/-- What the real part of an element stands for. -/
def Storage.realReading : (s : Storage) → s.Elem → Reading
  | .truth, b => readingOfInt (cond b 1 0)
  | .integer signed _, b => readingOfInt (integerValue signed b)
  | .real _, x => x.reading
  | .complex _, z => z.1.reading

/-- What the imaginary part of an element stands for. -/
def Storage.imaginaryReading : (s : Storage) → s.Elem → Reading
  | .complex _, z => z.2.reading
  | _, _ => readingOfInt 0

/-- The integer part of an element, if it has one. -/
def Storage.whole? : (s : Storage) → s.Elem → Option Int
  | .truth, b => some (cond b 1 0)
  | .integer signed _, b => some (integerValue signed b)
  | .real _, x => x.reading.whole?
  | .complex _, z => z.1.reading.whole?

/-- What the real part of a leaf stands for. An integer without a storage type is rounded to
double precision first, and what is absent is no number. -/
inductive Leaf.Reads : Leaf → Reading → Prop
  | cell {s : Storage} (e : s.Elem) : Reads (.cell s e) (s.realReading e)
  | element {s : Storage} (e : s.Elem) : Reads (.alone (.element s e)) (s.realReading e)
  | absent : Reads (.alone .absent) .undefined
  | truth (b : Bool) : Reads (.alone (.truth b)) (readingOfInt (cond b 1 0))
  | int {n : Int} {x : Binary .double} (rounds : Rounds (readingOfInt n) x) :
      Reads (.alone (.int n)) x.reading
  | real (x : Binary .double) : Reads (.alone (.real x)) x.reading
  | complex (re im : Binary .double) : Reads (.alone (.complex re im)) re.reading
  | text {s : String} {x : Binary .double} (reads : realOfText? s = some x) :
      Reads (.alone (.text s)) x.reading

/-- What the imaginary part of a leaf stands for. -/
def Leaf.imaginaryReading : Leaf → Reading
  | .cell s e | .alone (.element s e) => s.imaginaryReading e
  | .alone (.complex _ im) => im.reading
  | _ => readingOfInt 0

/-- The integer part of a leaf, if it has one. -/
def Leaf.whole? : Leaf → Option Int
  | .cell s e | .alone (.element s e) => s.whole? e
  | .alone (.truth b) => some (cond b 1 0)
  | .alone (.int n) => some n
  | .alone (.real x) => x.reading.whole?
  | .alone (.text s) => integerOfText? s
  | .alone .absent | .alone (.complex _ _) => none

/-- Whether a leaf has no storage type of its own. -/
def Leaf.isPlain : Leaf → Bool
  | .cell _ _ | .alone (.element _ _) => false
  | .alone _ => true

/-- Conversion of one element to a storage type: an integer type takes the integer part modulo
its width, a floating-point type the nearest number to the real part. -/
inductive Leaf.Becomes (l : Leaf) : (s : Storage) → s.Elem → Prop
  /-- The low bits of the integer part. A leaf without a storage type has to be held. -/
  | integer {signed : Bool} {width : Width} {b : BitVec width.bits}
      (wraps : ∀ n, l.whole? = some n → b = BitVec.ofInt width.bits n)
      (held : l.isPlain = true → l.whole? = some (Storage.integerValue signed b)) :
      Becomes l (.integer signed width) b
  | real {p : Precision} {x : Binary p} {r : Reading} (reads : l.Reads r)
      (rounds : Rounds r x) : Becomes l (.real p) x
  | complex {parts : Parts} {z : Binary parts.precision × Binary parts.precision} {r : Reading}
      (reads : l.Reads r) (rounds : Rounds r z.1)
      (imaginary : Rounds l.imaginaryReading z.2) : Becomes l (.complex parts) z

theorem Storage.rounds_realPart (p : Precision) (s : Storage) (e : s.Elem) :
    Rounds (s.realReading e) (s.realPart p e) := by
  cases s with
  | truth => exact rounds_ofInt p _
  | integer signed width => exact rounds_ofInt p _
  | real q => exact rounds_convert (p := q) e p
  | complex parts => exact rounds_convert e.1 p

theorem Storage.rounds_imaginaryPart (p : Precision) (s : Storage) (e : s.Elem) :
    Rounds (s.imaginaryReading e) (s.imaginaryPart p e) := by
  cases s with
  | complex parts => exact rounds_convert e.2 p
  | _ => exact rounds_ofInt p 0

theorem Storage.integerValue_ofInt {signed : Bool} {width : Width} {n : Int}
    (h : Storage.holds signed width n = true) :
    Storage.integerValue signed (BitVec.ofInt width.bits n) = n := by
  unfold Storage.holds at h
  cases signed with
  | true =>
      simp only [if_true, Bool.and_eq_true, decide_eq_true_eq] at h
      simp only [Storage.integerValue, if_true, BitVec.toInt_ofInt, Int.bmod_def]
      cases width <;> simp [Width.bits] at h ⊢ <;> omega
  | false =>
      simp only [Bool.false_eq_true, if_false, Bool.and_eq_true, decide_eq_true_eq] at h
      simp only [Storage.integerValue, Bool.false_eq_true, if_false, BitVec.toNat_ofInt]
      cases width <;> simp [Width.bits] at h ⊢ <;> omega

theorem Storage.ofInt_integerValue (signed : Bool) {width : Width} (b : BitVec width.bits) :
    BitVec.ofInt width.bits (Storage.integerValue signed b) = b := by
  cases signed with
  | true => exact BitVec.ofInt_toInt
  | false =>
      change BitVec.ofInt width.bits (b.toNat : Int) = b
      rw [BitVec.ofInt_natCast, BitVec.ofNat_toNat, BitVec.setWidth_eq]

/-- A leaf with a storage type, converted to another one. -/
theorem Storage.convert_becomes {l : Leaf} {s target : Storage} (e : s.Elem)
    (hleaf : l = .cell s e ∨ l = .alone (.element s e)) (htarget : target ≠ .truth) :
    l.Becomes target (s.convert target e) := by
  have hreal : l.Reads (s.realReading e) := by
    rcases hleaf with rfl | rfl
    · exact .cell e
    · exact .element e
  have himaginary : l.imaginaryReading = s.imaginaryReading e := by
    rcases hleaf with rfl | rfl <;> rfl
  have hwhole : l.whole? = s.whole? e := by rcases hleaf with rfl | rfl <;> rfl
  have hplain : l.isPlain ≠ true := by rcases hleaf with rfl | rfl <;> nofun
  by_cases h : s = target
  · subst h
    rw [Storage.convert_self]
    cases s with
    | truth => exact absurd rfl htarget
    | integer signed width =>
        refine .integer (fun n hn => ?_) fun h => absurd h hplain
        cases hwhole.symm.trans hn
        exact (Storage.ofInt_integerValue signed _).symm
    | real p => exact .real hreal (rounds_reading (p := p) e)
    | complex parts => exact .complex hreal (rounds_reading e.1) (himaginary ▸ rounds_reading e.2)
  · unfold Storage.convert
    rw [dif_neg h]
    cases target with
    | truth => exact absurd rfl htarget
    | integer signed width =>
        refine .integer (fun n hn => ?_) fun h => absurd h hplain
        have hn := hwhole.symm.trans hn
        refine congrArg (BitVec.ofInt width.bits) ?_
        cases s with
        | truth | integer => exact Option.some.inj hn
        | real | complex => exact congrArg (Option.getD · 0) ((truncated?_eq _).trans hn)
    | real p => exact .real hreal (s.rounds_realPart p e)
    | complex parts =>
        exact .complex hreal (s.rounds_realPart _ e) (himaginary ▸ s.rounds_imaginaryPart _ e)

section Storing

variable {l : Leaf} {target : Storage} {e : target.Elem}

theorem storeWhole_becomes {signed : Bool} {width : Width} {n : Int} {b : BitVec width.bits}
    (hwhole : l.whole? = some n) (h : storeWhole signed width n = .ok b) :
    l.Becomes (.integer signed width) b := by
  unfold storeWhole at h
  split at h
  · next hholds =>
    cases h
    refine .integer (fun m hm => ?_) fun _ => ?_
    · rw [Option.some.inj (hwhole.symm.trans hm)]
    · rw [Storage.integerValue_ofInt hholds]
      exact hwhole
  · cases h

theorem whole_of_wholePart {p : Precision} {x : Binary p} {n : Int} (h : wholePart x = .ok n) :
    x.reading.whole? = some n := by
  rw [← truncated?_eq]
  unfold wholePart at h
  split at h
  · next htruncated =>
    cases h
    exact htruncated
  · cases h
  · cases h

theorem whole_of_elementWhole {s : Storage} {c : s.Elem} {n : Int}
    (h : elementWhole s c = .ok n) : s.whole? c = some n := by
  cases s with
  | truth | integer =>
      cases h
      rfl
  | real p => exact whole_of_wholePart (p := p) h
  | complex parts => exact whole_of_wholePart (p := parts.precision) h

theorem storeAbsent_becomes (h : storeAbsent target = .ok e) (htarget : target ≠ .truth) :
    (Leaf.alone .absent).Becomes target e := by
  cases target with
  | truth => exact absurd rfl htarget
  | integer => cases h
  | real p =>
      cases h
      exact .real .absent (.undefined (reading_undefined p))
  | complex parts =>
      cases h
      exact .complex .absent (.undefined (reading_undefined _)) (rounds_ofInt _ 0)

theorem convert_truth_becomes (b : Bool) (htarget : target ≠ .truth) :
    (Leaf.alone (.truth b)).Becomes target (Storage.convert .truth target b) := by
  cases target with
  | truth => exact absurd rfl htarget
  | integer signed width =>
      refine .integer (fun n hn => ?_) fun _ => ?_
      · cases hn
        rfl
      · refine congrArg some (Storage.integerValue_ofInt ?_).symm
        cases signed <;> cases width <;> cases b <;> rfl
  | real p => exact .real (.truth b) (rounds_ofInt p _)
  | complex parts => exact .complex (.truth b) (rounds_ofInt _ _) (rounds_ofInt _ 0)

theorem reads_of_doubleOfInt {n : Int} {x : Binary .double} (h : doubleOfInt n = .ok x) :
    (Leaf.alone (.int n)).Reads x.reading := by
  unfold doubleOfInt at h
  dsimp only at h
  split at h
  · cases h
    exact .int (rounds_ofInt .double n)
  · cases h

theorem reads_of_realOfText {s : String} {x : Binary .double} (h : realOfText s = .ok x) :
    (Leaf.alone (.text s)).Reads x.reading := by
  unfold realOfText at h
  split at h
  · next hread =>
    cases h
    exact .text hread
  · cases h

/-- A number in double precision, rounded to the precision of a real type. -/
theorem becomes_of_double {x : Binary .double} (hreal : l.Reads x.reading)
    (himaginary : l.imaginaryReading = readingOfInt 0) :
    (∀ p, l.Becomes (.real p) (x.convert p)) ∧ ∀ parts : Parts, l.Becomes (.complex parts)
      (x.convert parts.precision, Binary.ofInt parts.precision 0) := by
  refine ⟨fun p => .real hreal (rounds_convert x p), fun parts => ?_⟩
  exact .complex hreal (rounds_convert x _) (himaginary ▸ rounds_ofInt _ 0)

theorem storeInt_becomes {n : Int} (h : storeInt n target = .ok e) (htarget : target ≠ .truth) :
    (Leaf.alone (.int n)).Becomes target e := by
  cases target with
  | truth => exact absurd rfl htarget
  | integer signed width => exact storeWhole_becomes rfl h
  | real p =>
      obtain ⟨x, hx, rfl⟩ := Steps.map_ok_iff.mp h
      exact (becomes_of_double (reads_of_doubleOfInt hx) rfl).1 p
  | complex parts =>
      obtain ⟨x, hx, rfl⟩ := Steps.map_ok_iff.mp h
      exact (becomes_of_double (reads_of_doubleOfInt hx) rfl).2 parts

theorem storeReal_becomes {x : Binary .double} (h : storeReal x target = .ok e)
    (htarget : target ≠ .truth) : (Leaf.alone (.real x)).Becomes target e := by
  cases target with
  | truth => exact absurd rfl htarget
  | integer signed width =>
      obtain ⟨n, hn, h⟩ := Steps.bind_ok_iff.mp h
      exact storeWhole_becomes (whole_of_wholePart hn) h
  | real p =>
      cases h
      exact (becomes_of_double (.real x) rfl).1 p
  | complex parts =>
      cases h
      exact (becomes_of_double (.real x) rfl).2 parts

theorem storeComplex_becomes {re im : Binary .double} (h : storeComplex re im target = .ok e)
    (htarget : target ≠ .truth) : (Leaf.alone (.complex re im)).Becomes target e := by
  cases target with
  | truth => exact absurd rfl htarget
  | complex parts =>
      cases h
      exact .complex (.complex re im) (rounds_convert re _) (rounds_convert im _)
  | integer | real => cases h

theorem storeText_becomes {s : String} (h : storeText s target = .ok e)
    (htarget : target ≠ .truth) : (Leaf.alone (.text s)).Becomes target e := by
  cases target with
  | truth => exact absurd rfl htarget
  | integer signed width =>
      simp only [storeText] at h
      split at h
      · next hn => exact storeWhole_becomes hn h
      · cases h
  | real p =>
      obtain ⟨x, hx, rfl⟩ := Steps.map_ok_iff.mp h
      exact (becomes_of_double (reads_of_realOfText hx) rfl).1 p
  | complex parts =>
      obtain ⟨x, hx, rfl⟩ := Steps.map_ok_iff.mp h
      exact (becomes_of_double (reads_of_realOfText hx) rfl).2 parts

theorem storeElement_becomes {s : Storage} {c : s.Elem} (h : storeElement s c target = .ok e)
    (htarget : target ≠ .truth) : (Leaf.alone (.element s c)).Becomes target e := by
  have hconverted (h : (.ok (s.convert target c) : Except Failure target.Elem) = .ok e) :
      (Leaf.alone (.element s c)).Becomes target e :=
    Except.ok.inj h ▸ Storage.convert_becomes c (.inr rfl) htarget
  cases target with
  | integer signed width =>
      cases signed with
      | true =>
          obtain ⟨n, hn, h⟩ := Steps.bind_ok_iff.mp h
          exact storeWhole_becomes (whole_of_elementWhole hn) h
      | false => exact hconverted h
  | truth | real | complex => exact hconverted h

/-- A leaf that has been stored is what its integer part, or the numbers that it stands for,
make of it. -/
theorem Leaf.store_becomes (h : l.store target = .ok e) (htarget : target ≠ .truth) :
    l.Becomes target e := by
  cases l with
  | cell s c =>
      cases h
      exact Storage.convert_becomes c (.inl rfl) htarget
  | alone a =>
      cases a with
      | absent => exact storeAbsent_becomes h htarget
      | truth b =>
          cases h
          exact convert_truth_becomes b htarget
      | int n => exact storeInt_becomes h htarget
      | real x => exact storeReal_becomes h htarget
      | complex re im => exact storeComplex_becomes h htarget
      | text s => exact storeText_becomes h htarget
      | element s c => exact storeElement_becomes h htarget

end Storing

end Elements

section Casting

/-- Element-wise conversion: same shape, and each element converted in its position. -/
structure CastFrom (g : Grid Leaf) (t : Tensor) : Prop where
  shape : t.shape = g.shape
  elements : List.Forall₂ (fun l e => l.Becomes t.storage e) g.cells t.grid.cells

/-- Split conversion: a leading dimension of two, with the converted real parts in the first
row and the converted imaginary parts in the second. -/
structure SplitFrom (parts : Parts) (g : Grid Leaf) (t : Tensor) : Prop where
  shape : t.shape = 2 :: g.shape
  elements : ∃ zs : List (Binary parts.precision × Binary parts.precision),
    List.Forall₂ (fun l z => l.Becomes (.complex parts) z) g.cells zs ∧
      List.Forall₂ (fun x e => (Leaf.cell (.real parts.precision) x).Becomes t.storage e)
        (zs.map Prod.fst ++ zs.map Prod.snd) t.grid.cells

/-- Marshalling conversion of a value: its elements, or their real and imaginary parts if it
is complex. -/
inductive Value.ConvertedTo (v : Value) (t : Tensor) : Prop
  | real {g : Grid Leaf} (notComplex : v.isComplex = .ok false) (leaves : v.leaves = .ok g)
      (cast : CastFrom g t)
  | complex {g : Grid Leaf} {parts : Parts} (leaves : v.leaves = .ok g)
      (kind : v.kind = .stored (.complex parts)) (split : SplitFrom parts g t)

/-- Join conversion: real parts from the first row, imaginary parts from the second. -/
inductive JoinedFrom (r : Tensor) : Tensor → Prop
  | rows {n : Nat} {shape : List Nat} (rows : r.shape = n :: shape) (several : 2 ≤ n)
      (z : Grid (Storage.complex r.storage.paired).Elem) (same : z.shape = shape)
      (elements : List.Forall₂ (fun ab z => Rounds (r.storage.realReading ab.1) z.1 ∧
          Rounds (r.storage.realReading ab.2) z.2)
        ((r.grid.cells.take (volume shape)).zip
          ((r.grid.cells.drop (volume shape)).take (volume shape))) z.cells) :
      JoinedFrom r ⟨.complex r.storage.paired, z⟩

variable {target : Storage} {t : Tensor} {g : Grid Leaf}

theorem castFrom_convert (whole : Tensor) (htarget : target ≠ .truth) :
    CastFrom (whole.grid.map (Leaf.cell whole.storage)) (whole.convert target) := by
  refine ⟨rfl, ?_⟩
  apply List.forall₂_map_left_iff.mpr
  apply List.forall₂_map_right_iff.mpr
  exact List.forall₂_same.mpr fun e _ => Storage.convert_becomes e (.inl rfl) htarget

/-- Casting treats the leaves of a value one by one. -/
theorem Value.collectAs_castFrom {v : Value} (hleaves : v.leaves = .ok g)
    (h : v.collectAs target = .ok t) (htarget : target ≠ .truth) : CastFrom g t := by
  have hshape := Value.collectAs_shape hleaves h
  have hstore (h : (v.leaves >>= fun leaves => leaves.tryMap (Leaf.store target) >>= fun k =>
      .ok ⟨target, k.1⟩ : Except Failure Tensor) = .ok t) : CastFrom g t := by
    obtain ⟨g', hg', h⟩ := Steps.bind_ok_iff.mp h
    cases hleaves.symm.trans hg'
    obtain ⟨k, hk, h⟩ := Steps.bind_ok_iff.mp h
    cases h
    refine ⟨hshape, (Steps.mapM_ok_iff.mp (Grid.tryMap_ok hk)).imp fun l e he => ?_⟩
    exact Leaf.store_becomes he htarget
  cases v with
  | array a =>
      obtain ⟨hsome, _⟩ := Value.leaves_ok hleaves
      cases h
      cases hsome
      exact castFrom_convert a.tensor htarget
  | list items => exact hstore h
  | atom a =>
      cases a with
      | element s e =>
          obtain ⟨hsome, _⟩ := Value.leaves_ok hleaves
          cases h
          cases hsome
          exact ⟨rfl, .cons (Storage.convert_becomes e (.inr rfl) htarget) .nil⟩
      | _ => exact hstore h

/-- Splitting treats the leaves of a complex value one by one. -/
theorem Value.splitFrom {v : Value} {parts : Parts} {split : Tensor} (hleaves : v.leaves = .ok g)
    (hkind : v.kind = .stored (.complex parts)) (hsplit : v.split = .ok split)
    (htarget : target ≠ .truth) : SplitFrom parts g (split.convert target) := by
  obtain ⟨whole, hwhole, h⟩ := Steps.bind_ok_iff.mp hsplit
  split at h
  · cases h
  · cases h
    rw [Value.collect_of_leaves hleaves, hkind] at hwhole
    have hcast := Value.collectAs_castFrom hleaves hwhole nofun
    obtain ⟨storage, grid⟩ := whole
    cases Value.collectAs_storage hwhole
    have hconverted := castFrom_convert (Tensor.split ⟨.complex parts, grid⟩) htarget
    refine ⟨congrArg (2 :: ·) hcast.shape, grid.cells, hcast.elements, ?_⟩
    exact List.forall₂_map_left_iff.mp hconverted.elements

theorem forall₂_zipWith {α β γ : Type} {f : α → β → γ} {R : α × β → γ → Prop}
    (h : ∀ a b, R (a, b) (f a b)) (as : List α) (bs : List β) :
    List.Forall₂ R (as.zip bs) (List.zipWith f as bs) := by
  rw [← List.map_uncurry_zip_eq_zipWith, List.forall₂_map_right_iff, List.forall₂_same]
  exact fun ab _ => h ab.1 ab.2

/-- What is joined is made of the first two rows, element by element. -/
theorem joinedFrom_of_join {r : Tensor} (h : r.join = .ok t) : JoinedFrom r t := by
  have hrows : ∃ n shape, r.grid.shape = n :: shape ∧ 2 ≤ n := by
    unfold Tensor.join at h
    split at h
    · cases h
    · next n shape hshape =>
      split at h
      · next hn => exact ⟨n, shape, hshape, hn⟩
      · cases h
  obtain ⟨n, shape, hshape, hn⟩ := hrows
  rw [Tensor.join_of_shape hshape hn] at h
  cases h
  refine .rows hshape hn _ rfl ?_
  have hfirst : (r.grid.row hshape ⟨0, Nat.lt_of_succ_lt hn⟩).cells =
      r.grid.cells.take (volume shape) := by
    change (r.grid.cells.drop (0 * volume shape)).take (volume shape) = _
    rw [Nat.zero_mul, List.drop_zero]
  have hsecond : (r.grid.row hshape ⟨1, hn⟩).cells =
      (r.grid.cells.drop (volume shape)).take (volume shape) := by
    change (r.grid.cells.drop (1 * volume shape)).take (volume shape) = _
    rw [Nat.one_mul]
  rw [← hfirst, ← hsecond]
  apply forall₂_zipWith
  exact fun a b => ⟨r.storage.rounds_realPart _ a, r.storage.rounds_realPart _ b⟩

theorem Value.joinedFrom_array {a : HostArray} (h : (Value.array a).join = .ok t) :
    JoinedFrom a.tensor t := by
  obtain ⟨_, _, h⟩ := Steps.bind_ok_iff.mp h
  exact joinedFrom_of_join h

end Casting

end KernelLaunch.Host
