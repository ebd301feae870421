import Mathlib.Logic.Function.Basic
import KernelLaunch.Kernel.Settings
import KernelLaunch.Proofs.Except

/-!
Kernels as heap objects. The geometry and the option lists of a kernel are mutable objects
on a heap, and a kernel only refers to them; `withChanges` allocates new ones. Assignments
through a handle do what they do to the kernel that is read through it, and write to no
cells but its own and new ones.
-/

namespace KernelLaunch

open Host Device Kernel Directory

/-- The heap: geometries and option lists by cell number. -/
structure Cells where
  sizes : Nat → Geometry.Dispatch
  options : Nat → List Value
  /-- The first number that is not in use. -/
  next : Nat

/-- A kernel object: its own fields, and the cells of its geometry and of its option lists. -/
structure Handle where
  interface : Source.Interface
  parameters : List Signature.Parameter
  source : Place
  device : Option Device
  built : Option BuildRecord
  sizes : Nat
  options : OptionList → Nat

namespace Cells

def empty : Cells := ⟨fun _ => .initial, fun _ => [], 0⟩

def writeSizes (c : Cells) (n : Nat) (d : Geometry.Dispatch) : Cells :=
  { c with sizes := Function.update c.sizes n d }

def writeOptions (c : Cells) (n : Nat) (options : List Value) : Cells :=
  { c with options := Function.update c.options n options }

/-- The cells with a new one for a list. -/
def newOptions (c : Cells) (options : List Value) : Cells :=
  { c.writeOptions c.next options with next := c.next + 1 }

/-- The cells with new ones for all that a kernel refers to. -/
def place (c : Cells) (k : Kernel) : Cells :=
  { ((c.writeSizes c.next k.geometry).writeOptions (c.next + 1) k.macros
      |>.writeOptions (c.next + 2) k.includes
      |>.writeOptions (c.next + 3) k.compilerOptions) with next := c.next + 4 }

end Cells

namespace Handle

/-- The kernel that is read through a handle. -/
def read (c : Cells) (h : Handle) : Kernel where
  interface := h.interface
  parameters := h.parameters
  source := h.source
  geometry := c.sizes h.sizes
  device := h.device
  macros := c.options (h.options .macros)
  includes := c.options (h.options .includes)
  compilerOptions := c.options (h.options .compilerOptions)
  built := h.built

/-- A kernel whose cells start at a number. -/
def place (n : Nat) (k : Kernel) : Handle where
  interface := k.interface
  parameters := k.parameters
  source := k.source
  device := k.device
  built := k.built
  sizes := n
  options
    | .macros => n + 1
    | .includes => n + 2
    | .compilerOptions => n + 3

/-- A kernel with another list. -/
def withOptions (h : Handle) (l : OptionList) (n : Nat) : Handle :=
  { h with options := Function.update h.options l n }

/-- The cells of a kernel. -/
def cells (h : Handle) : List Nat :=
  [h.sizes, h.options .macros, h.options .includes, h.options .compilerOptions]

/-- The cells of a kernel are in use, each for one thing. -/
structure Valid (h : Handle) (c : Cells) : Prop where
  distinct : h.cells.Nodup
  used : ∀ n ∈ h.cells, n < c.next

theorem Valid.mono {h : Handle} {c c' : Cells} (hc : h.Valid c) (hgrows : c.next ≤ c'.next) :
    h.Valid c' :=
  ⟨hc.distinct, fun n hn => Nat.lt_of_lt_of_le (hc.used n hn) hgrows⟩

theorem sizes_mem (h : Handle) : h.sizes ∈ h.cells := List.mem_cons_self

theorem options_mem (h : Handle) (l : OptionList) : h.options l ∈ h.cells := by
  cases l <;> simp [cells]

theorem Valid.options_inj {h : Handle} {c : Cells} (hc : h.Valid c) {l l' : OptionList}
    (heq : h.options l = h.options l') : l = l' := by
  have hdistinct := hc.distinct
  simp only [cells, List.nodup_cons, List.mem_cons, not_or] at hdistinct
  cases l <;> cases l' <;> simp_all

theorem read_optionsIn (h : Handle) (c : Cells) (l : OptionList) :
    (h.read c).optionsIn l = c.options (h.options l) := by
  cases l <;> rfl

/-- A kernel without options. -/
def bare (k : Kernel) : Kernel :=
  { k with macros := [], includes := [], compilerOptions := [] }

/-- Two kernels are the same if their lists are and all the rest is. -/
theorem kernel_ext {k k' : Kernel} (hrest : bare k = bare k')
    (hoptions : ∀ l, k.optionsIn l = k'.optionsIn l) : k = k' := by
  have hmacros := hoptions .macros
  have hincludes := hoptions .includes
  have hothers := hoptions .compilerOptions
  cases k
  cases k'
  simp_all [bare, optionsIn]

theorem optionsIn_withOptions (k : Kernel) (l l' : OptionList) (options : List Value) :
    (k.withOptions l options).optionsIn l' = if l' = l then options else k.optionsIn l' := by
  cases l <;> cases l' <;> rfl

theorem read_writeSizes (h : Handle) (c : Cells) (d : Geometry.Dispatch) :
    h.read (c.writeSizes h.sizes d) = { h.read c with geometry := d } := by
  simp [read, Cells.writeSizes]

theorem read_writeOptions {h : Handle} {c : Cells} (hc : h.Valid c) (l : OptionList)
    (options : List Value) :
    h.read (c.writeOptions (h.options l) options) = (h.read c).withOptions l options := by
  refine kernel_ext (by cases l <;> rfl) ?_
  intro l'
  rw [optionsIn_withOptions, read_optionsIn, read_optionsIn, Cells.writeOptions]
  by_cases heq : l' = l
  · simp [heq]
  · have hne : h.options l' ≠ h.options l := fun hsame => heq (hc.options_inj hsame)
    simp [heq, Function.update_of_ne hne]

theorem read_newOptions {h : Handle} {c : Cells} (hc : h.Valid c) (l : OptionList)
    (options : List Value) :
    (h.withOptions l c.next).read (c.newOptions options) = (h.read c).withOptions l options := by
  refine kernel_ext (by cases l <;> rfl) ?_
  intro l'
  rw [optionsIn_withOptions, read_optionsIn, read_optionsIn]
  simp only [Cells.newOptions, Cells.writeOptions, withOptions]
  by_cases heq : l' = l
  · simp [heq]
  · have hne : h.options l' ≠ c.next := Nat.ne_of_lt (hc.used _ (h.options_mem l'))
    simp [heq, Function.update_of_ne hne]

theorem read_place (c : Cells) (k : Kernel) : (place c.next k).read (c.place k) = k := by
  simp [read, place, Cells.place, Cells.writeSizes, Cells.writeOptions, Function.update]

end Handle

/-- Of the cells in use only some may have changed. -/
structure Spares (c : Cells) (touched : List Nat) (c' : Cells) : Prop where
  grows : c.next ≤ c'.next
  sizes : ∀ n < c.next, n ∉ touched → c'.sizes n = c.sizes n
  options : ∀ n < c.next, n ∉ touched → c'.options n = c.options n

theorem Spares.refl (c : Cells) (touched : List Nat) : Spares c touched c :=
  ⟨Nat.le_refl _, fun _ _ _ => rfl, fun _ _ _ => rfl⟩

/-- A kernel that uses none of these cells is not concerned. -/
theorem Spares.read_other {c c' : Cells} {touched : List Nat} (hspares : Spares c touched c')
    {h : Handle} (hc : h.Valid c) (hother : ∀ n ∈ h.cells, n ∉ touched) :
    h.read c' = h.read c := by
  have hoptions (l : OptionList) : c'.options (h.options l) = c.options (h.options l) :=
    hspares.options _ (hc.used _ (h.options_mem l)) (hother _ (h.options_mem l))
  unfold Handle.read
  rw [hspares.sizes _ (hc.used _ h.sizes_mem) (hother _ h.sizes_mem), hoptions .macros,
    hoptions .includes, hoptions .compilerOptions]

/-- A kernel comes about whose cells are some that were in use, or new. -/
structure Local (c : Cells) (touched : List Nat) (c' : Cells) (h : Handle) : Prop
    extends Spares c touched c' where
  valid : h.Valid c'
  own : ∀ n ∈ h.cells, n ∈ touched ∨ c.next ≤ n

namespace Local

variable {c c' c'' : Cells} {before : List Nat} {h h' : Handle}

theorem refl (hc : h.Valid c) : Local c h.cells c h where
  toSpares := .refl c h.cells
  valid := hc
  own _ hn := .inl hn

/-- What goes on at a kernel that has just come about concerns no more than that did. -/
theorem spares_trans (hfirst : Local c before c' h) (hnext : Spares c' h.cells c'') :
    Spares c before c'' := by
  have hother {n : Nat} (hn : n < c.next) (hbefore : n ∉ before) : n ∉ h.cells := by
    intro hmem
    rcases hfirst.own n hmem with hold | hnew
    · exact hbefore hold
    · omega
  refine ⟨Nat.le_trans hfirst.grows hnext.grows, ?_, ?_⟩
  · intro n hn hbefore
    rw [hnext.sizes n (Nat.lt_of_lt_of_le hn hfirst.grows) (hother hn hbefore)]
    exact hfirst.sizes n hn hbefore
  · intro n hn hbefore
    rw [hnext.options n (Nat.lt_of_lt_of_le hn hfirst.grows) (hother hn hbefore)]
    exact hfirst.options n hn hbefore

theorem trans (hfirst : Local c before c' h) (hnext : Local c' h.cells c'' h') :
    Local c before c'' h' where
  toSpares := hfirst.spares_trans hnext.toSpares
  valid := hnext.valid
  own := by
    intro n hn
    rcases hnext.own n hn with hold | hnew
    · exact hfirst.own n hold
    · exact .inr (Nat.le_trans hfirst.grows hnew)

/-- Whatever refers to the same cells. -/
theorem congr (hlocal : Local c before c' h) (hcells : h'.cells = h.cells) :
    Local c before c' h' where
  toSpares := hlocal.toSpares
  valid := ⟨hcells ▸ hlocal.valid.distinct, hcells ▸ hlocal.valid.used⟩
  own := hcells ▸ hlocal.own

theorem writeSizes (hc : h.Valid c) (d : Geometry.Dispatch) :
    Local c h.cells (c.writeSizes h.sizes d) h where
  valid := ⟨hc.distinct, hc.used⟩
  grows := Nat.le_refl _
  own _ hn := .inl hn
  sizes n _ hn := Function.update_of_ne (fun heq : n = h.sizes => hn (heq ▸ h.sizes_mem)) _ _
  options _ _ _ := rfl

theorem writeOptions (hc : h.Valid c) (l : OptionList) (options : List Value) :
    Local c h.cells (c.writeOptions (h.options l) options) h where
  valid := ⟨hc.distinct, hc.used⟩
  grows := Nat.le_refl _
  own _ hn := .inl hn
  sizes _ _ _ := rfl
  options n _ hn :=
    Function.update_of_ne (fun heq : n = h.options l => hn (heq ▸ h.options_mem l)) _ _

theorem newOptions (hc : h.Valid c) (l : OptionList) (options : List Value) :
    Local c h.cells (c.newOptions options) (h.withOptions l c.next) := by
  have hnext : c.next ∉ h.cells := fun hmem => Nat.lt_irrefl _ (hc.used _ hmem)
  have hown : ∀ n ∈ (h.withOptions l c.next).cells, n ∈ h.cells ∨ n = c.next := by
    intro n hn
    cases l <;> simp_all [Handle.cells, Handle.withOptions] <;> tauto
  refine ⟨⟨Nat.le_succ _, fun _ _ _ => rfl, ?_⟩, ⟨?_, ?_⟩, ?_⟩
  · intro n hn _
    exact Function.update_of_ne (Nat.ne_of_lt hn) _ _
  · have hdistinct := hc.distinct
    cases l <;> simp_all [Handle.cells, Handle.withOptions] <;> tauto
  · intro n hn
    rcases hown n hn with hold | rfl
    · exact Nat.lt_succ_of_lt (hc.used n hold)
    · exact Nat.lt_succ_self _
  · intro n hn
    rcases hown n hn with hold | rfl
    · exact .inl hold
    · exact .inr (Nat.le_refl _)

/-- A kernel that is put into new cells concerns no others. -/
theorem place (c : Cells) (k : Kernel) : Local c [] (c.place k) (Handle.place c.next k) := by
  have hcells : (Handle.place c.next k).cells = [c.next, c.next + 1, c.next + 2, c.next + 3] := rfl
  have hnext : (c.place k).next = c.next + 4 := rfl
  refine ⟨⟨by omega, ?_, ?_⟩, ⟨?_, ?_⟩, ?_⟩
  · intro n hn _
    exact Function.update_of_ne (Nat.ne_of_lt hn) _ _
  · intro n hn _
    simp only [Cells.place, Cells.writeOptions, Cells.writeSizes]
    rw [Function.update_of_ne (by omega), Function.update_of_ne (by omega),
      Function.update_of_ne (by omega)]
  · simp [hcells]
  · intro n hn
    simp only [hcells, List.mem_cons, List.not_mem_nil, or_false] at hn
    omega
  · intro n hn
    simp only [hcells, List.mem_cons, List.not_mem_nil, or_false] at hn
    omega

end Local

/-- What an assignment leaves. -/
structure Assigning where
  outcome : Except Failure Handle
  cells : Cells
  directory : Directory

namespace Handle

/-- Assigns to a setting: sizes are changed in place, a list is replaced by a new one. -/
def assign (platforms : Platforms) (h : Handle) (c : Cells) (d : Directory) (s : Setting)
    (a : Assigned) : Assigning :=
  match s, a with
  | .size f, .value v =>
      match (c.sizes h.sizes).set f v with
      | .ok sizes => ⟨.ok h, c.writeSizes h.sizes sizes, d⟩
      | .error e => ⟨.error e, c, d⟩
  | .device, a =>
      let (device, d) := Steps.perform (assignedDevice platforms a) d
      ⟨device.map fun device => { h with device }, c, d⟩
  | .options l, .value v =>
      match v.asList with
      | .ok options => ⟨.ok (h.withOptions l c.next), c.newOptions options, d⟩
      | .error e => ⟨.error e, c, d⟩
  | _, .device _ => ⟨.error .wrongKind, c, d⟩

/-- Assigns to several settings, each by its name, until one assignment fails. -/
def assignAll (platforms : Platforms) (h : Handle) (c : Cells) (d : Directory) :
    List (String × Assigned) → Assigning
  | [] => ⟨.ok h, c, d⟩
  | (field, a) :: rest =>
      match Setting.ofName? field with
      | none => ⟨.error (.fixedField field), c, d⟩
      | some s =>
          let assigned := h.assign platforms c d s a
          match assigned.outcome with
          | .ok h => h.assignAll platforms assigned.cells assigned.directory rest
          | .error _ => assigned

end Handle

/-- Assignments to a kernel as an object come to those to the kernel that is read, and concern
no cells but its own. -/
structure Assigning.Reads (x : Query Kernel) (c : Cells) (d : Directory) (touched : List Nat)
    (after : Assigning) : Prop where
  reads : Steps.perform x d = (after.outcome.map (·.read after.cells), after.directory)
  spares : Spares c touched after.cells
  stays : ∀ h, after.outcome = .ok h → Local c touched after.cells h

namespace Assigning.Reads

variable {x : Query Kernel} {c : Cells} {d d' : Directory} {touched : List Nat}

theorem failed {e : Failure} (hx : Steps.perform x d = (.error e, d')) :
    Reads x c d touched ⟨.error e, c, d'⟩ := by
  refine ⟨hx, .refl c touched, ?_⟩
  intro h heq
  cases heq

theorem succeeded {h : Handle} {c' : Cells} (hx : Steps.perform x d = (.ok (h.read c'), d'))
    (hlocal : Local c touched c' h) : Reads x c d touched ⟨.ok h, c', d'⟩ := by
  refine ⟨hx, hlocal.toSpares, ?_⟩
  intro h' heq
  cases heq
  exact hlocal

end Assigning.Reads

theorem Kernel.set_device (platforms : Platforms) (k : Kernel) (a : Assigned) :
    k.set platforms .device a = (fun device => { k with device }) <$> assignedDevice platforms a := by
  cases a <;> rfl

namespace Handle

variable {h : Handle} {c : Cells}

theorem assign_reads (platforms : Platforms) (hc : h.Valid c) (d : Directory) (s : Setting)
    (a : Assigned) :
    (h.assign platforms c d s a).Reads ((h.read c).set platforms s a) c d h.cells := by
  cases s with
  | size f =>
      cases a with
      | device => exact .failed rfl
      | value v =>
          unfold assign Kernel.set
          have hread : (h.read c).geometry = c.sizes h.sizes := rfl
          simp only [hread]
          cases hset : (c.sizes h.sizes).set f v with
          | error e => exact .failed rfl
          | ok sizes =>
              refine .succeeded ?_ (.writeSizes hc sizes)
              rw [read_writeSizes]
              rfl
  | device =>
      have hassign : h.assign platforms c d .device a =
          ⟨(Steps.perform (assignedDevice platforms a) d).1.map fun device => { h with device }, c,
            (Steps.perform (assignedDevice platforms a) d).2⟩ := by
        cases a <;> rfl
      rw [Kernel.set_device, hassign]
      cases hdevice : Steps.perform (assignedDevice platforms a) d with
      | mk outcome after =>
          cases outcome with
          | error e =>
              refine .failed ?_
              rw [Steps.perform_map, hdevice]
              rfl
          | ok device =>
              refine .succeeded ?_ (Local.congr (.refl hc) rfl)
              rw [Steps.perform_map, hdevice]
              rfl
  | options l =>
      cases a with
      | device => exact .failed rfl
      | value v =>
          unfold assign Kernel.set
          dsimp only
          cases hlist : v.asList with
          | error e => exact .failed rfl
          | ok options =>
              refine .succeeded ?_ (.newOptions hc l options)
              rw [read_newOptions hc]
              rfl

/-- An assignment that fails writes nothing. -/
theorem assign_error {platforms : Platforms} {d : Directory} {s : Setting} {a : Assigned}
    {e : Failure} (herror : (h.assign platforms c d s a).outcome = .error e) :
    (h.assign platforms c d s a).cells = c := by
  unfold assign at herror ⊢
  split
  · split
    · next hset =>
      simp only [hset] at herror
      cases herror
    · rfl
  · rfl
  · split
    · next hlist =>
      simp only [hlist] at herror
      cases herror
    · rfl
  · rfl

/-- The assignment to one setting of a copy, by its name. -/
def assignField (platforms : Platforms) (k : Kernel) (entry : String × Assigned) :
    Query Kernel :=
  match Setting.ofName? entry.1 with
  | some s => k.set platforms s entry.2
  | none => throw (.fixedField entry.1)

theorem assignAll_reads (platforms : Platforms) (fields : List (String × Assigned))
    (hc : h.Valid c) (d : Directory) :
    (h.assignAll platforms c d fields).Reads (fields.foldlM (assignField platforms) (h.read c))
      c d h.cells := by
  induction fields generalizing h c d with
  | nil => exact .succeeded rfl (.refl hc)
  | cons entry rest ih =>
      obtain ⟨field, a⟩ := entry
      cases hfield : Setting.ofName? field with
      | none =>
          simp only [assignAll, List.foldlM_cons, assignField, hfield]
          exact .failed rfl
      | some s =>
          have hfirst := assign_reads platforms hc d s a
          have hentry : assignField platforms (h.read c) (field, a) =
              (h.read c).set platforms s a := by simp only [assignField, hfield]
          simp only [assignAll, hfield]
          cases hassigned : (h.assign platforms c d s a).outcome with
          | error e =>
              refine ⟨?_, hfirst.spares, hfirst.stays⟩
              rw [List.foldlM_cons, hentry, Steps.perform_bind, hfirst.reads, hassigned]
              rfl
          | ok h' =>
              have hlocal := hfirst.stays h' hassigned
              have hrest := ih hlocal.valid (h.assign platforms c d s a).directory
              refine ⟨?_, hlocal.spares_trans hrest.spares, ?_⟩
              · rw [List.foldlM_cons, hentry, Steps.perform_bind, hfirst.reads, hassigned]
                exact hrest.reads
              · intro h'' heq
                exact hlocal.trans (hrest.stays h'' heq)

/-- A copy with settings assigned in order: a kernel with cells of its own. -/
def withChanges (platforms : Platforms) (h : Handle) (c : Cells) (d : Directory)
    (fields : List (String × Assigned)) : Assigning :=
  (place c.next (h.read c)).assignAll platforms (c.place (h.read c)) d (distinct fields)

/-- A copy concerns no cells in use. -/
theorem withChanges_reads (platforms : Platforms) (h : Handle) (c : Cells) (d : Directory)
    (fields : List (String × Assigned)) :
    (h.withChanges platforms c d fields).Reads ((h.read c).withChanges platforms fields) c d
      [] := by
  have hplaced := Local.place c (h.read c)
  have hassigned := assignAll_reads platforms (distinct fields) hplaced.valid d
  rw [read_place] at hassigned
  refine ⟨hassigned.reads, hplaced.spares_trans hassigned.spares, ?_⟩
  intro h' heq
  exact hplaced.trans (hassigned.stays h' heq)

end Handle

end KernelLaunch
