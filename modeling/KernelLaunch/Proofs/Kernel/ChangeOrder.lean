import KernelLaunch.Proofs.Device.Queries
import KernelLaunch.Proofs.Geometry.Commuting
import KernelLaunch.Proofs.Kernel.Handles
import KernelLaunch.Proofs.Kernel.Rebuilding
import Mathlib.Data.List.Nodup

/-!
Order independence of `withChanges`. Two setting assignments commute unless one is a global
size and the other a block or grid size, so a copy is the same for every order that keeps
the global size in place among these two. On failure or success, the copy shares no mutable
state with the original, which stays as it was.
-/

namespace KernelLaunch.Kernel

open Host Device Directory Geometry

/-- The name of a setting. -/
def Setting.name : Setting → String
  | .size .block => "thread_block_size"
  | .size .grid => "grid_size"
  | .size .global => "global_size"
  | .size .offset => "global_offset"
  | .device => "device"
  | .options .macros => "macros"
  | .options .includes => "includes"
  | .options .compilerOptions => "compiler_options"

/-- The effect of a successful setting assignment on a kernel and on the directory. -/
inductive Writes (platforms : Platforms) (d : Directory) :
    Setting → Assigned → (Kernel → Kernel) → Directory → Prop where
  | size {f : Field} {v : Value} {g : Dispatch → Dispatch} (rewrites : Dispatch.Rewrites v f g) :
      Writes platforms d (.size f) (.value v) (fun k => { k with geometry := g k.geometry }) d
  | device {a : Assigned} {device : Option Device} {d' : Directory}
      (assigned : Steps.perform (assignedDevice platforms a) d = (.ok device, d')) :
      Writes platforms d .device a (fun k => { k with device }) d'
  | options {l : OptionList} {v : Value} {options : List Value} (given : v.asList = .ok options) :
      Writes platforms d (.options l) (.value v) (·.withOptions l options) d

/-- Two settings that can be assigned in either order. -/
structure Setting.Apart (s s' : Setting) : Prop where
  different : s ≠ s'
  sizes : ∀ f f', s = .size f → s' = .size f' → f.Apart f'

section Assignments

variable {platforms : Platforms} {d d' d'' : Directory} {k k' : Kernel} {s s' : Setting}
  {a a' : Assigned} {write write' : Kernel → Kernel}

theorem set_size (f : Field) (v : Value) : k.set platforms (.size f) (.value v) =
    (fun geometry => { k with geometry }) <$> (liftM (k.geometry.set f v) : Query Dispatch) := rfl

theorem set_options (l : OptionList) (v : Value) : k.set platforms (.options l) (.value v) =
    k.withOptions l <$> (liftM v.asList : Query (List Value)) := rfl

theorem set_ok_iff : Steps.perform (k.set platforms s a) d = (.ok k', d') ↔
    ∃ write, Writes platforms d s a write d' ∧ k' = write k := by
  constructor
  · intro h
    cases s with
    | size f =>
        cases a with
        | device => cases h
        | value v =>
            rw [set_size, Steps.perform_map_ok_iff] at h
            obtain ⟨geometry, hset, rfl⟩ := h
            obtain ⟨haccepted, rfl⟩ := Prod.mk.inj hset
            obtain ⟨g, hrewrites, rfl⟩ := Dispatch.set_ok_iff.mp haccepted
            exact ⟨_, .size hrewrites, rfl⟩
    | device =>
        rw [set_device, Steps.perform_map_ok_iff] at h
        obtain ⟨device, hassigned, rfl⟩ := h
        exact ⟨_, .device hassigned, rfl⟩
    | options l =>
        cases a with
        | device => cases h
        | value v =>
            rw [set_options, Steps.perform_map_ok_iff] at h
            obtain ⟨options, hlist, rfl⟩ := h
            obtain ⟨hgiven, rfl⟩ := Prod.mk.inj hlist
            exact ⟨_, .options hgiven, rfl⟩
  · rintro ⟨write, hwrites, rfl⟩
    cases hwrites with
    | size rewrites =>
        have hset := (Dispatch.set_ok_iff (d := k.geometry)).mpr ⟨_, rewrites, rfl⟩
        rw [set_size, Steps.perform_map_ok_iff]
        exact ⟨_, congrArg (·, d) hset, rfl⟩
    | device assigned =>
        rw [set_device, Steps.perform_map_ok_iff]
        exact ⟨_, assigned, rfl⟩
    | options given =>
        rw [set_options, Steps.perform_map_ok_iff]
        exact ⟨_, congrArg (·, d) given, rfl⟩

theorem withOptions_comm {l l' : OptionList} (h : l ≠ l') (options options' : List Value) :
    (k.withOptions l options).withOptions l' options' =
      (k.withOptions l' options').withOptions l options := by
  cases l <;> cases l' <;> first | rfl | exact absurd rfl h

/-- Two assignments, one after the other, come to the same the other way round. -/
theorem Writes.commute (h : Writes platforms d s a write d')
    (h' : Writes platforms d' s' a' write' d'') (hapart : s.Apart s') :
    ∃ between, Writes platforms d s' a' write' between ∧
      Writes platforms between s a write d'' ∧ ∀ k, write' (write k) = write (write' k) := by
  cases h with
  | size rewrites =>
      cases h' with
      | size rewrites' =>
          refine ⟨d, .size rewrites', .size rewrites, fun k => ?_⟩
          dsimp only
          rw [rewrites.commute rewrites' (hapart.sizes _ _ rfl rfl)]
      | device assigned => exact ⟨_, .device assigned, .size rewrites, fun k => rfl⟩
      | @options l _ _ given =>
          exact ⟨_, .options given, .size rewrites, fun k => by cases l <;> rfl⟩
  | device assigned =>
      cases h' with
      | size rewrites => exact ⟨_, .size rewrites, .device assigned, fun k => rfl⟩
      | device => exact absurd rfl hapart.different
      | @options l _ _ given =>
          exact ⟨_, .options given, .device assigned, fun k => by cases l <;> rfl⟩
  | @options l _ _ given =>
      cases h' with
      | size rewrites => exact ⟨_, .size rewrites, .options given, fun k => by cases l <;> rfl⟩
      | device assigned =>
          exact ⟨_, .device assigned, .options given, fun k => by cases l <;> rfl⟩
      | @options l' _ _ given' =>
          have hne : l ≠ l' := fun heq => hapart.different (congrArg Setting.options heq)
          exact ⟨_, .options given', .options given, fun k => withOptions_comm hne _ _⟩

end Assignments

/-- Assignments by name that succeed, in order. -/
def Leads (platforms : Platforms) (k : Kernel) (d : Directory)
    (fields : List (String × Assigned)) (k' : Kernel) (d' : Directory) : Prop :=
  Steps.perform (fields.foldlM (Handle.assignField platforms) k) d = (.ok k', d')

/-- Two assignments by name that can be swapped, if both names are those of settings. -/
def Swappable (e e' : String × Assigned) : Prop :=
  ∀ s s', Setting.ofName? e.1 = some s → Setting.ofName? e'.1 = some s' → s.Apart s'

section Orders

variable {platforms : Platforms} {k k' : Kernel} {d d' : Directory} {e e' : String × Assigned}
  {fields fields' rest : List (String × Assigned)}

theorem leads_cons_iff : Leads platforms k d (e :: rest) k' d' ↔
    ∃ s write between, Setting.ofName? e.1 = some s ∧ Writes platforms d s e.2 write between ∧
      Leads platforms (write k) between rest k' d' := by
  have hfirst (k₁ : Kernel) (between : Directory) :
      Steps.perform (Handle.assignField platforms k e) d = (.ok k₁, between) ↔
        ∃ s write, Setting.ofName? e.1 = some s ∧ Writes platforms d s e.2 write between ∧
          k₁ = write k := by
    unfold Handle.assignField
    cases hname : Setting.ofName? e.1 with
    | none => simp
    | some s => simp [set_ok_iff]
  unfold Leads
  rw [List.foldlM_cons, Steps.perform_bind]
  constructor
  · intro h
    rcases hassign : Steps.perform (Handle.assignField platforms k e) d with ⟨e' | k₁, between⟩
    · rw [hassign] at h
      cases h
    · rw [hassign] at h
      obtain ⟨s, write, hname, hwrites, rfl⟩ := (hfirst _ _).mp hassign
      exact ⟨s, write, between, hname, hwrites, h⟩
  · rintro ⟨s, write, between, hname, hwrites, h⟩
    rw [(hfirst _ _).mpr ⟨s, write, hname, hwrites, rfl⟩]
    exact h

theorem leads_swap (hswap : Swappable e e') (h : Leads platforms k d (e :: e' :: rest) k' d') :
    Leads platforms k d (e' :: e :: rest) k' d' := by
  obtain ⟨s, write, between, hname, hwrites, h⟩ := leads_cons_iff.mp h
  obtain ⟨s', write', after, hname', hwrites', h⟩ := leads_cons_iff.mp h
  obtain ⟨between', hfirst, hsecond, hsame⟩ := hwrites.commute hwrites' (hswap s s' hname hname')
  rw [hsame] at h
  exact leads_cons_iff.mpr ⟨s', write', between', hname', hfirst,
    leads_cons_iff.mpr ⟨s, write, after, hname, hsecond, h⟩⟩

/-- An assignment can be put off until others have been made. -/
theorem leads_later {before : List (String × Assigned)} (hswap : ∀ e' ∈ before, Swappable e e')
    (h : Leads platforms k d (e :: (before ++ rest)) k' d') :
    Leads platforms k d (before ++ e :: rest) k' d' := by
  induction before generalizing k d with
  | nil => exact h
  | cons e' before ih =>
      obtain ⟨s, write, between, hname, hwrites, h⟩ :=
        leads_cons_iff.mp (leads_swap (hswap e' List.mem_cons_self) h)
      exact leads_cons_iff.mpr ⟨s, write, between, hname, hwrites,
        ih (fun e'' hmem => hswap e'' (List.mem_cons_of_mem e' hmem)) h⟩

/-- Whether an assignment is to one of two names. -/
def isTo (name name' : String) (e : String × Assigned) : Bool := e.1 == name || e.1 == name'

/-- A permutation of assignments that keeps the global size in order with the block size and
with the grid size. -/
structure Reorders (fields fields' : List (String × Assigned)) : Prop where
  perm : fields.Perm fields'
  distinct : (fields.map Prod.fst).Nodup
  kept : ∀ other ∈ ["thread_block_size", "grid_size"],
    fields.filter (isTo "global_size" other) = fields'.filter (isTo "global_size" other)

/-- With distinct names, what stands before an assignment is to other ones. -/
theorem name_not_before {before : List (String × Assigned)}
    (hdistinct : ((before ++ e :: rest).map Prod.fst).Nodup) : e.1 ∉ before.map Prod.fst := by
  simp only [List.map_append, List.map_cons, List.nodup_middle, List.nodup_cons,
    List.mem_append, not_or] at hdistinct
  exact hdistinct.1.1

/-- What stands first in one order has nothing before it in the other that is kept in place. -/
theorem not_kept_before {before : List (String × Assigned)} {p : String × Assigned → Bool}
    (hdistinct : ((before ++ e :: rest).map Prod.fst).Nodup)
    (hkept : (e :: fields).filter p = (before ++ e :: rest).filter p) (he : p e = true) :
    ∀ e' ∈ before, p e' = false := by
  have hother : e ∉ before := fun hmem => name_not_before hdistinct (List.mem_map_of_mem hmem)
  have hnone : before.filter p = [] := by
    cases hbefore : before.filter p with
    | nil => rfl
    | cons first others =>
        rw [List.filter_cons_of_pos he, List.filter_append, hbefore] at hkept
        have hfirst : e = first := (List.cons.inj hkept).1
        have hmem : first ∈ before.filter p := by
          rw [hbefore]
          exact List.mem_cons_self
        exact absurd (List.mem_of_mem_filter (hfirst ▸ hmem)) hother
  intro e' he'
  simpa using List.filter_eq_nil_iff.mp hnone e' he'

theorem name_of_ofName? {name : String} {s : Setting} (h : Setting.ofName? name = some s) :
    name = s.name := by
  unfold Setting.ofName? at h
  split at h <;> cases h <;> rfl

/-- A global size, and a size that it is fitted to or sets, are kept in place. -/
theorem kept_of_fits {f f' : Field} (h : f.Fits f') (he : Setting.ofName? e.1 = some (.size f))
    (he' : Setting.ofName? e'.1 = some (.size f')) :
    ∃ other ∈ ["thread_block_size", "grid_size"],
      isTo "global_size" other e = true ∧ isTo "global_size" other e' = true := by
  have hname := name_of_ofName? he
  have hname' := name_of_ofName? he'
  cases f with
  | global =>
      refine ⟨e'.1, ?_, by simp [isTo, hname, Setting.name], by simp [isTo]⟩
      rcases h with rfl | rfl <;> simp [hname', Setting.name]
  | _ => exact h.elim

/-- An assignment can be swapped with what has come to stand before it. -/
theorem Reorders.swappable {before : List (String × Assigned)}
    (h : Reorders (e :: fields) (before ++ e :: rest)) : ∀ e' ∈ before, Swappable e e' := by
  have hdistinct : ((before ++ e :: rest).map Prod.fst).Nodup :=
    (h.perm.map Prod.fst).nodup_iff.mp h.distinct
  intro e' he' s s' hname hname'
  have hne : s ≠ s' := by
    rintro rfl
    apply name_not_before hdistinct
    rw [name_of_ofName? hname, ← name_of_ofName? hname']
    exact List.mem_map_of_mem he'
  have hfree (other : String) (hother : other ∈ ["thread_block_size", "grid_size"])
      (hto : isTo "global_size" other e = true) (hto' : isTo "global_size" other e' = true) :
      False := by
    have hnone := not_kept_before hdistinct (h.kept other hother) hto e' he'
    rw [hto'] at hnone
    cases hnone
  refine ⟨hne, ?_⟩
  rintro f f' rfl rfl
  constructor
  case different => exact fun heq => hne (congrArg Setting.size heq)
  case forth =>
    intro hfits
    obtain ⟨other, hother, hto, hto'⟩ := kept_of_fits hfits hname hname'
    exact hfree other hother hto hto'
  case back =>
    intro hfits
    obtain ⟨other, hother, hto', hto⟩ := kept_of_fits hfits hname' hname
    exact hfree other hother hto hto'

theorem Reorders.tail {before : List (String × Assigned)}
    (h : Reorders (e :: fields) (before ++ e :: rest)) : Reorders fields (before ++ rest) := by
  have hdistinct : ((before ++ e :: rest).map Prod.fst).Nodup :=
    (h.perm.map Prod.fst).nodup_iff.mp h.distinct
  constructor
  case perm => exact List.perm_cons e |>.mp (h.perm.trans List.perm_middle)
  case distinct => exact (List.nodup_cons.mp h.distinct).2
  case kept =>
    intro other hother
    have hkept := h.kept other hother
    cases hto : isTo "global_size" other e with
    | false =>
        have hskip : ¬ isTo "global_size" other e = true := by simp [hto]
        rw [List.filter_cons_of_neg hskip, List.filter_append, List.filter_cons_of_neg hskip,
          ← List.filter_append] at hkept
        exact hkept
    | true =>
        have hnone : before.filter (isTo "global_size" other) = [] :=
          List.filter_eq_nil_iff.mpr fun e' he' => by
            simp [not_kept_before hdistinct hkept hto e' he']
        rw [List.filter_cons_of_pos hto, List.filter_append, List.filter_cons_of_pos hto, hnone,
          List.nil_append] at hkept
        rw [List.filter_append, hnone, List.nil_append]
        exact (List.cons.inj hkept).2

/-- Assignments that succeed do the same in another order. -/
theorem leads_reordered (h : Reorders fields fields') (hleads : Leads platforms k d fields k' d') :
    Leads platforms k d fields' k' d' := by
  -- what stands first is made first, and then put off until what stands before it elsewhere
  induction fields generalizing fields' k d with
  | nil =>
      rw [← h.perm.nil_eq]
      exact hleads
  | cons e fields ih =>
      obtain ⟨before, rest, rfl⟩ := List.append_of_mem (h.perm.subset List.mem_cons_self)
      obtain ⟨s, write, between, hname, hwrites, htail⟩ := leads_cons_iff.mp hleads
      have hfirst : Leads platforms k d (e :: (before ++ rest)) k' d' :=
        leads_cons_iff.mpr ⟨s, write, between, hname, hwrites, ih h.tail htail⟩
      exact leads_later h.swappable hfirst

theorem eraseDups_of_nodup {names : List String} (h : names.Nodup) : names.eraseDups = names := by
  induction names with
  | nil => rfl
  | cons name rest ih =>
      obtain ⟨hnew, hrest⟩ := List.nodup_cons.mp h
      have hkept : rest.filter (fun other => !other == name) = rest :=
        List.filter_eq_self.mpr fun other hmem => by
          simpa using fun heq : other = name => hnew (heq ▸ hmem)
      rw [List.eraseDups_cons, hkept, ih hrest]

/-- Of assignments to different names all count. -/
theorem distinct_of_nodup (h : (fields.map Prod.fst).Nodup) : distinct fields = fields := by
  have hfind (e : String × Assigned) (he : e ∈ fields) :
      fields.reverse.find? (·.1 == e.1) = some e := by
    cases hfound : fields.reverse.find? (·.1 == e.1) with
    | none =>
        have hno := List.find?_eq_none.mp hfound e (List.mem_reverse.mpr he)
        simp at hno
    | some e' =>
        have hmem : e' ∈ fields := List.mem_reverse.mp (List.mem_of_find?_eq_some hfound)
        have hname : e'.1 = e.1 := by simpa using List.find?_some hfound
        rw [List.inj_on_of_nodup_map h hmem he hname]
  unfold distinct
  dsimp only
  rw [eraseDups_of_nodup h, List.filterMap_map]
  exact (List.filterMap_congr hfind).trans List.filterMap_some

/-- A copy with changes does not depend on their order, as far as it is a reordering. -/
theorem withChanges_reordered (h : Reorders fields fields')
    (hchanges : Steps.perform (k.withChanges platforms fields) d = (.ok k', d')) :
    Steps.perform (k.withChanges platforms fields') d = (.ok k', d') := by
  have hdistinct' : (fields'.map Prod.fst).Nodup :=
    (h.perm.map Prod.fst).nodup_iff.mp h.distinct
  have hleads : Leads platforms k d (distinct fields) k' d' := hchanges
  rw [distinct_of_nodup h.distinct] at hleads
  have hreordered := leads_reordered h hleads
  rw [← distinct_of_nodup hdistinct'] at hreordered
  exact hreordered

end Orders

/-- The guarantees of `withChanges` for a kernel handle. -/
structure CopiesApart (platforms : Platforms) (h : Handle) (c : Cells) : Prop where
  /-- Outcome and directory are those of the changes to the kernel as it is read. -/
  reads : ∀ d fields, Steps.perform ((h.read c).withChanges platforms fields) d =
    ((h.withChanges platforms c d fields).outcome.map
      (·.read (h.withChanges platforms c d fields).cells),
    (h.withChanges platforms c d fields).directory)
  /-- If the changes succeed, they do the same in any order that keeps the place of a global size
  before or after the block and the grid size. -/
  reordered : ∀ d fields fields' copy, Reorders fields fields' →
    (h.withChanges platforms c d fields).outcome = .ok copy →
    ∃ copy', (h.withChanges platforms c d fields').outcome = .ok copy' ∧
      copy'.read (h.withChanges platforms c d fields').cells =
        copy.read (h.withChanges platforms c d fields).cells
  /-- The original is as before, also when a change fails after others were made. -/
  untouched : ∀ d fields, h.read (h.withChanges platforms c d fields).cells = h.read c
  /-- The copy has no cells in common with the original. -/
  apart : ∀ d fields copy, (h.withChanges platforms c d fields).outcome = .ok copy →
    ∀ n ∈ copy.cells, n ∉ h.cells

/-- `withChanges` is order-independent but for the place of a global size, and never writes to
the cells of the original, on success or failure. -/
theorem withChanges_copiesApart (platforms : Platforms) {h : Handle} {c : Cells}
    (hc : h.Valid c) : CopiesApart platforms h c where
  reads d fields := (h.withChanges_reads platforms c d fields).reads
  reordered := by
    intro d fields fields' copy hreorders hcopy
    have hreads := (h.withChanges_reads platforms c d fields).reads
    rw [hcopy] at hreads
    have hreads' := withChanges_reordered hreorders hreads
    rw [(h.withChanges_reads platforms c d fields').reads] at hreads'
    have houtcome := congrArg Prod.fst hreads'
    dsimp only at houtcome
    cases hcopy' : (h.withChanges platforms c d fields').outcome with
    | error e =>
        rw [hcopy'] at houtcome
        cases houtcome
    | ok copy' =>
        rw [hcopy'] at houtcome
        exact ⟨copy', rfl, Except.ok.inj houtcome⟩
  untouched d fields :=
    (h.withChanges_reads platforms c d fields).spares.read_other hc fun _ _ => List.not_mem_nil
  apart := by
    intro d fields copy hcopy n hn hold
    rcases ((h.withChanges_reads platforms c d fields).stays copy hcopy).own n hn with hmem | hnew
    · cases hmem
    · exact absurd (hc.used n hold) (Nat.not_lt.mpr hnew)

/-- A kernel in cells of its own. -/
def sampleHandle : Handle := .place 0 Life.sample.kernel

def sampleCells : Cells := Cells.empty.place Life.sample.kernel

/-- A block size before a global size, and macros. -/
def sampleChanges : List (String × Assigned) :=
  [("macros", .value (.text "N")), ("thread_block_size", .value (.int 32)),
    ("global_size", .value (.int 96))]

/-- The macros may as well come last. -/
def sampleReordered : List (String × Assigned) :=
  [("thread_block_size", .value (.int 32)), ("global_size", .value (.int 96)),
    ("macros", .value (.text "N"))]

theorem sampleReordered_reorders : Reorders sampleChanges sampleReordered where
  perm := (List.perm_append_comm : ([_] ++ [_, _]).Perm ([_, _] ++ [_]))
  distinct := by decide
  kept := by
    intro other hother
    simp only [List.mem_cons, List.not_mem_nil, or_false] at hother
    rcases hother with rfl | rfl <;> rfl

theorem sample_copiesApart :
    sampleHandle.Valid sampleCells ∧ CopiesApart (.ok []) sampleHandle sampleCells ∧
      ∃ copy copy',
        (sampleHandle.withChanges (.ok []) sampleCells (.initial {}) sampleChanges).outcome =
          .ok copy ∧
        (sampleHandle.withChanges (.ok []) sampleCells (.initial {}) sampleReordered).outcome =
          .ok copy' ∧
        copy'.read
            (sampleHandle.withChanges (.ok []) sampleCells (.initial {}) sampleReordered).cells =
          copy.read
            (sampleHandle.withChanges (.ok []) sampleCells (.initial {}) sampleChanges).cells := by
  have hvalid : sampleHandle.Valid sampleCells := (Local.place Cells.empty _).valid
  have hcopies := withChanges_copiesApart (.ok []) hvalid
  have hsucceeds : (sampleHandle.withChanges (.ok []) sampleCells (.initial {})
      sampleChanges).outcome.toOption.isSome = true := by decide +kernel
  obtain ⟨copy, hcopy⟩ := Steps.exists_ok_of_isSome hsucceeds
  obtain ⟨copy', hcopy', hsame⟩ := hcopies.reordered _ _ _ _ sampleReordered_reorders hcopy
  exact ⟨hvalid, hcopies, copy, copy', hcopy, hcopy', hsame⟩

end KernelLaunch.Kernel
