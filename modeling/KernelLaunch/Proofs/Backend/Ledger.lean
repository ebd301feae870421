import KernelLaunch.Proofs.Backend.Programs

/-!
Which program a launch runs, read off the record of exchanges. The program table is keyed by
device index and kernel name, without regard to source and options, so a launch runs the
program built last, by whichever kernel, among those with a kernel of that name.
-/

namespace KernelLaunch

open Host Backend

/-- Whether a compilation has found a kernel of a name for a device of an index. -/
def Compilation.holds (c : Compilation) (index : Int) (name : String) : Bool :=
  c.request.device.index == index && c.names.contains name

theorem Compilation.holds_iff {c : Compilation} {index : Int} {name : String} :
    c.holds index name = true ↔ c.request.device.index = index ∧ name ∈ c.names := by
  simp [Compilation.holds]

/-- The compilations that went well. -/
def compilationsOf (record : List Exchange) : List Compilation :=
  record.filterMap Exchange.compilation?

/-- The last compilation that has found a kernel of a name for a device of an
index. -/
def latest? (record : List Exchange) (index : Int) (name : String) : Option Compilation :=
  (compilationsOf record).reverse.find? (·.holds index name)

section Record

variable {record past future : List Exchange} {e present : Exchange}

theorem compilationsOf_snoc_none (h : e.compilation? = none) :
    compilationsOf (record ++ [e]) = compilationsOf record := by
  simp [compilationsOf, h]

theorem compilationsOf_snoc_some {c : Compilation} (h : e.compilation? = some c) :
    compilationsOf (record ++ [e]) = compilationsOf record ++ [c] := by
  simp [compilationsOf, h]

theorem latest?_snoc_none (h : e.compilation? = none) (index : Int) (name : String) :
    latest? (record ++ [e]) index name = latest? record index name := by
  rw [latest?, compilationsOf_snoc_none h, latest?]

theorem latest?_snoc_some {c : Compilation} (h : e.compilation? = some c) (index : Int)
    (name : String) :
    latest? (record ++ [e]) index name =
      if c.holds index name then some c else latest? record index name := by
  rw [latest?, compilationsOf_snoc_some h, List.reverse_append, List.reverse_singleton,
    List.singleton_append, List.find?_cons]
  cases c.holds index name <;> rfl

/-- A place in a longer record is its end or a place in the shorter one. -/
theorem split_snoc (h : record ++ [e] = past ++ present :: future) :
    (past = record ∧ present = e) ∨ ∃ rest, record = past ++ present :: rest := by
  rcases List.eq_nil_or_concat future with rfl | ⟨rest, last, rfl⟩
  · obtain ⟨hpast, hpresent⟩ := List.append_inj' h rfl
    exact .inl ⟨hpast.symm, (List.singleton_inj.mp hpresent).symm⟩
  · rw [List.concat_eq_append, ← List.cons_append, ← List.append_assoc] at h
    exact .inr ⟨rest, (List.append_inj' h rfl).1⟩

end Record

/-- A compilation has an earlier program than another. -/
def Compilation.Before (c d : Compilation) : Prop :=
  ∀ n n', c.program? = some n → d.program? = some n' → n < n'

/-- What a record tells of the programs of a machine. -/
structure Ledger (m : Machine) (record : List Exchange) : Prop where
  /-- Each compilation that went well has a program. -/
  numbered : ∀ c ∈ compilationsOf record, ∃ n, c.program? = some n ∧ n < m.objects.programs
  /-- It is built with the options asked for. -/
  built : ∀ c ∈ compilationsOf record, ∀ n, c.program? = some n →
    .native (.build n c.request.options) ∈ c.events
  /-- Later ones have higher numbers. -/
  ordered : (compilationsOf record).Pairwise Compilation.Before
  programs : ∀ index name, (m.openCL.programs.lookup (index, name)).map (·.number) =
    (latest? record index name).bind Compilation.program?
  /-- A native kernel is called when its launch is asked for, and then it is that
  of the last compilation. -/
  called : ∀ past present future, record = past ++ present :: future →
    ∀ c, .native (.call c) ∈ present.events →
      ∃ request, present.runRequest? = some request ∧ c.kernel = request.name ∧
        ∃ last, latest? past request.device.index request.name = some last ∧
          last.program? = some c.program

namespace Ledger

variable {m m' : Machine} {record : List Exchange} {e : Exchange}

/-- An exchange that adds no program. -/
theorem snoc_none (h : Ledger m record) (hnone : e.compilation? = none)
    (hprograms : m'.openCL.programs = m.openCL.programs)
    (hcount : m.objects.programs ≤ m'.objects.programs)
    (hcalled : ∀ c, .native (.call c) ∈ e.events →
      ∃ request, e.runRequest? = some request ∧ c.kernel = request.name ∧
        (m.openCL.programs.lookup (request.device.index, request.name)).map (·.number) =
          some c.program) :
    Ledger m' (record ++ [e]) where
  numbered c hc := by
    rw [compilationsOf_snoc_none hnone] at hc
    obtain ⟨n, hn, hlt⟩ := h.numbered c hc
    exact ⟨n, hn, Nat.lt_of_lt_of_le hlt hcount⟩
  built c hc := by
    rw [compilationsOf_snoc_none hnone] at hc
    exact h.built c hc
  ordered := by
    rw [compilationsOf_snoc_none hnone]
    exact h.ordered
  programs index name := by
    rw [hprograms, latest?_snoc_none hnone]
    exact h.programs index name
  called past present future heq c hc := by
    rcases split_snoc heq with ⟨rfl, rfl⟩ | ⟨rest, hrest⟩
    · obtain ⟨request, hrequest, hname, hlookup⟩ := hcalled c hc
      rw [h.programs] at hlookup
      exact ⟨request, hrequest, hname, Option.bind_eq_some_iff.mp hlookup⟩
    · exact h.called past present rest hrest c hc

/-- A compilation that went well. -/
theorem snoc_some (h : Ledger m record) {new : Compilation} {program : Native.Program}
    (hnew : e.compilation? = some new) (hnumber : program.number = m.objects.programs)
    (hprogram : new.program? = some m.objects.programs)
    (hbuilt : .native (.build m.objects.programs new.request.options) ∈ new.events)
    (hprograms : m'.openCL.programs =
      OpenCL.withProgram new.request.device.index new.names program m.openCL.programs)
    (hcount : m'.objects.programs = m.objects.programs + 1)
    (hnoCall : ∀ c, .native (.call c) ∉ e.events) : Ledger m' (record ++ [e]) where
  numbered c hc := by
    rw [compilationsOf_snoc_some hnew] at hc
    rcases List.mem_append.mp hc with hc | hc
    · obtain ⟨n, hn, hlt⟩ := h.numbered c hc
      exact ⟨n, hn, by omega⟩
    · rw [List.mem_singleton.mp hc]
      exact ⟨_, hprogram, by omega⟩
  built c hc n hn := by
    rw [compilationsOf_snoc_some hnew] at hc
    rcases List.mem_append.mp hc with hc | hc
    · exact h.built c hc n hn
    · rw [List.mem_singleton.mp hc] at hn ⊢
      cases hprogram.symm.trans hn
      exact hbuilt
  ordered := by
    rw [compilationsOf_snoc_some hnew, List.pairwise_append]
    refine ⟨h.ordered, List.pairwise_singleton _ _, ?_⟩
    intro c hc d hd n n' hn hn'
    obtain ⟨own, hown, hlt⟩ := h.numbered c hc
    rw [List.mem_singleton.mp hd, hprogram] at hn'
    cases hn'
    cases hn.symm.trans hown
    exact hlt
  programs index name := by
    rw [hprograms, OpenCL.lookup_withProgram, latest?_snoc_some hnew]
    by_cases hholds : new.holds index name = true
    · rw [if_pos (Compilation.holds_iff.mp hholds), if_pos hholds, Option.map_some, hnumber]
      exact hprogram.symm
    · rw [if_neg (hholds ∘ Compilation.holds_iff.mpr), if_neg hholds]
      exact h.programs index name
  called past present future heq c hc := by
    rcases split_snoc heq with ⟨rfl, rfl⟩ | ⟨rest, hrest⟩
    · exact absurd hc (hnoCall c)
    · exact h.called past present rest hrest c hc

/-- The ledger of a world with a record. -/
def InWorld (w : World (Recorded Machine)) : Prop := Ledger w.state.state w.state.record

theorem compile_preserves (request : CompileRequest) :
    Action.Preserves InWorld (openCL.recording.compile request) := by
  intro w h
  obtain ⟨outcome, notes, after, hperform, hcompiling⟩ := OpenCL.compile_recorded request w
  rw [hperform]
  change Ledger after.state (w.state.record ++ [.compile request outcome notes])
  have hnoCall (c : Native.Call) : .native (.call c) ∉ notes := hcompiling.no_call
  cases hcompiling with
  | unread => exact h.snoc_none rfl rfl (Nat.le_refl _) fun c hc => absurd hc (hnoCall c)
  | broken _ opens openCL count =>
      have hprograms := (congrArg OpenCLState.programs openCL).trans opens.programs_eq
      refine h.snoc_none rfl hprograms ?_ fun c hc => absurd hc (hnoCall c)
      exact Nat.le_of_lt (Nat.lt_of_lt_of_eq (Nat.lt_succ_self _) count.symm)
  | compiled _ opens _ programs count =>
      refine h.snoc_some rfl rfl ?_ ?_ programs count hnoCall
      · rw [Compilation.program?, List.findSome?_append, opens.no_program]
        rfl
      · exact List.mem_append_right _ (List.mem_cons_of_mem _ (List.mem_singleton_self _))

theorem run_preserves (request : RunRequest) :
    Action.Preserves InWorld (openCL.recording.run request) := by
  intro w h
  obtain ⟨outcome, notes, after, hperform, hrunning⟩ := OpenCL.run_recorded request w
  rw [hperform]
  obtain ⟨hprograms, hcount⟩ := hrunning.programs_eq
  refine h.snoc_none rfl hprograms (Nat.le_of_eq hcount.symm) fun c hc => ?_
  obtain ⟨_, _, hcalling⟩ := hrunning.calling hc
  exact ⟨request, rfl, hcalling.kernel_eq, hcalling.program_eq⟩

/-- A machine without programs, before anything has passed. -/
theorem nil (h : m.openCL.programs = []) : Ledger m [] where
  numbered := by simp [compilationsOf]
  built := by simp [compilationsOf]
  ordered := List.Pairwise.nil
  programs index name := by rw [h]; rfl
  called past present future heq := by simp at heq

/-- Another machine with the same programs. -/
theorem congr (h : Ledger m record) (hprograms : m'.openCL = m.openCL)
    (hcount : m'.objects = m.objects) : Ledger m' record where
  numbered := by rw [hcount]; exact h.numbered
  built := h.built
  ordered := h.ordered
  programs := by rw [hprograms]; exact h.programs
  called := h.called

/-- A native kernel is called during a launch. -/
theorem called_run (h : Ledger m record) (he : e ∈ record) {c : Native.Call}
    (hc : .native (.call c) ∈ e.events) : ∃ request, e.runRequest? = some request := by
  obtain ⟨past, future, hsplit⟩ := List.append_of_mem he
  obtain ⟨request, hrequest, _⟩ := h.called past e future hsplit c hc
  exact ⟨request, hrequest⟩

/-- A launch does not change which compilation is the last one. -/
theorem called_last (h : Ledger m (record ++ [e])) {request : RunRequest}
    (hrequest : e.runRequest? = some request) {c : Native.Call}
    (hc : .native (.call c) ∈ e.events) :
    c.kernel = request.name ∧ ∃ last,
      latest? (record ++ [e]) request.device.index request.name = some last ∧
        last.program? = some c.program := by
  obtain ⟨_, hrequest', hname, last, hlast, hprogram⟩ := h.called record e [] rfl c hc
  cases hrequest.symm.trans hrequest'
  have hnone : e.compilation? = none := by
    cases e with
    | run => rfl
    | compile => cases hrequest
  exact ⟨hname, last, (latest?_snoc_none hnone _ _).trans hlast, hprogram⟩

/-- The last compilation of a kernel has been found and no later one holds the
kernel. -/
theorem latest?_spec (h : Ledger m record) {index : Int} {name : String} {last : Compilation}
    (hlast : latest? record index name = some last) :
    last ∈ compilationsOf record ∧ last.holds index name = true ∧
      ∀ c ∈ compilationsOf record, c.holds index name = true → c = last ∨ c.Before last := by
  obtain ⟨hholds, later, earlier, hsplit, hnone⟩ := List.find?_eq_some_iff_append.mp hlast
  have hrecord : compilationsOf record = earlier.reverse ++ last :: later.reverse := by
    rw [← List.reverse_reverse (compilationsOf record), hsplit]
    simp
  have hordered := h.ordered
  rw [hrecord] at hordered ⊢
  refine ⟨by simp, hholds, ?_⟩
  intro c hc hcholds
  rcases List.mem_append.mp hc with hc | hc
  · exact .inr ((List.pairwise_append.mp hordered).2.2 c hc last (List.mem_cons_self ..))
  · rcases List.mem_cons.mp hc with hc | hc
    · exact .inl hc
    · have hnot := hnone c (List.mem_reverse.mp hc)
      simp [hcholds] at hnot

/-- The last compilation is a given one if and only if no later one than that
holds the kernel. -/
theorem latest?_eq_iff (h : Ledger m record) {index : Int} {name : String}
    {last own : Compilation} (hlast : latest? record index name = some last)
    (hown : own ∈ compilationsOf record) (hholds : own.holds index name = true) :
    last = own ↔
      ∀ later ∈ compilationsOf record, own.Before later → later.holds index name = false := by
  obtain ⟨hmem, hlastHolds, hmax⟩ := h.latest?_spec hlast
  have hirrefl {c : Compilation} (hc : c ∈ compilationsOf record) : ¬ c.Before c := by
    intro hbefore
    obtain ⟨n, hn, _⟩ := h.numbered c hc
    exact Nat.lt_irrefl n (hbefore n n hn hn)
  constructor
  · rintro rfl later hlater hbefore
    rw [← Bool.not_eq_true]
    intro hlaterHolds
    rcases hmax later hlater hlaterHolds with rfl | hback
    · exact hirrefl hmem hbefore
    · obtain ⟨n, hn, _⟩ := h.numbered last hmem
      obtain ⟨n', hn', _⟩ := h.numbered later hlater
      have hforth := hbefore n n' hn hn'
      have hback := hback n' n hn' hn
      omega
  · intro hnone
    rcases hmax own hown hholds with heq | hbefore
    · exact heq.symm
    · rw [hnone last hmem hbefore] at hlastHolds
      cases hlastHolds

end Ledger

end KernelLaunch
