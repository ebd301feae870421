import KernelLaunch.Proofs.Backend.Programs
import KernelLaunch.Proofs.Backend.Transfers

/-!
Launches whose arguments may overlap in host memory. All buffers are filled before the
kernel is called, and after that copied back in argument order. So the result of an argument
holds its own buffer just until a later copy back writes to overlapping memory, and memory
that no argument writes to is unchanged.
-/

namespace KernelLaunch.Backend.OpenCL

open Host

section Answers

/-- The results of transferred arguments, with the memory in which they are read. A read-only
argument is its own result. Any other result holds the content of its own buffer, unless a
later copy back went into overlapping memory. -/
inductive Answered (m : Memory) : List Reference → List Transfer → List Answer → Prop where
  | nil : Answered m [] [] []
  | cons {r : Reference} {t : Transfer} {answer : Answer} {references : List Reference}
      {transfers : List Transfer} {answers : List Answer}
      (itself : t.readOnly = true → answer = .argument r)
      (content : t.readOnly = false → ∃ b, t.fetched = some b ∧
        ((∀ p ∈ references.zip transfers, InPlace p.2.fetched → ¬ p.1.Overlaps r) →
          (answer.result m).value.content = .ofTensor b.content))
      (rest : Answered m references transfers answers) :
      Answered m (r :: references) (t :: transfers) (answer :: answers)

theorem Answered.length_eq {m : Memory} {references : List Reference} {transfers : List Transfer}
    {answers : List Answer} (h : Answered m references transfers answers) :
    answers.length = references.length := by
  induction h with
  | nil => rfl
  | cons _ _ _ ih => exact congrArg Nat.succ ih

/-- A transfer reads back what fits its argument, unless the argument is only read. -/
structure Transfer.Readable (t : Transfer) : Prop where
  unread : t.readOnly = true → t.fetched = none
  read : t.readOnly = false → ∃ b, t.fetched = some b ∧ b.Fits t.arg ∧
    Writable t.arg b.host.sharing

/-- References for the arguments of transfers, as they lie in memory. -/
def RefersTo (m : Memory) (r : Reference) (t : Transfer) : Prop := r.value m = t.arg ∧ t.Readable

/-- What is read back into the memory of an argument goes into an array that may be written
to. -/
theorem RefersTo.writable {m : Memory} {r : Reference} {t : Transfer} (h : RefersTo m r t)
    (hplace : InPlace t.fetched) : ∃ v, r = .view v ∧ v.readOnly = false := by
  obtain ⟨hvalue, hreadable⟩ := h
  obtain ⟨b, hb, hsharing⟩ := hplace
  have hwritten : t.readOnly = false := by
    by_contra hreadOnly
    cases hb.symm.trans (hreadable.unread (eq_true_of_ne_false hreadOnly))
  obtain ⟨b', hb', -, hwritable⟩ := hreadable.read hwritten
  cases hb.symm.trans hb'
  obtain hseparate | ⟨a, harg, hreadOnly⟩ := hwritable
  · exact absurd hseparate hsharing
  · rw [harg] at hvalue
    cases r with
    | atom | list => cases hvalue
    | view v =>
        cases hvalue
        exact ⟨v, rfl, hreadOnly⟩

end Answers

section Launches

variable {request : RunRequest} {w : World Machine} {program : Native.Program}

/-- Bytes in a row. -/
def bytes (cells : List (BitVec 8)) : Tensor := Life.sampleRow (.integer true .byte) cells

end Launches

end KernelLaunch.Backend.OpenCL
