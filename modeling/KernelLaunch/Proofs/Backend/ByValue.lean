import KernelLaunch.Proofs.Backend.Recording
import KernelLaunch.Proofs.Host.Content

/-!
Backends that go by argument values. Memory layout, writability and identity of the arrays
do not influence what such a backend answers.
-/

namespace KernelLaunch.Backend

open Host

variable {σ : Type}

/-- A request with all arguments in fresh memory. -/
def RunRequest.content (r : RunRequest) : RunRequest := { r with args := r.args.map Value.content }

/-- What an answer says about the results. -/
def Reply.contents (reply : Reply) : List Value := reply.results.map (·.value.content)

/-- A backend whose results, or whose failure, depend only on its state and on the content of
the arguments. -/
def RunsByValue (b : Backend σ) : Prop :=
  ∀ r r' w w', r.content = r'.content → w.state = w'.state →
    ((b.run r).perform w).1.map Reply.contents = ((b.run r').perform w').1.map Reply.contents

theorem RunsByValue.recorded {b : Backend σ} (hb : b.RunsByValue) {r r' : RunRequest}
    {w w' : World (Recorded σ)} (hrequest : r.content = r'.content) (hstate : w.state = w'.state) :
    ((b.recording.askRun r).perform w).1.map Reply.contents =
      ((b.recording.askRun r').perform w').1.map Reply.contents := by
  unfold askRun
  rw [Action.perform_bind, Action.perform_bind, Action.perform_note, Action.perform_note]
  exact hb r r' _ _ hrequest (congrArg Recorded.state hstate)

end KernelLaunch.Backend
