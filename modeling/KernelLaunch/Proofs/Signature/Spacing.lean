import KernelLaunch.Proofs.Signature.Parts
import KernelLaunch.Proofs.Text.Respaced
import KernelLaunch.Signature.Parameter

/-!
Parameter lists that differ in blanks only. Commas and brackets are visible, so such lists are
cut at the same places, and their parts have the same words. So the parameters of a list are
those of its words.
-/

namespace KernelLaunch.Signature

open Text

theorem forall₂_extendFirst {u v : List Char}
    (huv : ∀ {p q}, Respaced p q → Respaced (u ++ p) (v ++ q))
    {parts parts' : List (List Char)} (h : List.Forall₂ Respaced parts parts') (hne : parts ≠ []) :
    List.Forall₂ Respaced (extendFirst u parts) (extendFirst v parts') := by
  cases h with
  | nil => exact absurd rfl hne
  | cons hfirst hmore => exact .cons (huv hfirst) hmore

/-- Such texts are cut at the same places. -/
theorem rawParts_respaced {x y : List Char} (h : Respaced x y) (depth : Int) :
    List.Forall₂ Respaced (rawParts depth x) (rawParts depth y) := by
  induction h generalizing depth with
  | ends hg hg' =>
      have hwhole {g : List Char} (hg : ∀ c ∈ g, isBlank c = true) : rawParts depth g = [g] := by
        have hflat := rawParts_flat (fun c hc => flat_of_blank (hg c hc)) depth []
        simpa [rawParts, extendFirst] using hflat
      rw [hwhole hg, hwhole hg']
      exact .cons (.ends hg hg') .nil
  | @visible c x y hc _ ih =>
      by_cases hcut : c = ',' ∧ depth + bracketStep c = 0
      · rw [rawParts, rawParts, if_pos hcut, if_pos hcut]
        exact .cons (.refl []) (ih _)
      · rw [rawParts_other hcut, rawParts_other hcut]
        exact forall₂_extendFirst (.visible hc) (ih _) (rawParts_ne_nil _ x)
  | @blanks g g' x y hg hg' _ ih =>
      rw [rawParts_flat fun c hc => flat_of_blank (hg.2 c hc),
        rawParts_flat fun c hc => flat_of_blank (hg'.2 c hc)]
      exact forall₂_extendFirst (.blanks hg hg') (ih depth) (rawParts_ne_nil depth x)

theorem map_collapse_respaced {parts parts' : List (List Char)}
    (h : List.Forall₂ Respaced parts parts') : parts.map collapse = parts'.map collapse := by
  induction h with
  | nil => rfl
  | cons hfirst _ ih => rw [List.map_cons, List.map_cons, hfirst.collapse_eq, ih]

/-- A blank before a list does not matter to its parts. -/
theorem map_collapse_space (x : List Char) :
    (rawParts 0 (' ' :: x)).map collapse = (rawParts 0 x).map collapse := by
  have hflat := rawParts_flat (fun c hc => flat_of_blank (blank_space c hc)) 0 x
  obtain ⟨first, more, hparts⟩ := List.exists_cons_of_ne_nil (rawParts_ne_nil 0 x)
  rw [List.singleton_append] at hflat
  rw [hflat, hparts, extendFirst, List.map_cons, List.map_cons, List.singleton_append,
    collapse_space]

/-- The parts of a list are those of its words. -/
theorem parts_collapse (cs : List Char) :
    parts (String.ofList (collapse cs)) = parts (String.ofList cs) := by
  have hraw : (rawParts 0 (collapse cs)).map collapse = (rawParts 0 cs).map collapse := by
    rw [← map_collapse_space cs, ← map_collapse_space (collapse cs)]
    exact (map_collapse_respaced (rawParts_respaced (respaced_collapse cs) 0)).symm
  simp only [parts, String.toList_ofList, hraw]

theorem ofSignature_collapse (cs : List Char) :
    Parameter.ofSignature (String.ofList (collapse cs)) =
      Parameter.ofSignature (String.ofList cs) := by
  rw [Parameter.ofSignature, parts_collapse, Parameter.ofSignature]

end KernelLaunch.Signature
