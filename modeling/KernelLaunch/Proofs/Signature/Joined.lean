import KernelLaunch.Proofs.Signature.Parts

/-!
Parameter lists joined from declarations. Splitting the joined list at its commas gives the
declarations back, and no list, balanced or not, loses more than blanks and the commas
between its parts.
-/

namespace KernelLaunch.Signature

open Source Text

section Cutting

/-- A text is one part if each comma in it stands in brackets. -/
theorem rawParts_whole_iff {x : List Char} :
    rawParts 0 x = [x] ↔ ∀ u v, x = u ++ ',' :: v → balance u ≠ 0 := by
  constructor
  · rintro hwhole u v rfl hzero
    have hlength := congrArg List.length hwhole
    have hu := List.length_pos_iff.mpr (rawParts_ne_nil 0 u)
    have hv := List.length_pos_iff.mpr (rawParts_ne_nil 0 v)
    rw [rawParts_append (by rw [hzero]; rfl), List.length_append, List.length_singleton] at hlength
    omega
  · intro h
    have huncut := rawParts_uncut 0 (by simpa using h) []
    rw [List.append_nil] at huncut
    rw [huncut, rawParts, extendFirst, List.append_nil]

theorem joinWith_extendFirst (sep x : List Char) (parts : List (List Char)) :
    joinWith sep (extendFirst x parts) = x ++ joinWith sep parts := by
  cases parts with
  | nil => exact (List.append_nil x).symm
  | cons part more =>
      by_cases hne : more = []
      · subst hne
        rfl
      · rw [extendFirst, joinWith_cons _ _ hne, joinWith_cons _ _ hne]
        simp only [List.append_assoc]

/-- The cuts are at commas, so joining with commas gives the text back. -/
theorem joinWith_rawParts (depth : Int) (cs : List Char) :
    joinWith [','] (rawParts depth cs) = cs := by
  induction cs generalizing depth with
  | nil => rfl
  | cons c cs ih =>
      by_cases hcut : c = ',' ∧ depth + bracketStep c = 0
      · rw [rawParts, if_pos hcut, joinWith_cons _ _ (rawParts_ne_nil _ cs), ih, hcut.1]
        rfl
      · rw [rawParts_other hcut, joinWith_extendFirst, ih, List.singleton_append]

end Cutting

/-- A declaration of a parameter list, with the blanks that stand between it and the commas. -/
structure Entry where
  before : List Char
  text : List Char
  after : List Char
  blank : (∀ c ∈ before, isBlank c = true) ∧ ∀ c ∈ after, isBlank c = true
  nonempty : text ≠ []
  /-- It has single spaces between its words, and no blanks at its ends. -/
  spaced : collapse text = text
  nested : WellNested text
  /-- A comma in it stands in brackets. -/
  enclosed : ∀ u v, text = u ++ ',' :: v → balance u ≠ 0

namespace Entry

variable (e : Entry)

def written : List Char := e.before ++ (e.text ++ e.after)

theorem collapse_written : collapse e.written = e.text :=
  (collapse_padded e.blank.1 e.blank.2 e.text).trans e.spaced

theorem rawParts_written : rawParts 0 e.written = [e.written] := by
  have htext : rawParts 0 (e.text ++ e.after) = extendFirst e.text (rawParts 0 e.after) := by
    have huncut := rawParts_uncut 0 (by simpa using e.enclosed) e.after
    rwa [balance_nested e.nested, add_zero] at huncut
  have hafter : rawParts 0 (e.after ++ []) = extendFirst e.after [[]] :=
    rawParts_flat (fun c hc => flat_of_blank (e.blank.2 c hc)) 0 []
  rw [List.append_nil] at hafter
  rw [written, rawParts_flat fun c hc => flat_of_blank (e.blank.1 c hc), htext, hafter]
  simp [extendFirst]

theorem balance_written : balance e.written = 0 := by
  have hblanks {g : List Char} (hg : ∀ c ∈ g, isBlank c = true) : balance g = 0 :=
    balance_flat fun c hc => (flat_of_blank (hg c hc)).1
  rw [written, balance_append, balance_append, hblanks e.blank.1, hblanks e.blank.2,
    balance_nested e.nested]
  rfl

end Entry

/-- Declarations with commas between them. -/
def joined (es : List Entry) : List Char := joinWith [','] (es.map Entry.written)

/-- A parameter list that is empty or says that nothing is passed. -/
def DeclaresNothing (cs : List Char) : Prop := collapse cs = [] ∨ collapse cs = "void".toList

instance (cs : List Char) : Decidable (DeclaresNothing cs) := inferInstanceAs (Decidable (_ ∨ _))

theorem rawParts_joined {es : List Entry} (hne : es ≠ []) :
    rawParts 0 (joined es) = es.map Entry.written := by
  have hbalance : ∀ x ∈ es.map Entry.written, balance x = 0 := by
    intro x hx
    obtain ⟨e, _, rfl⟩ := List.mem_map.mp hx
    exact e.balance_written
  rw [joined, rawParts_joinWith (by simpa using hne) hbalance, List.flatMap_map]
  simp only [Entry.rawParts_written]
  exact List.map_eq_flatMap.symm

theorem rawParts_single {cs : List Char} (h : ',' ∉ cs) : rawParts 0 cs = [cs] := by
  rw [rawParts_whole_iff]
  rintro u v rfl
  simp at h

/-- A text has one part that is a word or nothing if that is all of it. -/
theorem map_collapse_rawParts {cs part : List Char} (hpart : ',' ∉ part) :
    (rawParts 0 cs).map collapse = [part] ↔ collapse cs = part := by
  constructor
  · intro h
    obtain ⟨only, honly, hcollapse⟩ := List.map_eq_singleton_iff.mp h
    have hjoin := joinWith_rawParts 0 cs
    rw [honly] at hjoin
    rw [← hjoin]
    exact hcollapse
  · rintro rfl
    have hcomma : ',' ∉ cs := fun hmem => hpart (mem_collapse (by decide) hmem)
    rw [rawParts_single hcomma, List.map_singleton]

theorem declaresNothing_iff {cs : List Char} :
    DeclaresNothing cs ↔ (rawParts 0 cs).map collapse = [[]] ∨
      (rawParts 0 cs).map collapse = ["void".toList] := by
  rw [map_collapse_rawParts (by decide), map_collapse_rawParts (by decide), DeclaresNothing]

theorem parts_eq (signature : String) :
    parts signature = if DeclaresNothing signature.toList then []
      else ((rawParts 0 signature.toList).map collapse).map String.ofList := by
  simp only [parts, declaresNothing_iff]

/-- The parts of a list that is put together from declarations are these. -/
theorem parts_of_entries {es : List Entry} (hvoid : es.map Entry.text ≠ ["void".toList]) :
    parts (String.ofList (joined es)) = es.map fun e => String.ofList e.text := by
  rw [parts_eq, String.toList_ofList]
  by_cases hne : es = []
  · subst hne
    rfl
  · have hparts : (rawParts 0 (joined es)).map collapse = es.map Entry.text := by
      rw [rawParts_joined hne, List.map_map]
      exact List.map_congr_left fun e _ => e.collapse_written
    have hdeclares : ¬ DeclaresNothing (joined es) := by
      rw [declaresNothing_iff, hparts]
      rintro (hempty | heq)
      · obtain ⟨e, _, htext⟩ := List.map_eq_singleton_iff.mp hempty
        exact e.nonempty htext
      · exact hvoid heq
    rw [if_neg hdeclares, hparts, List.map_map]
    rfl

/-- Splitting loses only blanks and the separating commas of a list. -/
theorem visible_parts {signature : String} (h : ¬ DeclaresNothing signature.toList) :
    visible (joinWith [','] ((parts signature).map String.toList)) =
      visible signature.toList := by
  have hparts : (parts signature).map String.toList =
      (rawParts 0 signature.toList).map collapse := by
    rw [parts_eq, if_neg h, List.map_map]
    simp
  have hvisible : ((rawParts 0 signature.toList).map collapse).map visible =
      (rawParts 0 signature.toList).map visible := by
    rw [List.map_map]
    exact List.map_congr_left fun part _ => visible_collapse part
  rw [hparts, visible_joinWith, hvisible, ← visible_joinWith, joinWith_rawParts]

/-- Joined declarations are split apart again, and splitting loses nothing of any parameter
list. -/
theorem parts_joined :
    (∀ es : List Entry, es.map Entry.text ≠ ["void".toList] →
      parts (String.ofList (joined es)) = es.map fun e => String.ofList e.text) ∧
    (∀ signature : String, DeclaresNothing signature.toList → parts signature = []) ∧
    ∀ signature : String, ¬ DeclaresNothing signature.toList →
      visible (joinWith [','] ((parts signature).map String.toList)) =
        visible signature.toList := by
  refine ⟨fun es hvoid => parts_of_entries hvoid, ?_, fun signature h => visible_parts h⟩
  intro signature h
  rw [parts_eq, if_pos h]

/-- A declaration with a comma in its size, and one that is a type alone. -/
def sampleEntries : List Entry :=
  [{ before := ['\n']
     text := "a[(1,2)]".toList
     after := [' ']
     blank := by simp [isBlank]
     nonempty := by decide
     spaced := by decide
     nested := .char (by decide) (.square (.round (.char (by decide) (.char (by decide)
       (.char (by decide) .nil))) .nil) .nil)
     enclosed := rawParts_whole_iff.mp (by decide) },
   { before := []
     text := "void".toList
     after := ['\t']
     blank := by simp [isBlank]
     nonempty := by decide
     spaced := by decide
     nested := .char (by decide) (.char (by decide) (.char (by decide) (.char (by decide) .nil)))
     enclosed := rawParts_whole_iff.mp (by decide) }]

/-- A lone closing bracket keeps the next comma from cutting. -/
theorem sampleEntries_joined :
    String.ofList (joined sampleEntries) = "\na[(1,2)] ,void\t" ∧
      sampleEntries.map Entry.text ≠ ["void".toList] ∧
      parts "\na[(1,2)] ,void\t" = ["a[(1,2)]", "void"] ∧
      DeclaresNothing " void ".toList ∧ parts " void " = [] ∧
      ¬ DeclaresNothing "int a), b".toList ∧
      visible (joinWith [','] ((parts "int a), b").map String.toList)) = "inta),b".toList := by
  obtain ⟨hentries, hnothing, hvisible⟩ := parts_joined
  have hvoid : sampleEntries.map Entry.text ≠ ["void".toList] := by decide
  have hsingle : DeclaresNothing " void ".toList := by decide
  have hdeclares : ¬ DeclaresNothing "int a), b".toList := by decide
  have htext : String.ofList (joined sampleEntries) = "\na[(1,2)] ,void\t" := by decide
  have hparts := hentries sampleEntries hvoid
  rw [htext] at hparts
  exact ⟨htext, hvoid, hparts, hsingle, hnothing _ hsingle, hdeclares, hvisible _ hdeclares⟩

end KernelLaunch.Signature
