import KernelLaunch.Proofs.Signature.Named
import KernelLaunch.Proofs.Signature.Parts

/-!
Sizes with brackets and words in them. A parameter list is cut by counting brackets, so a
size never breaks a part. But in the part itself a size ends at the first bracket that closes,
and what stands in it promises for the whole declaration; only sizes with neither a square
bracket nor such a promise go unnoticed.
-/

namespace KernelLaunch.Signature

open Source Text

/-- A declaration with one more size at its end. -/
def Declaration.sized (d : Declaration) (e : List Char) : List Char :=
  d.text ++ '[' :: (e ++ [']'])

/-- The effect of one more array size on the parsed parameter. -/
structure SizeEffect (d : Declaration) (e : List Char) : Prop where
  /-- It is never cut, whatever well closed texts stand around the declaration. -/
  whole : ∀ before after : List (List Char), (∀ x ∈ before ++ after, balance x = 0) →
    parts (String.ofList (joinWith [','] (before ++ d.sized e :: after))) =
      partsOf before ++ String.ofList (collapse (d.sized e)) :: partsOf after
  vector : (Parameter.ofDeclaration (String.ofList (d.sized e))).shape = .vector
  /-- It might as well be any other size. -/
  unnoticed : Parameter.ofDeclaration (String.ofList (d.sized e)) =
      Parameter.ofDeclaration (String.ofList (d.sized ['1'])) ↔
    ']' ∉ e ∧ (IsSilent e ∨ ∃ m ∈ d.modifiers, m.readsOnly = true)

section Brackets

theorem close_of_open {e : List Char} (h : WellNested e) (hopen : '[' ∈ e) : ']' ∈ e := by
  induction h with
  | nil => cases hopen
  | @char c s plain _ ih =>
      rcases List.mem_cons.mp hopen with rfl | hopen
      · simp at plain
      · exact List.mem_cons_of_mem c (ih hopen)
  | @round inner s _ _ ih ih' =>
      simp only [List.mem_cons, List.mem_append] at hopen ⊢
      rcases hopen with hopen | hopen | hopen | hopen
      · cases hopen
      · exact .inr (.inl (ih hopen))
      · cases hopen
      · exact .inr (.inr (.inr (ih' hopen)))
  | square => simp

/-- After the last square bracket that closes none opens. -/
theorem exists_lastClose {e : List Char} (h : WellNested e) (hclose : ']' ∈ e) :
    ∃ x y, e = x ++ ']' :: y ∧ '[' ∉ y := by
  induction h with
  | nil => cases hclose
  | @char c s plain _ ih =>
      rcases List.mem_cons.mp hclose with rfl | hclose
      · simp at plain
      · obtain ⟨x, y, rfl, hy⟩ := ih hclose
        exact ⟨c :: x, y, rfl, hy⟩
  | @round inner s _ rest ih ih' =>
      by_cases hs : ']' ∈ s
      · obtain ⟨x, y, rfl, hy⟩ := ih' hs
        exact ⟨'(' :: (inner ++ ')' :: x), y, by simp, hy⟩
      · have hinner : ']' ∈ inner := by simpa [hs] using hclose
        obtain ⟨x, y, rfl, hy⟩ := ih hinner
        have hopen : '[' ∉ s := fun hmem => hs (close_of_open rest hmem)
        exact ⟨'(' :: x, y ++ ')' :: s, by simp, by simp [hy, hopen]⟩
  | @square inner s _ rest _ ih' =>
      by_cases hs : ']' ∈ s
      · obtain ⟨x, y, rfl, hy⟩ := ih' hs
        exact ⟨'[' :: (inner ++ ']' :: x), y, by simp, hy⟩
      · exact ⟨'[' :: inner, s, rfl, fun hmem => hs (close_of_open rest hmem)⟩

/-- A bracket that closes ends the size that it may stand in. -/
theorem dropSizes_close (inside : Bool) (x rest : List Char) :
    ∃ kept, dropSizes inside (x ++ ']' :: rest) = kept ++ dropSizes false rest := by
  induction x generalizing inside with
  | nil =>
      cases inside with
      | true => exact ⟨[], rfl⟩
      | false => exact ⟨[']'], by simp [dropSizes]⟩
  | cons c x ih =>
      cases inside with
      | true =>
          obtain ⟨kept, hkept⟩ := ih (c != ']')
          exact ⟨kept, by rw [List.cons_append, dropSizes, hkept]⟩
      | false =>
          by_cases hc : c = '['
          · obtain ⟨kept, hkept⟩ := ih true
            refine ⟨' ' :: kept, ?_⟩
            rw [List.cons_append, dropSizes, if_pos ⟨hc, by simp⟩, hkept, List.cons_append]
          · obtain ⟨kept, hkept⟩ := ih false
            refine ⟨c :: kept, ?_⟩
            rw [List.cons_append, dropSizes, if_neg fun hopens => hc hopens.1, hkept,
              List.cons_append]

end Brackets

namespace Declaration

variable {d : Declaration}

/-- What a declaration without sizes holds besides words, blanks and stars. -/
theorem plain_text (hsizeless : ∀ s ∈ d.suffixes, s.isSize = false) {c : Char}
    (hc : c ∈ d.text) : bracketStep c = 0 ∧ c ≠ ',' := by
  have hplain : ∀ c, isWord c = true ∨ c = '*' ∨ isBlank c = true →
      bracketStep c = 0 ∧ c ≠ ',' := by
    intro c hkind
    have hnot : c ∉ ['(', ')', '[', ']', ','] := by
      intro hmem
      have hall : ['(', ')', '[', ']', ','].all
          (fun b => !isWord b && b != '*' && !isBlank b) = true := by decide +kernel
      obtain ⟨⟨hword, hstar⟩, hblank⟩ : (isWord c = false ∧ c ≠ '*') ∧ isBlank c = false := by
        simpa using List.all_eq_true.mp hall c hmem
      rcases hkind with h | h | h
      · rw [hword] at h
        cases h
      · exact hstar h
      · rw [hblank] at h
        cases h
    simp only [List.mem_cons, List.not_mem_nil, or_false, not_or] at hnot
    exact ⟨bracketStep_plain (by simp [hnot]), hnot.2.2.2.2⟩
  apply hplain
  rcases List.mem_append.mp hc with hc | hc
  · obtain ⟨m, _, hm⟩ := List.mem_flatMap.mp hc
    by_cases hword : isWord c = true
    · exact .inl hword
    · rcases m.star_or_blank hm (by simpa using hword) with ⟨_, hstar⟩ | hblank
      · exact .inr (.inl hstar)
      · exact .inr (.inr hblank)
  · obtain ⟨s, hs, hmem⟩ := List.mem_flatMap.mp hc
    cases s with
    | blank b isBlank =>
        rw [List.mem_singleton.mp hmem]
        exact .inr (.inr isBlank)
    | size e unclosed silent => cases hsizeless _ hs

theorem rawParts_sized (hsizeless : ∀ s ∈ d.suffixes, s.isSize = false) {e : List Char}
    (he : WellNested e) : rawParts 0 (d.sized e) = [d.sized e] := by
  have hpair : rawParts 0 ('[' :: (e ++ [']'])) = extendFirst ('[' :: (e ++ [']'])) [[]] :=
    rawParts_pair rfl rfl (rawParts_nested he (by decide)) []
  rw [sized, rawParts_flat (fun c hc => plain_text hsizeless hc), hpair]
  simp [extendFirst]

theorem balance_sized (hsizeless : ∀ s ∈ d.suffixes, s.isSize = false) {e : List Char}
    (he : WellNested e) : balance (d.sized e) = 0 := by
  have htext : balance d.text = 0 := balance_flat fun c hc => (plain_text hsizeless hc).1
  simp [sized, htext, balance_nested he, bracketStep]

/-- What is behind the name of a declaration with one more size. -/
def tail (d : Declaration) (e : List Char) : List Char :=
  suffixText d.suffixes ++ '[' :: (e ++ [']'])

theorem sized_eq (d : Declaration) (e : List Char) :
    d.sized e = textOf (d.marks ++ [.word d.name d.plain]) ++ d.tail e := by
  rw [sized, text, tail, List.append_assoc]

theorem head_tail (d : Declaration) (e : List Char) :
    ∀ c ∈ (d.tail e).head?, isWord c = false := by
  unfold tail
  cases hsuffix : suffixText d.suffixes with
  | nil =>
      rintro c ⟨⟩
      exact isWord_open
  | cons b rest =>
      intro c hc
      exact head_suffixText d.suffixes c (by rw [hsuffix]; exact hc)

theorem blank_of_sizeless (hsizeless : ∀ s ∈ d.suffixes, s.isSize = false) :
    ∀ c ∈ suffixText d.suffixes, isBlank c = true := by
  intro c hc
  by_contra hvisible
  obtain ⟨s, hs, hsize⟩ := size_of_mem_suffixText hc (by simpa using hvisible)
  rw [hsizeless s hs] at hsize
  cases hsize

/-- What is left of the tail: the blanks, and what of the size stands after its end. -/
theorem left_tail (hsizeless : ∀ s ∈ d.suffixes, s.isSize = false) (e : List Char) :
    dropSizes false (dropQualifiers (d.tail e)) =
      suffixText d.suffixes ++ ' ' :: dropSizes true (dropQualifiers e ++ [']']) := by
  have hblank := blank_of_sizeless hsizeless
  have hopen : '[' ∉ suffixText d.suffixes := fun hmem => absurd (hblank _ hmem) (by decide)
  rw [tail, dropQualifiers_blanks hblank, dropSizes_free hopen, dropQualifiers_size, dropSizes,
    if_pos ⟨rfl, by simp⟩]
  rfl

theorem typeAndName_sized (hsizeless : ∀ s ∈ d.suffixes, s.isSize = false) {e : List Char}
    (he : ']' ∉ e) : typeAndName (d.sized e) = (joinWith [' '] d.words, d.name) := by
  have hclosed : ']' ∉ dropQualifiers e := by
    intro hmem
    rcases mem_dropQualifiers hmem with heq | hmem
    · cases heq
    · exact he hmem
  apply typeAndName_several _ d.typed
  rw [sized_eq, typeWords_append d.separate (d.head_tail e)]
  · rw [List.filterMap_append]
    rfl
  · rw [left_tail hsizeless, dropSizes_inside hclosed]
    intro c hc
    rcases List.mem_append.mp hc with hc | hc
    · exact blank_of_sizeless hsizeless c hc
    · rw [List.mem_singleton.mp hc]
      decide

/-- The bracket that closes the size becomes part of the name if the size ends before it. -/
theorem close_mem_name (hsizeless : ∀ s ∈ d.suffixes, s.isSize = false) {e : List Char}
    (he : WellNested e) (hclose : ']' ∈ e) : ']' ∈ (typeAndName (d.sized e)).2 := by
  obtain ⟨x, y, rfl, hy⟩ := exists_lastClose he hclose
  have hopen : '[' ∉ dropQualifiers y ++ [']'] := by
    intro hmem
    rcases List.mem_append.mp hmem with hmem | hmem
    · rcases mem_dropQualifiers hmem with heq | hmem
      · cases heq
      · exact hy hmem
    · cases List.mem_singleton.mp hmem
  obtain ⟨kept, hkept⟩ := dropSizes_close true (dropQualifiers x) (dropQualifiers y ++ [']'])
  have hrest : dropSizes false (dropQualifiers y ++ [']']) = dropQualifiers y ++ [']'] := by
    have hfree := dropSizes_free hopen []
    rwa [List.append_nil, show dropSizes false [] = [] from rfl, List.append_nil] at hfree
  have hleft : dropSizes false (dropQualifiers (d.tail (x ++ ']' :: y))) =
      suffixText d.suffixes ++ ' ' :: (kept ++ dropQualifiers y ++ [']']) := by
    rw [left_tail hsizeless, dropQualifiers_close, List.append_assoc, List.cons_append, hkept,
      hrest, List.append_assoc]
  -- The words of the declaration come first, and the last one ends with the bracket.
  have hblanks : ∀ c ∈ (suffixText d.suffixes).map fun c => if c = '*' then ' ' else c,
      isBlank c = true := by
    intro c hc
    obtain ⟨b, hb, rfl⟩ := List.mem_map.mp hc
    split
    · decide
    · exact blank_of_sizeless hsizeless b hb
  obtain ⟨ws, w, hwords, hw⟩ := words_snoc (c := ']') (by decide)
    (' ' :: (kept ++ dropQualifiers y).map fun c => if c = '*' then ' ' else c)
  have hall : typeWords (d.sized (x ++ ']' :: y)) = d.words ++ [d.name] ++ ws ++ [w] := by
    rw [sized_eq, typeWords_cut d.separate (d.head_tail _), hleft, List.map_append, List.map_cons,
      List.map_append, ← List.append_assoc, words_append (.of_head (by rintro c ⟨⟩; rfl)),
      words_left d.separate hblanks, List.filterMap_append, List.append_assoc _ ws, ← hwords]
    rfl
  rw [typeAndName_several hall (by simp)]
  exact hw

theorem isReadOnly_sized (d : Declaration) (e : List Char) :
    isReadOnly (String.ofList (d.sized e)) =
      (isReadOnly (String.ofList d.text) || promises e) := by
  have hpromises : ∀ cs, isReadOnly (String.ofList cs) = promises cs := by
    intro cs
    rw [isReadOnly, String.toList_ofList]
    rfl
  rw [hpromises, hpromises, sized, promises_append (.of_head (by rintro c ⟨⟩; exact isWord_open)),
    promises_size]
  simp [promises, runs]

theorem isPointer_sized (d : Declaration) (e : List Char) :
    isPointer (String.ofList (d.sized e)) = true := by
  rw [isPointer, String.toList_ofList, Bool.or_eq_true, hasSize_iff]
  exact .inr ⟨d.text, e ++ [']'], rfl, by simp⟩

theorem isReadOnly_text_iff (d : Declaration) :
    isReadOnly (String.ofList d.text) = true ↔ ∃ m ∈ d.modifiers, m.readsOnly = true := by
  rw [text, isReadOnly_text d.separate, List.filterMap_append]
  simp [modifiers, Mark.modifier?]

/-- An array size never breaks the splitting of a parameter list, but one with an inner square
bracket or a read-only qualifier changes the parsed parameter. -/
theorem ofDeclaration_sized (hsizeless : ∀ s ∈ d.suffixes, s.isSize = false) {e : List Char}
    (he : WellNested e) : SizeEffect d e := by
  obtain ⟨hname, _, _, hshape, hdirection⟩ := ofDeclaration_fields (String.ofList (d.sized e))
  obtain ⟨hname', _, _, _, hdirection'⟩ := ofDeclaration_fields (String.ofList (d.sized ['1']))
  have hone : typeAndName (d.sized ['1']) = (joinWith [' '] d.words, d.name) :=
    typeAndName_sized hsizeless (by decide)
  have hsilent : promises ['1'] = false := by decide +kernel
  constructor
  · intro before after hothers
    exact parts_around (balance_sized hsizeless he) (rawParts_sized hsizeless he)
      (by simp [sized]) hothers
  · exact hshape.mpr (d.isPointer_sized e)
  · constructor
    · intro heq
      constructor
      · intro hclose
        -- No name holds a bracket.
        have hsame := congrArg (String.toList ∘ Parameter.name) heq
        simp only [Function.comp_apply, hname, hname', String.toList_ofList, hone] at hsame
        have hmem := close_mem_name hsizeless he hclose
        rw [hsame] at hmem
        have hword := d.plain.isName.word _ hmem
        rw [isWord_close] at hword
        cases hword
      · have hreads : isReadOnly (String.ofList (d.sized e)) =
            isReadOnly (String.ofList (d.sized ['1'])) := by
          rw [Bool.eq_iff_iff, ← hdirection, ← hdirection', heq]
        rw [isReadOnly_sized, isReadOnly_sized, hsilent, Bool.or_false] at hreads
        rw [isSilent_iff, ← isReadOnly_text_iff]
        cases hpromises : promises e with
        | false => exact .inl rfl
        | true =>
            rw [hpromises, Bool.or_true] at hreads
            exact .inr hreads.symm
    · rintro ⟨hclose, hpromises⟩
      have hreads : isReadOnly (String.ofList (d.sized e)) =
          isReadOnly (String.ofList (d.sized ['1'])) := by
        rw [isReadOnly_sized, isReadOnly_sized, hsilent, Bool.or_false]
        rcases hpromises with hnone | hreads
        · rw [isSilent_iff.mp hnone, Bool.or_false]
        · rw [(isReadOnly_text_iff d).mpr hreads, Bool.true_or]
      simp only [Parameter.ofDeclaration, Parameter.ofSourceType, typeOf, String.toList_ofList,
        hreads, isPointer_sized, hone, typeAndName_sized hsizeless hclose]

end Declaration

/-- A declaration without sizes. -/
def sampleArray : Declaration where
  marks := [.word "float4".toList isPlain_float4, .blank ' ' isBlank_space]
  name := "constants".toList
  plain := isPlain_constants
  suffixes := [.blank ' ' isBlank_space]
  separate := by
    unfold Separate
    decide +kernel
  typed := by decide +kernel

/-- Brackets and a comma in a size. -/
theorem sampleArray_sized :
    (∀ s ∈ sampleArray.suffixes, s.isSize = false) ∧ WellNested "(N,(1))".toList ∧
      SizeEffect sampleArray "(N,(1))".toList ∧
      parts "int n,float4 constants [(N,(1))]" = ["int n", "float4 constants [(N,(1))]"] := by
  have hsizeless : ∀ s ∈ sampleArray.suffixes, s.isSize = false := by
    intro s hs
    rw [List.mem_singleton.mp hs]
    rfl
  have hone : WellNested ['1'] := .char (by decide) .nil
  have hlist : WellNested "N,(1)".toList :=
    .char (by decide) (.char (by decide) (.round hone .nil))
  have hnested : WellNested "(N,(1))".toList := .round hlist .nil
  have hsized := sampleArray.ofDeclaration_sized hsizeless hnested
  have hwhole := hsized.whole ["int n".toList] [] (by decide)
  have htext : String.ofList (joinWith [','] (["int n".toList] ++ [sampleArray.sized
      "(N,(1))".toList])) = "int n,float4 constants [(N,(1))]" := by decide +kernel
  have hparts : partsOf ["int n".toList] ++ String.ofList (collapse (sampleArray.sized
      "(N,(1))".toList)) :: partsOf [] = ["int n", "float4 constants [(N,(1))]"] := by
    decide +kernel
  rw [htext, hparts] at hwhole
  exact ⟨hsizeless, hnested, hsized, hwhole⟩

/-- The size ends at the first bracket that closes, and a word in it makes the parameter one
that is only read. -/
theorem inner_bracket_becomes_name :
    WellNested "b[2]".toList ∧
      Parameter.ofDeclaration "int a[1]" = ⟨"a", .inout, .vector, "int", "int32"⟩ ∧
      Parameter.ofDeclaration "int a[b[2]]" = ⟨"]", .inout, .vector, "int a", "int a"⟩ ∧
      Parameter.ofDeclaration "int a[sizeof(const int)]" =
        ⟨"a", .input, .vector, "int", "int32"⟩ := by
  constructor
  · have htwo : WellNested ['2'] := .char (by decide) .nil
    exact .char (by decide) (.square htwo .nil)
  · decide +kernel

end KernelLaunch.Signature
