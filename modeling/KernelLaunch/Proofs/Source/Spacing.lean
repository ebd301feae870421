import KernelLaunch.Proofs.Source.ParameterList
import KernelLaunch.Proofs.Text.Respaced
import KernelLaunch.Source.Selection

/-!
Declarations in texts that differ in blanks only. A header stays one, and so does a parameter
list, whose brackets are all visible. So both texts declare the same kernels one after the
other, up to the blanks in their parameter lists.
-/

namespace KernelLaunch.Source

open Signature Text

section Lists

theorem balance_visible (x : List Char) : balance (visible x) = balance x := by
  induction x with
  | nil => rfl
  | cons c x ih =>
      by_cases hc : isBlank c = true
      · have hskip : visible (c :: x) = visible x := by simp [visible, isNotBlank, hc]
        rw [hskip, ih, balance_cons, (flat_of_blank hc).1, zero_add]
      · have hkeep : visible (c :: x) = c :: visible x := by simp [visible, isNotBlank, hc]
        rw [hkeep, balance_cons, balance_cons, ih]

/-- Whether a text is a parameter list does not depend on its blanks. -/
theorem IsList.of_visible {s s' : List Char} (hs : IsList s) (h : visible s = visible s') :
    IsList s' := by
  obtain ⟨hlevel, hnever⟩ := hs
  have hbalance : balance s = balance s' := by rw [← balance_visible, h, balance_visible]
  refine ⟨?_, fun inner hinner hzero => ?_⟩
  · rw [balance_cons, balance_append] at hlevel ⊢
    rwa [← hbalance]
  · have hstarts : visible inner <+: visible s := h ▸ hinner.filter _
    obtain ⟨before, hbefore, heq⟩ := List.prefix_filter_iff.mp hstarts
    have hsame : balance before = balance inner := by
      rw [← balance_visible, ← balance_visible inner, heq]
      rfl
    refine hnever before hbefore ?_
    rw [balance_cons] at hzero ⊢
    rwa [hsame]

end Lists

section Declarations

variable {x y : List Char}

theorem notBlank_of_words {u : List Char} (hu : ∀ c ∈ u, isWord c = true) :
    ∀ c ∈ u, isBlank c = false := fun c hc => isBlank_of_word (hu c hc)

/-- A header stands in the other text with other blanks. -/
theorem Header.respaced (h : Header) {rest : List Char} (hr : Respaced (h.text ++ rest) y) :
    ∃ (h' : Header) (rest' : List Char), y = h'.text ++ rest' ∧ h'.name = h.name ∧
      Respaced rest rest' := by
  have htext : h.text ++ rest = h.keyword ++ (h.afterKernel ++ ("void".toList ++
      (h.afterVoid ++ (h.name ++ (h.afterName ++ (['('] ++ rest)))))) := by
    simp [text]
  rw [htext] at hr
  obtain ⟨y, rfl, hkeyword⟩ := hr.word (notBlank_of_words h.word_keyword)
  obtain ⟨afterKernel, y, rfl, hkernel, hkernelNil, hvoid⟩ :=
    hkeyword.gap h.blankKernel.2 (by decide) (notBlank_of_words word_void)
  obtain ⟨afterVoid, y, rfl, hblank, hblankNil, hname⟩ :=
    hvoid.gap h.blankVoid.2 h.name_ne_nil (notBlank_of_words h.named.word)
  obtain ⟨afterName, y, rfl, hbefore, _, hrest⟩ :=
    hname.gap h.blankName (by decide) (by simp [isBlank])
  refine ⟨⟨h.marks, afterKernel, afterVoid, h.name, afterName, h.marked,
    ⟨mt hkernelNil.mpr h.blankKernel.1, hkernel⟩, ⟨mt hblankNil.mpr h.blankVoid.1, hblank⟩, h.named,
    hbefore⟩, y, ?_, rfl, hrest⟩
  simp [text, keyword]

theorem interface?_respaced (h : Respaced x y) {i : Interface} (hi : interface? x = some i) :
    ∃ j, interface? y = some j ∧ j.key = i.key := by
  obtain ⟨head, s, rest, rfl, hs, rfl⟩ := interface?_eq_some_iff.mp hi
  obtain ⟨head', y, rfl, hname, hr⟩ := head.respaced h
  obtain ⟨s', rest', rfl, hlist, _, _⟩ := hr.cut (by decide)
  refine ⟨⟨String.ofList head'.name, String.ofList s'⟩, ?_, ?_⟩
  · exact interface?_eq_some_iff.mpr ⟨head', s', rest', rfl, hs.of_visible hlist.visible_eq, rfl⟩
  · simp [Interface.key, hname, hlist.collapse_eq]

theorem map_key_interface? (h : Respaced x y) :
    (interface? x).map Interface.key = (interface? y).map Interface.key := by
  cases hx : interface? x with
  | some i =>
      obtain ⟨j, hy, hkey⟩ := interface?_respaced h hx
      rw [hy, Option.map_some, Option.map_some, hkey]
  | none =>
      cases hy : interface? y with
      | none => rfl
      | some j =>
          obtain ⟨i, hi, _⟩ := interface?_respaced h.symm hy
          rw [hi] at hx
          cases hx

theorem declaredFrom_of_blank {g : List Char} (hg : ∀ c ∈ g, isBlank c = true) (inWord : Bool) :
    declaredFrom inWord g = [] := by
  by_cases hne : g = []
  · rw [hne]
    rfl
  · rw [← List.append_nil g, declaredFrom_blanks hne hg]
    rfl

/-- The same is declared in both texts, up to blanks. -/
theorem map_key_declaredFrom (h : Respaced x y) (inWord : Bool) :
    (declaredFrom inWord x).map Interface.key = (declaredFrom inWord y).map Interface.key := by
  induction h generalizing inWord with
  | ends hg hg' => rw [declaredFrom_of_blank hg, declaredFrom_of_blank hg']
  | @visible c x y hc rest ih =>
      have hfound := map_key_interface? (.visible hc rest)
      rw [declaredFrom, declaredFrom, List.map_append, List.map_append, ih]
      cases inWord with
      | true => rfl
      | false =>
          have hlist := congrArg Option.toList hfound
          rw [Option.toList_map, Option.toList_map] at hlist
          exact congrArg (· ++ _) hlist
  | blanks hg hg' _ ih => rw [declaredFrom_blanks hg.1 hg.2, declaredFrom_blanks hg'.1 hg'.2, ih]

/-- A text declares what its words declare. -/
theorem map_key_collapse (x : List Char) :
    (declaredFrom false (collapse x)).map Interface.key =
      (declaredFrom false x).map Interface.key := by
  have hspace (z : List Char) : declaredFrom false (' ' :: z) = declaredFrom false z :=
    declaredFrom_other (by decide) false z
  have hsame := map_key_declaredFrom (respaced_collapse x) false
  rw [hspace, hspace] at hsame
  exact hsame.symm

end Declarations

section Choices

theorem map_key_distinctFrom {found found' : List Interface}
    (h : found.map Interface.key = found'.map Interface.key) (seen : List (String × List Char)) :
    (distinctFrom seen found).map Interface.key = (distinctFrom seen found').map Interface.key := by
  induction found generalizing found' seen with
  | nil =>
      rw [List.map_eq_nil_iff.mp h.symm]
  | cons i found ih =>
      obtain ⟨j, found', rfl, hkey, hrest⟩ := List.map_eq_cons_iff.mp h.symm
      rw [distinctFrom, distinctFrom, hkey]
      split
      · exact ih hrest.symm seen
      · rw [List.map_cons, List.map_cons, hkey, ih hrest.symm]

/-- Texts of the same words have the same kernels, up to blanks. -/
theorem map_key_kernels {x y : List Char} (h : words x = words y) :
    (kernels x).map Interface.key = (kernels y).map Interface.key := by
  have hcollapse : collapse x = collapse y := congrArg (joinWith [' ']) h
  refine map_key_distinctFrom ?_ []
  rw [← map_key_collapse x, hcollapse, map_key_collapse]

/-- Whoever asks for a kernel gets the same one of both, up to blanks, or the same error. -/
theorem select_agree {found found' : List Interface}
    (h : found.map Interface.key = found'.map Interface.key) (name : Option String) :
    (select name found).map Interface.key = (select name found').map Interface.key := by
  have hnames : found.map (·.name) = found'.map (·.name) := by
    simpa [Interface.key, Function.comp_def] using congrArg (List.map Prod.fst) h
  have hcount : found.length = found'.length := by simpa using congrArg List.length h
  cases name with
  | none =>
      match found, found', hcount, h, hnames with
      | [], [], _, _, _ => rfl
      | [i], [j], _, hkeys, _ => exact congrArg Except.ok (List.cons.inj hkeys).1
      | _ :: _ :: _, _ :: _ :: _, _, _, hnames =>
          exact congrArg (fun names => Except.error (Failure.kernel (.ambiguous names))) hnames
  | some wanted =>
      have hfilter : (found.filter (·.name == wanted)).map Interface.key =
          (found'.filter (·.name == wanted)).map Interface.key := by
        have hkeys := congrArg (List.filter (·.1 == wanted)) h
        rwa [List.filter_map, List.filter_map] at hkeys
      have hmeant : (found.filter (·.name == wanted)).length =
          (found'.filter (·.name == wanted)).length := by
        simpa using congrArg List.length hfilter
      have herror : notFound (some wanted) found = notFound (some wanted) found' :=
        congrArg (fun names => Failure.kernel (.notFound (some wanted) names)) hnames
      rw [select, select, herror]
      generalize found.filter (·.name == wanted) = meant at hmeant hfilter
      generalize found'.filter (·.name == wanted) = meant' at hmeant hfilter
      match meant, meant', hmeant, hfilter with
      | [], [], _, _ => rfl
      | [i], [j], _, hkeys => exact congrArg Except.ok (List.cons.inj hkeys).1
      | _ :: _ :: _, _ :: _ :: _, _, _ => rfl

theorem interface_agree {source source' : String}
    (h : words (code source.toList) = words (code source'.toList)) (name : Option String) :
    (interface name source).map Interface.key = (interface name source').map Interface.key :=
  select_agree (map_key_kernels h) name

end Choices

end KernelLaunch.Source
