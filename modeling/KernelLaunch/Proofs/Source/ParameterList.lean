import KernelLaunch.Proofs.Signature.Parts
import KernelLaunch.Proofs.Source.Declared

/-!
Where parameter lists end. A list ends at the first bracket with which as many brackets are
closed as are opened, and it is one if that is a parenthesis. A list within a list ends in it.
No header goes across a character that is of no word, no blank and no opening parenthesis, so
what a text declares before such a character is found whatever stands after it, as long as its
parameter lists end before it.
-/

namespace KernelLaunch.Source

open Signature Text

section Lists

/-- Whether `depth + 1` open brackets are all closed in a text. -/
def closes : (depth : Nat) → List Char → Bool
  | _, [] => false
  | depth, c :: rest =>
      if c = '(' ∨ c = '[' then closes (depth + 1) rest
      else if c = ')' ∨ c = ']' then
        match depth with
        | 0 => true
        | depth + 1 => closes depth rest
      else closes depth rest

theorem closes_open {c : Char} (h : c = '(' ∨ c = '[') (depth : Nat) (rest : List Char) :
    closes depth (c :: rest) = closes (depth + 1) rest := by
  rw [closes.eq_def]
  exact if_pos h

theorem closes_plain {c : Char} (h : ¬ (c = '(' ∨ c = '[')) (h' : ¬ (c = ')' ∨ c = ']'))
    (depth : Nat) (rest : List Char) : closes depth (c :: rest) = closes depth rest := by
  rw [closes.eq_def]
  exact (if_neg h).trans (if_neg h')

theorem closes_close {c : Char} (h : c = ')' ∨ c = ']') (depth : Nat) (rest : List Char) :
    closes (depth + 1) (c :: rest) = closes depth rest := by
  have hopen : ¬ (c = '(' ∨ c = '[') := by
    rcases h with rfl | rfl <;> decide
  rw [closes.eq_def]
  exact (if_neg hopen).trans (if_pos h)

theorem closes_last {c : Char} (h : c = ')' ∨ c = ']') (rest : List Char) :
    closes 0 (c :: rest) = true := by
  have hopen : ¬ (c = '(' ∨ c = '[') := by
    rcases h with rfl | rfl <;> decide
  rw [closes.eq_def]
  exact (if_neg hopen).trans (if_pos h)

/-- A parameter list that ends in a text does not depend on what follows. -/
theorem balanced?_append {depth : Nat} {cs : List Char} (h : closes depth cs = true)
    (rest : List Char) : balanced? depth (cs ++ rest) = balanced? depth cs := by
  induction cs generalizing depth with
  | nil => cases h
  | cons c cs ih =>
      rw [List.cons_append]
      by_cases hopen : c = '(' ∨ c = '['
      · rw [balanced?_open hopen, balanced?_open hopen, ih (by rwa [closes_open hopen] at h)]
      · by_cases hclose : c = ')' ∨ c = ']'
        · cases depth with
          | zero => rw [balanced?_last hclose, balanced?_last hclose]
          | succ depth =>
              rw [balanced?_close hclose, balanced?_close hclose,
                ih (by rwa [closes_close hclose] at h)]
        · rw [balanced?_plain hopen hclose, balanced?_plain hopen hclose,
            ih (by rwa [closes_plain hopen hclose] at h)]

theorem bracketStep_open {c : Char} (h : c = '(' ∨ c = '[') : bracketStep c = 1 := if_pos h

theorem bracketStep_close {c : Char} (h : c = ')' ∨ c = ']') : bracketStep c = -1 := by
  rcases h with rfl | rfl <;> rfl

theorem bracketStep_other {c : Char} (h : ¬ (c = '(' ∨ c = '[')) (h' : ¬ (c = ')' ∨ c = ']')) :
    bracketStep c = 0 :=
  (if_neg h).trans (if_neg h')

/-- Some beginning of a text closes as many brackets more than it opens as are open before it. -/
def Balances (opened : Int) (cs : List Char) : Prop :=
  ∃ inner, inner <+: cs ∧ opened + balance inner = 0

theorem balances_nil {opened : Int} : Balances opened [] ↔ opened = 0 := by
  simp [Balances]

theorem balances_cons {opened : Int} {c : Char} {cs : List Char} :
    Balances opened (c :: cs) ↔ opened = 0 ∨ Balances (opened + bracketStep c) cs := by
  constructor
  · rintro ⟨inner, hinner, hzero⟩
    rcases List.prefix_cons_iff.mp hinner with rfl | ⟨more, rfl, hmore⟩
    · exact .inl (by simpa using hzero)
    · exact .inr ⟨more, hmore, by rw [balance_cons] at hzero; omega⟩
  · rintro (hzero | ⟨inner, hinner, hzero⟩)
    · exact ⟨[], List.nil_prefix, by simpa using hzero⟩
    · exact ⟨c :: inner, List.cons_prefix_cons.mpr ⟨rfl, hinner⟩, by rw [balance_cons]; omega⟩

theorem closes_iff {depth : Nat} {cs : List Char} :
    closes depth cs = true ↔ Balances (depth + 1) cs := by
  induction cs generalizing depth with
  | nil =>
      rw [balances_nil, closes]
      simp
      omega
  | cons c cs ih =>
      have hopened : (depth : Int) + 1 ≠ 0 := by omega
      rw [balances_cons, or_iff_right hopened]
      by_cases hopen : c = '(' ∨ c = '['
      · rw [closes_open hopen, ih, bracketStep_open hopen, Int.natCast_succ]
      · by_cases hclose : c = ')' ∨ c = ']'
        · rw [bracketStep_close hclose, add_neg_cancel_right]
          cases depth with
          | zero => exact iff_of_true (closes_last hclose cs) ⟨[], List.nil_prefix, rfl⟩
          | succ depth => rw [closes_close hclose, ih, Int.natCast_succ]
        · rw [closes_plain hopen hclose, ih, bracketStep_other hopen hclose, add_zero]

/-- A text that closes more brackets than are open closes all of these. -/
theorem closes_of_balance {depth : Nat} {cs : List Char} (h : (depth : Int) + balance cs < 0) :
    closes depth cs = true := by
  induction cs generalizing depth with
  | nil =>
      rw [balance_nil] at h
      omega
  | cons c cs ih =>
      rw [balance_cons] at h
      by_cases hopen : c = '(' ∨ c = '['
      · rw [bracketStep_open hopen] at h
        rw [closes_open hopen]
        exact ih (by push_cast; omega)
      · by_cases hclose : c = ')' ∨ c = ']'
        · rw [bracketStep_close hclose] at h
          cases depth with
          | zero => exact closes_last hclose cs
          | succ depth =>
              rw [closes_close hclose]
              exact ih (by push_cast at h; omega)
        · rw [bracketStep_other hopen hclose] at h
          rw [closes_plain hopen hclose]
          exact ih (by omega)

theorem map_cons_eq_some {c : Char} {s : List Char} {o : Option (List Char)} :
    o.map (c :: ·) = some (c :: s) ↔ o = some s := by
  simp

/-- The list that a text begins with is all of the text before a parenthesis. -/
theorem balanced?_whole_iff {depth : Nat} {s : List Char} (rest : List Char) :
    balanced? depth (s ++ ')' :: rest) = some s ↔
      closes depth s = false ∧ (depth : Int) + balance s = 0 := by
  induction s generalizing depth with
  | nil =>
      cases depth with
      | zero => exact iff_of_true rfl ⟨rfl, rfl⟩
      | succ depth =>
          rw [List.nil_append, balanced?_close (.inl rfl)]
          simp [closes]
          omega
  | cons c s ih =>
      rw [List.cons_append, balance_cons]
      by_cases hopen : c = '(' ∨ c = '['
      · rw [balanced?_open hopen, closes_open hopen, bracketStep_open hopen, map_cons_eq_some, ih,
          Int.natCast_succ, add_assoc]
      · by_cases hclose : c = ')' ∨ c = ']'
        · rw [bracketStep_close hclose]
          cases depth with
          | zero =>
              rw [balanced?_last hclose, closes_last hclose]
              split <;> simp
          | succ depth =>
              rw [balanced?_close hclose, closes_close hclose, map_cons_eq_some, ih,
                Int.natCast_succ, add_assoc, add_neg_cancel_left]
        · rw [balanced?_plain hopen hclose, closes_plain hopen hclose,
            bracketStep_other hopen hclose, map_cons_eq_some, ih, zero_add]

/-- What stands in the parentheses of a parameter list: with the closing one, and not before,
as many brackets are closed as are opened. -/
def IsList (s : List Char) : Prop :=
  balance ('(' :: (s ++ [')'])) = 0 ∧ ∀ inner, inner <+: s → balance ('(' :: inner) ≠ 0

theorem isList_iff {s : List Char} : IsList s ↔ closes 0 s = false ∧ balance s = 0 := by
  have hopen : bracketStep '(' = 1 := rfl
  have hclose : bracketStep ')' = -1 := rfl
  rw [← Bool.not_eq_true, closes_iff, and_comm]
  simp only [IsList, Balances, balance_cons, balance_append, balance_nil, hopen, hclose,
    not_exists, not_and, Nat.cast_zero, zero_add, add_zero]
  rw [add_neg_cancel_comm_assoc]

theorem balanced?_eq_some_iff {cs s : List Char} :
    balanced? 0 cs = some s ↔ ∃ rest, cs = s ++ ')' :: rest ∧ IsList s := by
  constructor
  · intro h
    obtain ⟨rest, rfl, _⟩ := balanced?_inv h
    have hlist := (balanced?_whole_iff rest).mp h
    exact ⟨rest, rfl, isList_iff.mpr (by simpa using hlist)⟩
  · rintro ⟨rest, rfl, hlist⟩
    exact (balanced?_whole_iff rest).mpr (by simpa using isList_iff.mp hlist)

/-- What a text begins with: a header and a parameter list. -/
theorem interface?_eq_some_iff {cs : List Char} {i : Interface} :
    interface? cs = some i ↔
      ∃ (head : Header) (s rest : List Char), cs = head.text ++ (s ++ ')' :: rest) ∧ IsList s ∧
        i = ⟨String.ofList head.name, String.ofList s⟩ := by
  simp only [interface?, Option.bind_eq_bind, Option.bind_eq_some_iff]
  constructor
  · rintro ⟨⟨name, more⟩, hheader, s, hlist, hresult⟩
    obtain ⟨head, rfl, rfl⟩ := header?_inv hheader
    obtain ⟨rest, rfl, hs⟩ := balanced?_eq_some_iff.mp hlist
    exact ⟨head, s, rest, rfl, hs, (Option.some.inj hresult).symm⟩
  · rintro ⟨head, s, rest, rfl, hs, rfl⟩
    exact ⟨_, header?_text head _, s, balanced?_eq_some_iff.mpr ⟨rest, rfl, hs⟩, rfl⟩

end Lists

section Openings

/-- What stands behind each header of a text: the beginnings of its parameter lists. -/
def openings : (inWord : Bool) → List Char → List (List Char)
  | _, [] => []
  | inWord, c :: rest =>
      let found := if inWord then none else header? (c :: rest)
      found.toList.map Prod.snd ++ openings (isWord c) rest

/-- Whether all parameter lists that begin in a text end in it. -/
def ListsEnd (x : List Char) : Prop := ∀ opening ∈ openings false x, closes 0 opening = true

instance (x : List Char) : Decidable (ListsEnd x) := inferInstanceAs (Decidable (∀ _ ∈ _, _))

theorem opening_suffix {inWord : Bool} {x opening : List Char} (h : opening ∈ openings inWord x) :
    ∃ before, x = before ++ '(' :: opening := by
  induction x generalizing inWord with
  | nil => cases h
  | cons c x ih =>
      rcases List.mem_append.mp h with hfound | hrest
      · obtain ⟨⟨name, rest⟩, hheader, rfl⟩ := List.mem_map.mp hfound
        cases inWord with
        | true => cases hheader
        | false =>
            obtain ⟨head, _, heq⟩ := header?_inv (Option.mem_toList.mp hheader)
            obtain ⟨before, hbefore⟩ := head.exists_paren
            exact ⟨before, by rw [heq, hbefore, List.append_assoc, List.singleton_append]⟩
      · obtain ⟨before, rfl⟩ := ih hrest
        exact ⟨c :: before, rfl⟩

/-- A list within a list ends in it. -/
theorem IsList.listsEnd {s : List Char} (h : IsList s) : ListsEnd s := by
  intro opening hopening
  obtain ⟨before, rfl⟩ := opening_suffix hopening
  obtain ⟨hlevel, hnever⟩ := h
  have hbefore : 0 ≤ balance before := by
    by_contra hnegative
    have hcloses : closes 0 before = true := closes_of_balance (by simpa using hnegative)
    obtain ⟨inner, hinner, hzero⟩ := closes_iff.mp hcloses
    refine hnever inner (hinner.trans (List.prefix_append _ _)) ?_
    rw [balance_cons]
    simpa [bracketStep] using hzero
  apply closes_of_balance
  simp only [balance_cons, balance_append, bracketStep] at hlevel
  simp at hlevel
  omega

end Openings

section Stops

/-- A character that no header holds. -/
def IsStop (b : Char) : Prop := isWord b = false ∧ isBlank b = false ∧ b ≠ '('

instance (b : Char) : Decidable (IsStop b) := inferInstanceAs (Decidable (_ ∧ _))

variable {b : Char}

theorem Header.stop_not_mem (hb : IsStop b) (h : Header) : b ∉ h.text := by
  obtain ⟨hword, hblank, hparen⟩ := hb
  have words {cs : List Char} (hcs : ∀ c ∈ cs, isWord c = true) : b ∉ cs := by
    intro hmem
    rw [hcs _ hmem] at hword
    cases hword
  have blanks {cs : List Char} (hcs : ∀ c ∈ cs, isBlank c = true) : b ∉ cs := by
    intro hmem
    rw [hcs _ hmem] at hblank
    cases hblank
  simp only [text, List.mem_append, List.mem_singleton, not_or]
  exact ⟨words h.word_keyword, blanks h.blankKernel.2, words word_void, blanks h.blankVoid.2,
    words h.named.word, blanks h.blankName, hparen⟩

/-- No header goes across a stop. -/
theorem header?_stop (hb : IsStop b) (cs rest : List Char) :
    header? (cs ++ b :: rest) =
      (header? cs).map fun found => (found.1, found.2 ++ b :: rest) := by
  cases hheader : header? cs with
  | some found =>
      obtain ⟨name, after⟩ := found
      obtain ⟨head, rfl, rfl⟩ := header?_inv hheader
      rw [List.append_assoc, header?_text]
      rfl
  | none =>
      rw [Option.map_none, Option.eq_none_iff_forall_ne_some]
      rintro ⟨name, after⟩ hfound
      obtain ⟨head, _, heq⟩ := header?_inv hfound
      -- The header ends before the stop, so it is one of the text alone.
      obtain ⟨more, rfl⟩ : ∃ more, cs = head.text ++ more := by
        rcases List.append_eq_append_iff.mp heq with ⟨more, htext, hstop⟩ | ⟨more, hcs, _⟩
        · cases more with
          | nil => exact ⟨[], by rw [htext, List.append_nil, List.append_nil]⟩
          | cons c more =>
              obtain ⟨rfl, _⟩ := List.cons.inj hstop
              exact absurd (htext ▸ by simp) (head.stop_not_mem hb)
        · exact ⟨more, hcs⟩
      rw [header?_text] at hheader
      cases hheader

theorem interface?_stop (hb : IsStop b) {cs : List Char}
    (h : ∀ found ∈ header? cs, closes 0 found.2 = true) (rest : List Char) :
    interface? (cs ++ b :: rest) = interface? cs := by
  unfold interface?
  rw [header?_stop hb]
  cases hheader : header? cs with
  | none => rfl
  | some found =>
      have hlist := balanced?_append (h found hheader) (b :: rest)
      simp only [Option.map_some, Option.bind_eq_bind, Option.bind_some, hlist]

theorem declaredFrom_at_stop (hb : IsStop b) (inWord : Bool) (rest : List Char) :
    declaredFrom inWord (b :: rest) = declaredFrom false rest := by
  have hletters : b ≠ 'k' ∧ b ≠ '_' := by
    refine ⟨?_, ?_⟩ <;> rintro rfl <;> exact absurd hb (by decide)
  rw [declaredFrom_other hletters, hb.1]

/-- What a text declares before a stop is found whatever stands behind it. -/
theorem declaredFrom_stop (hb : IsStop b) {x : List Char} {inWord : Bool}
    (h : ∀ opening ∈ openings inWord x, closes 0 opening = true) (rest : List Char) :
    declaredFrom inWord (x ++ b :: rest) =
      declaredFrom inWord x ++ declaredFrom false rest := by
  induction x generalizing inWord with
  | nil => exact declaredFrom_at_stop hb inWord rest
  | cons c x ih =>
      have hrest := ih fun opening hmem => h opening (List.mem_append_right _ hmem)
      have hfound : (if inWord then none else interface? (c :: x ++ b :: rest)) =
          if inWord then none else interface? (c :: x) := by
        cases inWord with
        | true => rfl
        | false =>
            apply interface?_stop hb
            intro found hheader
            apply h
            rw [openings]
            apply List.mem_append_left
            apply List.mem_map_of_mem
            rw [Option.mem_toList]
            exact hheader
      rw [List.cons_append, declaredFrom, declaredFrom, hrest, ← List.cons_append, hfound,
        List.append_assoc]

/-- A text without headers declares nothing. -/
theorem declaredFrom_of_openings {x : List Char} {inWord : Bool} (h : openings inWord x = []) :
    declaredFrom inWord x = [] := by
  induction x generalizing inWord with
  | nil => rfl
  | cons c x ih =>
      obtain ⟨hfound, hrest⟩ := List.append_eq_nil_iff.mp h
      rw [declaredFrom, ih hrest, List.append_nil]
      cases inWord with
      | true => rfl
      | false =>
          have hheader : header? (c :: x) = none := by simpa using hfound
          simp [interface?, hheader]

/-- Within a parameter list the same is declared whatever stands around it. -/
theorem IsList.declaredFrom {s : List Char} (h : IsList s) (rest : List Char) :
    declaredFrom false (s ++ ')' :: rest) = declaredFrom false s ++ declaredFrom false rest :=
  declaredFrom_stop (by decide) h.listsEnd rest

end Stops

end KernelLaunch.Source
