import KernelLaunch.Proofs.Source.Header
import KernelLaunch.Proofs.Source.Passage

/-!
Where declarations are found. A text is searched character by character; nothing
is found inside words, at blanks, and in a text without the word for kernels, as
long as its end does not go on a word. So a declaration that stands where a word
can begin is found once, and nothing else is found in it.
-/

namespace KernelLaunch.Source

open Text

theorem header?_isSome {cs name rest : List Char} (h : header? cs = some (name, rest)) :
    ∃ head : Header, head.keyword <+: cs := by
  obtain ⟨head, _, rfl⟩ := header?_inv h
  refine ⟨head, ?_⟩
  rw [Header.text, List.append_assoc]
  exact List.prefix_append _ _

theorem interface?_keyword {cs : List Char} {i : Interface} (h : interface? cs = some i) :
    ∃ head : Header, head.keyword <+: cs := by
  simp only [interface?, Option.bind_eq_bind, Option.bind_eq_some_iff] at h
  obtain ⟨⟨name, rest⟩, hheader, _⟩ := h
  exact header?_isSome hheader

/-- A keyword begins with an underscore or with the letter of `kernel`. -/
theorem interface?_other {c : Char} (hc : c ≠ 'k' ∧ c ≠ '_') (rest : List Char) :
    interface? (c :: rest) = none := by
  rw [Option.eq_none_iff_forall_ne_some]
  intro i hi
  obtain ⟨head, more, heq⟩ := interface?_keyword hi
  rcases head.marked with hmarks | hmarks
  · rw [Header.keyword, hmarks] at heq
    cases heq
    exact hc.1 rfl
  · rw [Header.keyword, hmarks] at heq
    cases heq
    exact hc.2 rfl

theorem declaredFrom_silent {inWord : Bool} {c : Char} {rest : List Char}
    (h : inWord = false → interface? (c :: rest) = none) :
    declaredFrom inWord (c :: rest) = declaredFrom (isWord c) rest := by
  rw [declaredFrom]
  cases inWord with
  | true => rfl
  | false => simp [h rfl]

theorem declaredFrom_other {c : Char} (hc : c ≠ 'k' ∧ c ≠ '_') (inWord : Bool)
    (rest : List Char) : declaredFrom inWord (c :: rest) = declaredFrom (isWord c) rest :=
  declaredFrom_silent fun _ => interface?_other hc rest

theorem declaredFrom_word {s : List Char} (h : ∀ c ∈ s, isWord c = true) (rest : List Char) :
    declaredFrom true (s ++ rest) = declaredFrom true rest := by
  induction s with
  | nil => rfl
  | cons c s ih =>
      rw [List.cons_append, declaredFrom_silent (by simp), h c List.mem_cons_self,
        ih fun d hd => h d (List.mem_cons_of_mem c hd)]

theorem declaredFrom_blanks {g : List Char} (hne : g ≠ []) (h : ∀ c ∈ g, isBlank c = true)
    (inWord : Bool) (rest : List Char) :
    declaredFrom inWord (g ++ rest) = declaredFrom false rest := by
  induction g generalizing inWord with
  | nil => exact absurd rfl hne
  | cons c g ih =>
      have hc : c ≠ 'k' ∧ c ≠ '_' := by
        have hblank := h c List.mem_cons_self
        refine ⟨?_, ?_⟩ <;> rintro rfl <;> exact absurd hblank (by decide)
      rw [List.cons_append, declaredFrom_other hc, isWord_of_blank (h c List.mem_cons_self)]
      by_cases hg : g = []
      · rw [hg, List.nil_append]
      · exact ih hg (fun d hd => h d (List.mem_cons_of_mem c hd)) false

/-- Whether the end of a text goes on a word; `inWord` is the answer for the
empty text. -/
def endsInWord (inWord : Bool) (t : List Char) : Bool := t.getLast?.elim inWord isWord

theorem endsInWord_cons (inWord : Bool) (c : Char) (t : List Char) :
    endsInWord inWord (c :: t) = endsInWord (isWord c) t := by
  cases t with
  | nil => rfl
  | cons d t => rfl

/-- No word goes on from one text to the next. -/
def Apart (t rest : List Char) : Prop :=
  ∀ c ∈ t.getLast?, isWord c = true → ∀ d ∈ rest.head?, isWord d = false

theorem Apart.tail {c : Char} {t rest : List Char} (h : Apart (c :: t) rest) : Apart t rest := by
  intro d hd
  cases t with
  | nil => cases hd
  | cons e t => exact h d hd

/-- A word that stands at the beginning of two texts stands in the first one, if
no word goes on from it to the second. -/
theorem prefix_of_apart {word t rest : List Char} (hword : ∀ c ∈ word, isWord c = true)
    (hne : t ≠ []) (happart : Apart t rest) (h : word <+: t ++ rest) : word <+: t := by
  rcases List.prefix_or_prefix_of_prefix h (List.prefix_append t rest) with hstarts | hstarts
  · exact hstarts
  · obtain ⟨more, rfl⟩ := hstarts
    obtain ⟨last, hlast⟩ : ∃ last, t.getLast? = some last := by
      cases hlast : t.getLast? with
      | none => exact absurd (List.getLast?_eq_none_iff.mp hlast) hne
      | some last => exact ⟨last, rfl⟩
    have hlastWord := hword last (List.mem_append_left _ (List.mem_of_getLast? hlast))
    cases more with
    | nil => rw [List.append_nil]
    | cons d more =>
        have hrest := (List.prefix_append_right_inj t).mp h
        obtain ⟨after, rfl⟩ := hrest
        have hd := hword d (List.mem_append_right _ List.mem_cons_self)
        rw [happart last hlast hlastWord d rfl] at hd
        cases hd

theorem declaredFrom_free {t rest : List Char} (hfree : ¬ "kernel".toList <:+: t)
    (happart : Apart t rest) (inWord : Bool) :
    declaredFrom inWord (t ++ rest) = declaredFrom (endsInWord inWord t) rest := by
  induction t generalizing inWord with
  | nil => rfl
  | cons c t ih =>
      have hnone : interface? (c :: t ++ rest) = none := by
        rw [Option.eq_none_iff_forall_ne_some]
        intro i hi
        obtain ⟨head, hkeyword⟩ := interface?_keyword hi
        have hstarts := prefix_of_apart head.word_keyword (by simp) happart hkeyword
        exact hfree ((List.suffix_append head.marks _).isInfix.trans hstarts.isInfix)
      rw [List.cons_append] at hnone ⊢
      rw [declaredFrom_silent fun _ => hnone, endsInWord_cons]
      exact ih (fun h => hfree (h.trans (List.suffix_cons c t).isInfix)) happart.tail (isWord c)

namespace Header

variable (h : Header)

/-- A name in a header is not itself the keyword of one. -/
theorem interface?_name (rest : List Char) :
    interface? (h.name ++ (h.afterName ++ '(' :: rest)) = none := by
  rw [Option.eq_none_iff_forall_ne_some]
  intro i hi
  simp only [interface?, Option.bind_eq_bind, Option.bind_eq_some_iff] at hi
  obtain ⟨⟨name, more⟩, hheader, _⟩ := hi
  obtain ⟨other, _, heq⟩ := header?_inv hheader
  have hname := (takeWhile_word h.named.word (h.head_afterName rest)).2
  have htail : other.text ++ more = other.keyword ++ (other.afterKernel ++ ("void".toList ++
      (other.afterVoid ++ (other.name ++ (other.afterName ++ '(' :: more))))) := by
    simp [text]
  have hother := (takeWhile_word other.word_keyword (head_blanks other.blankKernel.1
    other.blankKernel.2 ("void".toList ++ (other.afterVoid ++ (other.name ++
      (other.afterName ++ '(' :: more)))))).2
  -- After the name comes the parenthesis, after the keyword the word for no result.
  rw [heq, htail, hother] at hname
  have hleft : trimLeft (h.afterName ++ '(' :: rest) = '(' :: rest :=
    trimLeft_append h.blankName (by simp [isBlank])
  have hright := trimLeft_append other.blankKernel.2 (head_word (s := "void".toList)
    (by decide) word_void (other.afterVoid ++ (other.name ++ (other.afterName ++ '(' :: more))))
  rw [hname, hleft] at hright
  cases hright

/-- Inside a header nothing is found besides what begins with it. -/
theorem declaredFrom_text (rest : List Char) :
    declaredFrom false (h.text ++ rest) =
      (interface? (h.text ++ rest)).toList ++ declaredFrom false rest := by
  have htext : h.text ++ rest = h.keyword ++ (h.afterKernel ++ ("void".toList ++
      (h.afterVoid ++ (h.name ++ (h.afterName ++ '(' :: rest))))) := by
    simp [text]
  obtain ⟨first, more, hname, hfirst, hmore⟩ := h.named
  have hword := h.named.word
  have hparen : declaredFrom true (h.afterName ++ '(' :: rest) = declaredFrom false rest := by
    by_cases hne : h.afterName = []
    · rw [hne, List.nil_append, declaredFrom_other (by decide)]
      rfl
    · rw [declaredFrom_blanks hne h.blankName, declaredFrom_other (by decide)]
      rfl
  have hafterVoid : declaredFrom false (h.name ++ (h.afterName ++ '(' :: rest)) =
      declaredFrom false rest := by
    have hsilent := h.interface?_name rest
    rw [hname] at hsilent hword ⊢
    rw [List.cons_append] at hsilent ⊢
    rw [declaredFrom_silent fun _ => hsilent, hword first List.mem_cons_self,
      declaredFrom_word hmore, hparen]
  have hvoid : declaredFrom false ("void".toList ++ (h.afterVoid ++ (h.name ++
      (h.afterName ++ '(' :: rest)))) = declaredFrom false rest := by
    have hv : declaredFrom false ('v' :: ("oid".toList ++ (h.afterVoid ++ (h.name ++
        (h.afterName ++ '(' :: rest))))) = declaredFrom true ("oid".toList ++ (h.afterVoid ++
          (h.name ++ (h.afterName ++ '(' :: rest)))) := declaredFrom_other (by decide) _ _
    have hword : ∀ c ∈ "oid".toList, isWord c = true := fun c hc =>
      word_void c (List.mem_cons_of_mem 'v' hc)
    have hoid := declaredFrom_word hword (h.afterVoid ++ (h.name ++ (h.afterName ++ '(' :: rest)))
    exact (hv.trans hoid).trans
      ((declaredFrom_blanks h.blankVoid.1 h.blankVoid.2 true _).trans hafterVoid)
  have hkeyword := h.word_keyword
  rw [htext]
  cases hsplit : h.keyword with
  | nil => simp [keyword] at hsplit
  | cons c s =>
      rw [hsplit] at hkeyword
      rw [List.cons_append, declaredFrom, hkeyword c List.mem_cons_self,
        declaredFrom_word fun d hd => hkeyword d (List.mem_cons_of_mem c hd),
        declaredFrom_blanks h.blankKernel.1 h.blankKernel.2, hvoid]
      rfl

end Header

end KernelLaunch.Source
