import Mathlib.Data.List.TakeWhile
import KernelLaunch.Proofs.Text.Lines
import KernelLaunch.Text.Word

/-!
Words of texts that are put together. Where no word goes on from one text to the
next, each is cut on its own. This holds for the two ways to cut a text: into runs
of word characters, and at blanks.
-/

namespace KernelLaunch.Text

/-- No row of characters of a kind goes on from one text to the next. -/
def Parted (p : Char → Bool) (x y : List Char) : Prop :=
  ∀ c ∈ x.getLast?, p c = true → ∀ d ∈ y.head?, p d = false

/-- A word that stands in a text as a whole. -/
def WordIn (word text : List Char) : Prop :=
  ∃ before after, text = before ++ word ++ after ∧
    Parted isWord before word ∧ Parted isWord word after

section Parted

variable {p : Char → Bool} {x y : List Char}

theorem Parted.of_head (h : ∀ d ∈ y.head?, p d = false) : Parted p x y := fun _ _ _ => h

theorem Parted.of_last (h : ∀ c ∈ x.getLast?, p c = false) : Parted p x y := by
  intro c hc hword
  rw [h c hc] at hword
  cases hword

theorem getLast?_append_cons (before : List Char) (c : Char) (x : List Char) :
    (before ++ c :: x).getLast? = (c :: x).getLast? := by
  rw [List.getLast?_append, List.getLast?_cons]
  rfl

theorem Parted.tail {c : Char} (h : Parted p (c :: x) y) : Parted p x y := by
  intro d hd
  cases x with
  | nil => cases hd
  | cons e x => exact h d hd

/-- What stands before a character of another kind does not matter. -/
theorem Parted.cons {c : Char} (hc : p c = false) (h : Parted p x y) (before : List Char) :
    Parted p (before ++ c :: x) y := by
  intro d hd
  rw [getLast?_append_cons] at hd
  cases x with
  | nil =>
      cases hd
      simp [hc]
  | cons e x => exact h d hd

end Parted

section Runs

theorem runs_of_not_word {c : Char} (hc : isWord c = false) (rest : List Char) :
    runs (c :: rest) = (false, [c]) :: runs rest := by
  rw [runs, if_neg (by rw [hc]; exact Bool.false_ne_true)]

/-- A word character goes to the word that follows it, if there is one. -/
theorem runs_of_word {c : Char} (hc : isWord c = true) {rest w : List Char}
    {more : List (Bool × List Char)} (h : runs rest = (true, w) :: more) :
    runs (c :: rest) = (true, c :: w) :: more := by
  rw [runs, if_pos hc, h]

theorem runs_of_lastWord {c : Char} (hc : isWord c = true) {rest : List Char}
    (h : ∀ d ∈ rest.head?, isWord d = false) : runs (c :: rest) = (true, [c]) :: runs rest := by
  cases rest with
  | nil => simp [runs, hc]
  | cons d rest => rw [runs, if_pos hc, runs_of_not_word (h d rfl)]

theorem runs_head {c : Char} (hc : isWord c = true) (rest : List Char) :
    ∃ w more, runs (c :: rest) = (true, c :: w) :: more := by
  cases hrest : runs rest with
  | nil => exact ⟨[], [], by rw [runs, if_pos hc, hrest]⟩
  | cons run more =>
      obtain ⟨isRun, w⟩ := run
      cases isRun with
      | true => exact ⟨w, more, runs_of_word hc hrest⟩
      | false => exact ⟨[], (false, w) :: more, by rw [runs, if_pos hc, hrest]⟩

theorem runs_append {x y : List Char} (h : Parted isWord x y) : runs (x ++ y) = runs x ++ runs y := by
  induction x with
  | nil => rfl
  | cons c x ih =>
      have hrest := ih h.tail
      rw [List.cons_append]
      by_cases hc : isWord c = true
      · cases x with
        | nil => rw [List.nil_append, runs_of_lastWord hc (h c rfl hc),
            runs_of_lastWord hc (by simp), List.cons_append, runs, List.nil_append]
        | cons d x =>
            by_cases hd : isWord d = true
            · obtain ⟨w, more, hx⟩ := runs_head hd x
              rw [hx, List.cons_append, List.cons_append] at hrest
              rw [List.cons_append, runs_of_word hc hrest, runs_of_word hc hx, List.cons_append]
            · rw [Bool.not_eq_true] at hd
              rw [List.cons_append, runs_of_lastWord hc (by rintro e ⟨⟩; exact hd),
                runs_of_lastWord hc (by rintro e ⟨⟩; exact hd), ← List.cons_append, hrest]
              rfl
      · rw [Bool.not_eq_true] at hc
        rw [runs_of_not_word hc, runs_of_not_word hc, hrest, List.cons_append]

theorem runs_word {w : List Char} (hne : w ≠ []) (hw : ∀ c ∈ w, isWord c = true) :
    runs w = [(true, w)] := by
  induction w with
  | nil => exact absurd rfl hne
  | cons c w ih =>
      have hc := hw c List.mem_cons_self
      cases w with
      | nil => rw [runs_of_lastWord hc (by simp), runs]
      | cons d w =>
          have hrest := ih (List.cons_ne_nil d w) fun e he => hw e (List.mem_cons_of_mem c he)
          rw [runs_of_word hc hrest]

theorem exists_firstWord {c : Char} (hc : isWord c = true) (rest : List Char) :
    ∃ first others, c :: rest = first ++ others ∧ first ≠ [] ∧ (∀ d ∈ first, isWord d = true) ∧
      ∀ d ∈ others.head?, isWord d = false := by
  refine ⟨(c :: rest).takeWhile isWord, (c :: rest).dropWhile isWord,
    List.takeWhile_append_dropWhile.symm, ?_, fun d hd => List.mem_takeWhile_imp hd, ?_⟩
  · rw [List.takeWhile_cons_of_pos hc]
    exact List.cons_ne_nil _ _
  · intro d hd
    have hhead := List.head?_dropWhile_not isWord (c :: rest)
    rw [hd] at hhead
    simpa using hhead

/-- Every run of word characters stands in the text as a whole. -/
theorem wordIn_of_mem_runs {w : List Char} {cs : List Char} (h : (true, w) ∈ runs cs) :
    WordIn w cs := by
  -- By the length, since a word is cut off as one piece.
  induction hn : cs.length using Nat.strong_induction_on generalizing cs with
  | _ n ih =>
    cases cs with
    | nil => cases h
    | cons c rest =>
        by_cases hc : isWord c = true
        · obtain ⟨first, others, hcut, hne, hfirst, hothers⟩ := exists_firstWord hc rest
          rw [hcut, runs_append (.of_head hothers), runs_word hne hfirst, List.singleton_append,
            List.mem_cons] at h
          rw [hcut]
          rcases h with heq | hmem
          · cases heq
            exact ⟨[], others, rfl, .of_last (by simp), .of_head hothers⟩
          · cases others with
            | nil => cases hmem
            | cons d others =>
                rw [runs_of_not_word (hothers d rfl)] at hmem
                have hshorter : others.length < n := by
                  rw [← hn, hcut, List.length_append, List.length_cons]
                  omega
                obtain ⟨before, after, rfl, hbefore, hafter⟩ :=
                  ih others.length hshorter (by simpa using hmem) rfl
                refine ⟨first ++ d :: before, after, ?_, hbefore.cons (hothers d rfl) first, hafter⟩
                simp only [List.append_assoc, List.cons_append]
        · rw [Bool.not_eq_true] at hc
          rw [runs_of_not_word hc] at h
          obtain ⟨before, after, rfl, hbefore, hafter⟩ :=
            ih rest.length (by simp [← hn]) (by simpa using h) rfl
          exact ⟨c :: before, after, rfl, hbefore.cons hc [], hafter⟩

theorem wordIn_iff {w cs : List Char} (hne : w ≠ []) (hw : ∀ c ∈ w, isWord c = true) :
    WordIn w cs ↔ (true, w) ∈ runs cs := by
  constructor
  · rintro ⟨before, after, rfl, hbefore, hafter⟩
    have hparted : Parted isWord before (w ++ after) := by
      cases w with
      | nil => exact absurd rfl hne
      | cons c w => exact hbefore
    rw [List.append_assoc, runs_append hparted, runs_append hafter, runs_word hne hw]
    simp
  · exact wordIn_of_mem_runs

end Runs

section Blanks

/-- A character that a word between blanks can hold. -/
def isNotBlank (c : Char) : Bool := !isBlank c

theorem isBlank_space : isBlank ' ' = true := by decide

theorem blank_space : ∀ c ∈ [' '], isBlank c = true := by simpa using isBlank_space

theorem splitWords_append (word x : List Char) {c : Char} (hc : isBlank c = true) (y : List Char) :
    splitWords word (x ++ c :: y) = splitWords word x ++ splitWords [] y := by
  induction x generalizing word with
  | nil =>
      rw [List.nil_append, splitWords, splitWords, if_pos hc]
      cases word with
      | nil => rfl
      | cons d word => rfl
  | cons d x ih =>
      rw [List.cons_append, splitWords, splitWords, ih, ih]
      split
      · split
        · rfl
        · rfl
      · rfl

theorem words_append {x y : List Char} (h : Parted isNotBlank x y) :
    words (x ++ y) = words x ++ words y := by
  rcases List.eq_nil_or_concat x with rfl | ⟨before, c, rfl⟩
  · rfl
  · cases y with
    | nil => rw [List.append_nil]; exact (List.append_nil _).symm
    | cons d y =>
        by_cases hc : isBlank c = true
        · have hcut := splitWords_append [] before hc []
          unfold words
          rw [List.concat_eq_append, List.append_assoc, List.singleton_append,
            splitWords_append [] before hc, hcut]
          simp [splitWords]
        · have hd : isBlank d = true := by
            have hnext := h c (by simp) (by simp [isNotBlank, hc]) d rfl
            simpa [isNotBlank] using hnext
          have hcut := splitWords_append [] [] hd y
          unfold words
          rw [splitWords_append [] _ hd, ← List.nil_append (d :: y), hcut]
          rfl

theorem splitWords_notBlank {word w : List Char} (hw : ∀ c ∈ w, isBlank c = false)
    (hne : word ++ w ≠ []) : splitWords word w = [word ++ w] := by
  induction w generalizing word with
  | nil =>
      rw [List.append_nil] at hne ⊢
      rw [splitWords, if_neg (by simpa using hne)]
  | cons c w ih =>
      rw [splitWords, if_neg (by simp [hw c List.mem_cons_self]),
        ih (fun d hd => hw d (List.mem_cons_of_mem c hd)) (by simp)]
      simp

theorem words_notBlank {w : List Char} (hne : w ≠ []) (hw : ∀ c ∈ w, isBlank c = false) :
    words w = [w] := splitWords_notBlank hw hne

theorem words_blank {c : Char} (hc : isBlank c = true) : words [c] = [] := by
  rw [words, splitWords, if_pos hc]
  rfl

theorem words_blanks {g : List Char} (hg : ∀ c ∈ g, isBlank c = true) : words g = [] := by
  induction g with
  | nil => rfl
  | cons c g ih =>
      have hparted : Parted isNotBlank [c] g := by
        apply Parted.of_last
        rintro d ⟨⟩
        simp [isNotBlank, hg c List.mem_cons_self]
      rw [← List.singleton_append, words_append hparted, words_blank (hg c List.mem_cons_self),
        ih fun d hd => hg d (List.mem_cons_of_mem c hd)]
      rfl

/-- Blanks around a text belong to no word. -/
theorem words_padded {g g' : List Char} (hg : ∀ c ∈ g, isBlank c = true)
    (hg' : ∀ c ∈ g', isBlank c = true) (x : List Char) : words (g ++ (x ++ g')) = words x := by
  have hleft : Parted isNotBlank g (x ++ g') := by
    apply Parted.of_last
    intro c hc
    simp [isNotBlank, hg c (List.mem_of_mem_getLast? hc)]
  have hright : Parted isNotBlank x g' := by
    apply Parted.of_head
    intro c hc
    simp [isNotBlank, hg' c (List.mem_of_mem_head? hc)]
  rw [words_append hleft, words_append hright, words_blanks hg, words_blanks hg',
    List.nil_append, List.append_nil]

theorem collapse_padded {g g' : List Char} (hg : ∀ c ∈ g, isBlank c = true)
    (hg' : ∀ c ∈ g', isBlank c = true) (x : List Char) :
    collapse (g ++ (x ++ g')) = collapse x := by
  rw [collapse, words_padded hg hg', collapse]

/-- A word ends at blanks. -/
theorem splitWords_blanks {g : List Char} (hne : g ≠ []) (hg : ∀ c ∈ g, isBlank c = true)
    (word x : List Char) : splitWords word (g ++ x) = splitWords word [] ++ splitWords [] x := by
  cases g with
  | nil => exact absurd rfl hne
  | cons c g =>
      have hrest : words (g ++ (x ++ [])) = words x :=
        words_padded (fun d hd => hg d (List.mem_cons_of_mem c hd)) (by simp) x
      rw [List.append_nil] at hrest
      exact (splitWords_append word [] (hg c List.mem_cons_self) (g ++ x)).trans
        (congrArg (splitWords word [] ++ ·) hrest)

/-- A text without its blanks. -/
def visible (cs : List Char) : List Char := cs.filter isNotBlank

theorem visible_eq_nil_iff {cs : List Char} : visible cs = [] ↔ ∀ c ∈ cs, isBlank c = true := by
  simp [visible, isNotBlank]

theorem visible_append (x y : List Char) : visible (x ++ y) = visible x ++ visible y :=
  List.filter_append x y

theorem visible_flatten (parts : List (List Char)) :
    visible parts.flatten = (parts.map visible).flatten :=
  List.filter_flatten

/-- The words of a text hold all of it but the blanks. -/
theorem flatten_splitWords (word cs : List Char) :
    (splitWords word cs).flatten = word ++ visible cs := by
  unfold visible
  induction cs generalizing word with
  | nil => cases word <;> simp [splitWords]
  | cons c cs ih =>
      rw [splitWords]
      split
      · next hc =>
        have hnot : isNotBlank c = false := by simp [isNotBlank, hc]
        split
        · next hempty => simp [ih, hnot, List.isEmpty_iff.mp hempty]
        · simp [ih, hnot]
      · next hc =>
        have hnot : isNotBlank c = true := by simp [isNotBlank, hc]
        simp [ih, hnot]

/-- A text that does not end in a blank ends in a word. -/
theorem words_snoc {c : Char} (hc : isBlank c = false) (x : List Char) :
    ∃ ws w, words (x ++ [c]) = ws ++ [w] ∧ c ∈ w := by
  suffices h : ∀ word, ∃ ws w, splitWords word (x ++ [c]) = ws ++ [w] ∧ c ∈ w from h []
  induction x with
  | nil =>
      intro word
      refine ⟨[], word ++ [c], ?_, by simp⟩
      simp [splitWords, hc]
  | cons d x ih =>
      intro word
      rw [List.cons_append, splitWords]
      split
      · split
        · exact ih []
        · obtain ⟨ws, w, hws, hmem⟩ := ih []
          exact ⟨word :: ws, w, by rw [hws, List.cons_append], hmem⟩
      · exact ih (word ++ [d])

/-- No visible character is lost. -/
theorem mem_collapse {c : Char} (hc : isBlank c = false) {cs : List Char} (h : c ∈ cs) :
    c ∈ collapse cs := by
  have hflat : c ∈ (words cs).flatten := by
    rw [words, flatten_splitWords, List.nil_append]
    exact List.mem_filter.mpr ⟨h, by simp [isNotBlank, hc]⟩
  obtain ⟨w, hw, hmem⟩ := List.mem_flatten.mp hflat
  exact mem_joinWith hw hmem [' ']

theorem mem_of_mem_joinWith {c : Char} {sep : List Char} {parts : List (List Char)}
    (h : c ∈ joinWith sep parts) : c ∈ sep ∨ ∃ part ∈ parts, c ∈ part := by
  induction parts with
  | nil => cases h
  | cons part parts ih =>
      by_cases hne : parts = []
      · subst hne
        exact .inr ⟨part, List.mem_cons_self, h⟩
      · rw [joinWith_cons _ _ hne, List.append_assoc, List.mem_append, List.mem_append] at h
        rcases h with hpart | hsep | hrest
        · exact .inr ⟨part, List.mem_cons_self, hpart⟩
        · exact .inl hsep
        · exact (ih hrest).imp_right fun ⟨other, hother, hc⟩ =>
            ⟨other, List.mem_cons_of_mem part hother, hc⟩

theorem notBlank_of_mem_words {cs w : List Char} (h : w ∈ words cs) :
    ∀ c ∈ w, isBlank c = false := by
  suffices hsplit : ∀ word, (∀ c ∈ word, isBlank c = false) → w ∈ splitWords word cs →
      ∀ c ∈ w, isBlank c = false from hsplit [] (by simp) h
  clear h
  induction cs with
  | nil =>
      intro word hword hw
      rw [splitWords] at hw
      split at hw
      · cases hw
      · rwa [List.mem_singleton.mp hw]
  | cons c cs ih =>
      intro word hword hw
      rw [splitWords] at hw
      split at hw
      · split at hw
        · exact ih [] (by simp) hw
        · rcases List.mem_cons.mp hw with rfl | hw
          · exact hword
          · exact ih [] (by simp) hw
      · next hc =>
        refine ih (word ++ [c]) (fun d hd => ?_) hw
        rcases List.mem_append.mp hd with hd | hd
        · exact hword d hd
        · rw [List.mem_singleton.mp hd]
          simpa using hc

/-- Between words there are spaces and no other blanks. -/
theorem eq_space_of_mem_collapse {c : Char} {cs : List Char} (h : c ∈ collapse cs)
    (hc : isBlank c = true) : c = ' ' := by
  rcases mem_of_mem_joinWith h with hsep | ⟨w, hw, hmem⟩
  · exact List.mem_singleton.mp hsep
  · rw [notBlank_of_mem_words hw c hmem] at hc
    cases hc

/-- The last part stands at the end. -/
theorem joinWith_snoc (sep : List Char) (parts : List (List Char)) (last : List Char) :
    joinWith sep (parts ++ [last]) = parts.flatMap (· ++ sep) ++ last := by
  induction parts with
  | nil => rfl
  | cons part parts ih =>
      rw [List.cons_append, joinWith_cons _ _ (by simp), ih, List.flatMap_cons, List.append_assoc,
        List.append_assoc, List.append_assoc]

/-- Words with a space between each two are these words. -/
theorem words_joinWith {ws : List (List Char)}
    (h : ∀ w ∈ ws, w ≠ [] ∧ ∀ c ∈ w, isBlank c = false) : words (joinWith [' '] ws) = ws := by
  induction ws with
  | nil => rfl
  | cons w ws ih =>
      obtain ⟨hne, hw⟩ := h w List.mem_cons_self
      have hrest := ih fun v hv => h v (List.mem_cons_of_mem w hv)
      cases ws with
      | nil => exact words_notBlank hne hw
      | cons v ws =>
          rw [joinWith_cons _ _ (List.cons_ne_nil v ws), List.append_assoc, List.singleton_append,
            words, splitWords_append [] w isBlank_space]
          exact congrArg₂ List.append (words_notBlank hne hw) hrest

theorem visible_joinWith (sep : List Char) (parts : List (List Char)) :
    visible (joinWith sep parts) = joinWith (visible sep) (parts.map visible) := by
  induction parts with
  | nil => rfl
  | cons part parts ih =>
      by_cases hne : parts = []
      · subst hne
        rfl
      · rw [joinWith_cons _ _ hne, visible_append, visible_append, ih, List.map_cons,
          joinWith_cons _ _ (by simpa using hne)]

theorem joinWith_nothing (parts : List (List Char)) : joinWith [] parts = parts.flatten := by
  induction parts with
  | nil => rfl
  | cons part parts ih =>
      by_cases hne : parts = []
      · simp [hne, joinWith]
      · rw [joinWith_cons _ _ hne, ih, List.append_nil, List.flatten_cons]

theorem visible_collapse (cs : List Char) : visible (collapse cs) = visible cs := by
  have hwords : (words cs).flatten = visible cs := by
    rw [words, flatten_splitWords, List.nil_append]
  have hspace : visible [' '] = [] := by decide
  rw [collapse, visible_joinWith, hspace, joinWith_nothing, ← visible_flatten, hwords, visible,
    visible, List.filter_filter]
  simp only [Bool.and_self]

theorem collapse_joinWith {ws : List (List Char)}
    (h : ∀ w ∈ ws, w ≠ [] ∧ ∀ c ∈ w, isBlank c = false) :
    collapse (joinWith [' '] ws) = joinWith [' '] ws := by
  rw [collapse, words_joinWith h]

end Blanks

end KernelLaunch.Text
