import Mathlib.Data.List.Infix
import Mathlib.Data.List.TakeWhile
import KernelLaunch.Source.Interface

/-!
What a declaration looks like where it stands. A header is recognised by its own
characters, whatever follows them, and so is the declaration that it begins: it
ends with the parenthesis that closes its parameter list.
-/

namespace KernelLaunch

open Text

namespace Text

/-- The code points of the blank characters. -/
def blankCodes : List Nat :=
  [9, 10, 11, 12, 13, 28, 29, 30, 31, 32, 133, 160, 5760, 8192, 8193, 8194, 8195, 8196, 8197,
    8198, 8199, 8200, 8201, 8202, 8232, 8233, 8239, 8287, 12288]

theorem mem_blankCodes {c : Char} (h : isBlank c = true) : c.toNat ∈ blankCodes := by
  simp only [isBlank, Bool.or_eq_true, Bool.and_eq_true, decide_eq_true_eq, beq_iff_eq] at h
  simp only [blankCodes, List.mem_cons, List.not_mem_nil, or_false]
  omega

theorem isWord_of_blank {c : Char} (h : isBlank c = true) : isWord c = false := by
  have hall : ∀ n ∈ blankCodes, isWord (Char.ofNat n) = false := by
    -- The tables are checked much faster as lists.
    simp only [isWord, isWideWord, inRanges, ← Array.any_toList]
    decide +kernel
  have hc := hall c.toNat (mem_blankCodes h)
  rwa [Char.ofNat_toNat] at hc

theorem isBlank_of_word {c : Char} (h : isWord c = true) : isBlank c = false := by
  rw [← Bool.not_eq_true]
  intro hblank
  rw [isWord_of_blank hblank] at h
  cases h

theorem trimLeft_append {g rest : List Char} (hg : ∀ c ∈ g, isBlank c = true)
    (hrest : ∀ c ∈ rest.head?, isBlank c = false) : trimLeft (g ++ rest) = rest := by
  rw [trimLeft, List.dropWhile_append_of_pos hg]
  cases rest with
  | nil => rfl
  | cons c rest => exact List.dropWhile_cons_of_neg (by simpa using hrest c rfl)

end Text

namespace Source

theorem after?_eq_some_iff {beginning cs rest : List Char} :
    after? beginning cs = some rest ↔ cs = beginning ++ rest := by
  induction beginning generalizing cs with
  | nil => simp [after?]
  | cons b beginning ih =>
      cases cs with
      | nil => simp [after?]
      | cons c cs =>
          by_cases hb : b = c
          · simp [after?, hb, ih]
          · simp [after?, hb, Ne.symm hb]

theorem afterBlanks?_append {g rest : List Char} (hne : g ≠ [])
    (hg : ∀ c ∈ g, isBlank c = true) (hrest : ∀ c ∈ rest.head?, isBlank c = false) :
    afterBlanks? (g ++ rest) = some rest := by
  cases g with
  | nil => exact absurd rfl hne
  | cons c g =>
      have htrim := trimLeft_append (fun d hd => hg d (List.mem_cons_of_mem c hd)) hrest
      rw [List.cons_append, afterBlanks?, if_pos (hg c List.mem_cons_self), htrim]

theorem afterBlanks?_inv {cs rest : List Char} (h : afterBlanks? cs = some rest) :
    ∃ g, g ≠ [] ∧ (∀ c ∈ g, isBlank c = true) ∧ cs = g ++ rest := by
  cases cs with
  | nil => cases h
  | cons c cs =>
      rw [afterBlanks?] at h
      split at h
      · next hc =>
        cases h
        refine ⟨c :: cs.takeWhile isBlank, by simp, ?_, ?_⟩
        · intro d hd
          rcases List.mem_cons.mp hd with rfl | hd
          · exact hc
          · exact List.mem_takeWhile_imp hd
        · rw [List.cons_append, trimLeft, List.takeWhile_append_dropWhile]
      · cases h

/-- A name: word characters, the first of which can begin one. -/
def IsName (n : List Char) : Prop :=
  ∃ first rest, n = first :: rest ∧ isNameStart first = true ∧ ∀ c ∈ rest, isWord c = true

instance (n : List Char) : Decidable (IsName n) :=
  decidable_of_iff (n.head?.any isNameStart = true ∧ n.tail.all isWord = true) (by
    cases n with
    | nil => simp [IsName]
    | cons first rest => simp [IsName])

theorem toNat_of_nameStart {c : Char} (h : isNameStart c = true) : c.toNat < 128 := by
  simp only [isNameStart, isLatin, Bool.or_eq_true, Bool.and_eq_true, decide_eq_true_eq,
    beq_iff_eq, Char.le_def, UInt32.le_iff_toNat_le] at h
  rcases h with (⟨_, h⟩ | ⟨_, h⟩) | rfl
  · exact Nat.lt_of_le_of_lt h (by decide)
  · exact Nat.lt_of_le_of_lt h (by decide)
  · decide

theorem isWord_of_nameStart {c : Char} (h : isNameStart c = true) : isWord c = true := by
  have hascii := toNat_of_nameStart h
  simp only [isNameStart, Bool.or_eq_true] at h
  simp only [isWord, hascii, if_true, Bool.or_eq_true]
  rcases h with h | h
  · exact .inl (.inl h)
  · exact .inr h

theorem IsName.word {n : List Char} (h : IsName n) : ∀ c ∈ n, isWord c = true := by
  obtain ⟨first, rest, rfl, hfirst, hrest⟩ := h
  intro c hc
  rcases List.mem_cons.mp hc with rfl | hc
  · exact isWord_of_nameStart hfirst
  · exact hrest c hc

/-- A word ends before a character of no word. -/
theorem takeWhile_word {s rest : List Char} (hs : ∀ c ∈ s, isWord c = true)
    (hrest : ∀ c ∈ rest.head?, isWord c = false) :
    (s ++ rest).takeWhile isWord = s ∧ (s ++ rest).dropWhile isWord = rest := by
  rw [List.takeWhile_append_of_pos hs, List.dropWhile_append_of_pos hs]
  cases rest with
  | nil => simp
  | cons c rest =>
      have hc := hrest c rfl
      simp [hc]

theorem name?_append {n rest : List Char} (hn : IsName n)
    (hrest : ∀ c ∈ rest.head?, isWord c = false) : name? (n ++ rest) = some (n, rest) := by
  obtain ⟨first, more, rfl, hfirst, hmore⟩ := hn
  obtain ⟨htake, hdrop⟩ := takeWhile_word hmore hrest
  rw [List.cons_append, name?, if_pos hfirst, htake, hdrop]

theorem name?_inv {cs n rest : List Char} (h : name? cs = some (n, rest)) :
    IsName n ∧ cs = n ++ rest := by
  cases cs with
  | nil => cases h
  | cons c cs =>
      rw [name?] at h
      split at h
      · next hc =>
        cases h
        refine ⟨⟨c, _, rfl, hc, fun d hd => List.mem_takeWhile_imp hd⟩, ?_⟩
        rw [List.cons_append, List.takeWhile_append_dropWhile]
      · cases h

theorem word_marks : ∀ c ∈ ['_', '_'], isWord c = true :=
  List.all_eq_true.mp (by decide)

theorem word_kernel : ∀ c ∈ "kernel".toList, isWord c = true :=
  List.all_eq_true.mp (by decide)

theorem word_void : ∀ c ∈ "void".toList, isWord c = true :=
  List.all_eq_true.mp (by decide)

/-- A header, up to the opening parenthesis. -/
structure Header where
  marks : List Char
  afterKernel : List Char
  afterVoid : List Char
  name : List Char
  afterName : List Char
  marked : marks = [] ∨ marks = ['_', '_']
  blankKernel : afterKernel ≠ [] ∧ ∀ c ∈ afterKernel, isBlank c = true
  blankVoid : afterVoid ≠ [] ∧ ∀ c ∈ afterVoid, isBlank c = true
  named : IsName name
  blankName : ∀ c ∈ afterName, isBlank c = true

namespace Header

def keyword (h : Header) : List Char := h.marks ++ "kernel".toList

def text (h : Header) : List Char :=
  h.keyword ++ (h.afterKernel ++ ("void".toList ++ (h.afterVoid ++ (h.name ++
    (h.afterName ++ ['('])))))

theorem word_keyword (h : Header) : ∀ c ∈ h.keyword, isWord c = true := by
  intro c hc
  rcases List.mem_append.mp hc with hc | hc
  · rcases h.marked with hmarks | hmarks
    · rw [hmarks] at hc
      cases hc
    · rw [hmarks] at hc
      exact word_marks c hc
  · exact word_kernel c hc

theorem head_blanks {g : List Char} (hne : g ≠ []) (hg : ∀ c ∈ g, isBlank c = true)
    (rest : List Char) : ∀ c ∈ (g ++ rest).head?, isWord c = false := by
  cases g with
  | nil => exact absurd rfl hne
  | cons d g =>
      intro c hc
      cases hc
      exact isWord_of_blank (hg d List.mem_cons_self)

theorem head_word {s : List Char} (hne : s ≠ []) (hs : ∀ c ∈ s, isWord c = true)
    (rest : List Char) : ∀ c ∈ (s ++ rest).head?, isBlank c = false := by
  cases s with
  | nil => exact absurd rfl hne
  | cons d s =>
      intro c hc
      cases hc
      exact isBlank_of_word (hs d List.mem_cons_self)

theorem name_ne_nil (h : Header) : h.name ≠ [] := by
  obtain ⟨first, rest, heq, _⟩ := h.named
  simp [heq]

/-- What follows a name in a header begins with no word character. -/
theorem head_afterName (h : Header) (rest : List Char) :
    ∀ c ∈ (h.afterName ++ '(' :: rest).head?, isWord c = false := by
  by_cases hne : h.afterName = []
  · intro c hc
    rw [hne] at hc
    cases hc
    decide
  · exact head_blanks hne h.blankName _

theorem text_append (h : Header) (rest : List Char) :
    h.text ++ rest = h.marks ++ ("kernel".toList ++ (h.afterKernel ++ ("void".toList ++
      (h.afterVoid ++ (h.name ++ (h.afterName ++ '(' :: rest)))))) := by
  simp [text, keyword]

theorem exists_paren (h : Header) : ∃ before, h.text = before ++ ['('] :=
  ⟨h.keyword ++ (h.afterKernel ++ ("void".toList ++ (h.afterVoid ++ (h.name ++ h.afterName)))), by
    simp [text]⟩

end Header

/-- A header is recognised by its own characters. -/
theorem header?_text (h : Header) (rest : List Char) :
    header? (h.text ++ rest) = some (h.name, rest) := by
  rw [h.text_append]
  have hmarks : (after? ['_', '_'] (h.marks ++ ("kernel".toList ++ (h.afterKernel ++
      ("void".toList ++ (h.afterVoid ++ (h.name ++ (h.afterName ++ '(' :: rest)))))))).getD
        (h.marks ++ ("kernel".toList ++ (h.afterKernel ++ ("void".toList ++ (h.afterVoid ++
          (h.name ++ (h.afterName ++ '(' :: rest))))))) =
      "kernel".toList ++ (h.afterKernel ++ ("void".toList ++ (h.afterVoid ++ (h.name ++
        (h.afterName ++ '(' :: rest))))) := by
    rcases h.marked with heq | heq <;> rw [heq] <;> rfl
  have hvoid := afterBlanks?_append h.blankKernel.1 h.blankKernel.2
    (Header.head_word (s := "void".toList) (by decide) word_void
      (h.afterVoid ++ (h.name ++ (h.afterName ++ '(' :: rest))))
  have hname := afterBlanks?_append h.blankVoid.1 h.blankVoid.2
    (Header.head_word h.name_ne_nil h.named.word (h.afterName ++ '(' :: rest))
  have hparen : ∀ c ∈ ('(' :: rest).head?, isBlank c = false := by
    intro c hc
    cases hc
    decide
  simp only [header?, hmarks, after?_eq_some_iff.mpr rfl, hvoid, hname,
    name?_append h.named (h.head_afterName rest), trimLeft_append h.blankName hparen,
    Option.bind_eq_bind, Option.bind_some]
  rfl

theorem header?_inv {cs name rest : List Char} (h : header? cs = some (name, rest)) :
    ∃ head : Header, head.name = name ∧ cs = head.text ++ rest := by
  simp only [header?, Option.bind_eq_bind, Option.bind_eq_some_iff, after?_eq_some_iff] at h
  obtain ⟨atBlank, hkernel, atVoid, hblank, atBlank', hvoid, atName, hblank', ⟨n, atParen⟩, hname,
    after, hparen, hresult⟩ := h
  cases hresult
  obtain ⟨g, hne, hg, rfl⟩ := afterBlanks?_inv hblank
  obtain ⟨g', hne', hg', rfl⟩ := afterBlanks?_inv hblank'
  obtain ⟨hnamed, rfl⟩ := name?_inv hname
  obtain ⟨marks, hmarked, hcs⟩ : ∃ marks, (marks = [] ∨ marks = ['_', '_']) ∧
      cs = marks ++ (after? ['_', '_'] cs).getD cs := by
    cases hmarks : after? ['_', '_'] cs with
    | none => exact ⟨[], .inl rfl, rfl⟩
    | some more => exact ⟨_, .inr rfl, after?_eq_some_iff.mp hmarks⟩
  have hsplit : atParen = atParen.takeWhile isBlank ++ '(' :: rest := by
    rw [← List.singleton_append, ← hparen]
    exact (List.takeWhile_append_dropWhile).symm
  refine ⟨⟨marks, g, g', n, atParen.takeWhile isBlank, hmarked, ⟨hne, hg⟩, ⟨hne', hg'⟩, hnamed,
    fun c hc => List.mem_takeWhile_imp hc⟩, rfl, ?_⟩
  rw [Header.text_append, ← hsplit, ← hvoid, ← hkernel]
  exact hcs

/-- Texts whose brackets are well nested. -/
inductive WellNested : List Char → Prop where
  | nil : WellNested []
  | char {c : Char} {s : List Char} (plain : c ∉ ['(', ')', '[', ']']) (rest : WellNested s) :
      WellNested (c :: s)
  | round {inner s : List Char} (nested : WellNested inner) (rest : WellNested s) :
      WellNested ('(' :: (inner ++ ')' :: s))
  | square {inner s : List Char} (nested : WellNested inner) (rest : WellNested s) :
      WellNested ('[' :: (inner ++ ']' :: s))

theorem balanced?_open {c : Char} (h : c = '(' ∨ c = '[') (depth : Nat) (rest : List Char) :
    balanced? depth (c :: rest) = (balanced? (depth + 1) rest).map (c :: ·) := by
  rw [balanced?.eq_def]
  exact if_pos h

theorem balanced?_plain {c : Char} (h : ¬ (c = '(' ∨ c = '[')) (h' : ¬ (c = ')' ∨ c = ']'))
    (depth : Nat) (rest : List Char) :
    balanced? depth (c :: rest) = (balanced? depth rest).map (c :: ·) := by
  rw [balanced?.eq_def]
  exact (if_neg h).trans (if_neg h')

theorem balanced?_close {c : Char} (h : c = ')' ∨ c = ']') (depth : Nat) (rest : List Char) :
    balanced? (depth + 1) (c :: rest) = (balanced? depth rest).map (c :: ·) := by
  have hopen : ¬ (c = '(' ∨ c = '[') := by
    rcases h with rfl | rfl <;> decide
  rw [balanced?.eq_def]
  exact (if_neg hopen).trans (if_pos h)

theorem balanced?_last {c : Char} (h : c = ')' ∨ c = ']') (rest : List Char) :
    balanced? 0 (c :: rest) = if c = ')' then some [] else none := by
  have hopen : ¬ (c = '(' ∨ c = '[') := by
    rcases h with rfl | rfl <;> decide
  rw [balanced?.eq_def]
  exact (if_neg hopen).trans (if_pos h)

/-- A pair of brackets around a text that does not change how many are open. -/
theorem balanced?_pair {a b : Char} (ha : a = '(' ∨ a = '[') (hb : b = ')' ∨ b = ']')
    {inner : List Char} (hinner : ∀ depth rest,
      balanced? depth (inner ++ rest) = (balanced? depth rest).map (inner ++ ·))
    (depth : Nat) (rest : List Char) :
    balanced? depth (a :: (inner ++ b :: rest)) =
      (balanced? depth rest).map fun t => a :: (inner ++ b :: t) := by
  rw [balanced?_open ha, hinner, balanced?_close hb, Option.map_map, Option.map_map]
  rfl

/-- Brackets that are well nested do not change how many are open. -/
theorem balanced?_nested {s : List Char} (h : WellNested s) (depth : Nat) (rest : List Char) :
    balanced? depth (s ++ rest) = (balanced? depth rest).map (s ++ ·) := by
  induction h generalizing depth rest with
  | nil => simp
  | @char c s plain _ ih =>
      have hopen : ¬ (c = '(' ∨ c = '[') := by
        rintro (rfl | rfl) <;> simp at plain
      have hclose : ¬ (c = ')' ∨ c = ']') := by
        rintro (rfl | rfl) <;> simp at plain
      rw [List.cons_append, balanced?_plain hopen hclose, ih, Option.map_map]
      rfl
  | @round inner s _ _ ih ih' =>
      rw [List.cons_append, List.append_assoc, List.cons_append,
        balanced?_pair (.inl rfl) (.inl rfl) ih, ih', Option.map_map]
      congr 1
      funext t
      simp
  | @square inner s _ _ ih ih' =>
      rw [List.cons_append, List.append_assoc, List.cons_append,
        balanced?_pair (.inr rfl) (.inr rfl) ih, ih', Option.map_map]
      congr 1
      funext t
      simp

/-- A parameter list is recognised by its own characters. -/
theorem balanced?_inv {depth : Nat} {cs s : List Char} (h : balanced? depth cs = some s) :
    ∃ rest, cs = s ++ ')' :: rest ∧
      ∀ other, balanced? depth (s ++ ')' :: other) = some s := by
  induction cs generalizing depth s with
  | nil => cases h
  | cons c cs ih =>
      -- Unless the list ends here, it goes on with some number of brackets open.
      have hgo {after : Nat} (hcons : ∀ more,
          balanced? depth (c :: more) = (balanced? after more).map (c :: ·)) :
          ∃ rest, c :: cs = s ++ ')' :: rest ∧
            ∀ other, balanced? depth (s ++ ')' :: other) = some s := by
        rw [hcons] at h
        obtain ⟨t, ht, rfl⟩ := Option.map_eq_some_iff.mp h
        obtain ⟨rest, rfl, hother⟩ := ih ht
        refine ⟨rest, rfl, fun other => ?_⟩
        rw [List.cons_append, hcons, hother]
        rfl
      by_cases hopen : c = '(' ∨ c = '['
      · exact hgo (balanced?_open hopen depth)
      · by_cases hclose : c = ')' ∨ c = ']'
        · cases depth with
          | zero =>
              rw [balanced?_last hclose] at h
              split at h
              · next hparen =>
                cases h
                rw [hparen]
                exact ⟨cs, rfl, fun other => balanced?_last (.inl rfl) other⟩
              · cases h
          | succ depth => exact hgo (balanced?_close hclose depth)
        · exact hgo (balanced?_plain hopen hclose depth)

/-- A declaration is recognised by its own characters, up to a parenthesis. -/
theorem interface?_inv {cs : List Char} {i : Interface} (h : interface? cs = some i) :
    ∃ own rest, cs = own ++ ')' :: rest ∧
      ∀ other, interface? (own ++ ')' :: other) = some i := by
  simp only [interface?, Option.bind_eq_bind, Option.bind_eq_some_iff] at h
  obtain ⟨⟨name, more⟩, hheader, signature, hbalanced, hresult⟩ := h
  obtain ⟨head, rfl, rfl⟩ := header?_inv hheader
  obtain ⟨rest, rfl, hother⟩ := balanced?_inv hbalanced
  refine ⟨head.text ++ signature, rest, by simp, fun other => ?_⟩
  rw [List.append_assoc, interface?]
  simp only [header?_text, hother, Option.bind_eq_bind, Option.bind_some]
  exact hresult

theorem interface?_newline (cs : List Char) : interface? (cs ++ ['\n']) = interface? cs := by
  apply Option.ext
  intro i
  constructor
  · intro h
    obtain ⟨own, rest, heq, hother⟩ := interface?_inv h
    -- What declares something ends with a parenthesis, so the newline is not part of it.
    rcases List.eq_nil_or_concat rest with rfl | ⟨before, last, rfl⟩
    · have hlast := congrArg List.getLast? heq
      simp at hlast
    · rw [List.concat_eq_append, ← List.cons_append, ← List.append_assoc] at heq
      rw [(List.append_inj' heq rfl).1]
      exact hother before
  · intro h
    obtain ⟨own, rest, rfl, hother⟩ := interface?_inv h
    rw [List.append_assoc, List.cons_append]
    exact hother _

/-- A newline at the end of a text declares nothing. -/
theorem declaredFrom_newline (inWord : Bool) (cs : List Char) :
    declaredFrom inWord (cs ++ ['\n']) = declaredFrom inWord cs := by
  induction cs generalizing inWord with
  | nil => cases inWord <;> rfl
  | cons c cs ih =>
      rw [List.cons_append, declaredFrom, ← List.cons_append, interface?_newline, ih]
      rfl

end Source

end KernelLaunch
