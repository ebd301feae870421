import KernelLaunch.Proofs.Source.Declared
import KernelLaunch.Proofs.Source.Directive

/-!
Kernel extraction from sources made of filler text, comments, preprocessor directives and
kernel declarations. The main statement is that exactly the declared kernels are found, in
order, with comments in their parameter lists removed, and equal declarations once.
-/

namespace KernelLaunch.Source

open Text

/-- Text that says nothing of kernels. -/
structure Filler where
  text : List Char
  inert : ∀ c ∈ text, IsInert c ∧ c ≠ '#'
  noKernel : ¬ "kernel".toList <:+: text

/-- A declaration, with gaps between its words and before its parameter list, and
comments in the latter. -/
structure Declaration where
  underscores : Bool
  afterKernel : Gap
  afterVoid : Gap
  name : List Char
  afterName : Gap
  signature : Passage
  spaced : afterKernel.passage ≠ [] ∧ afterVoid.passage ≠ []
  named : IsName name
  inert : ∀ c, .char c ∈ signature → IsInert c ∧ c ≠ '#'
  nested : WellNested signature.trace
  noKernel : ¬ "kernel".toList <:+: signature.trace

namespace Declaration

def marks (d : Declaration) : List Char := if d.underscores then ['_', '_'] else []

def passage (d : Declaration) : Passage :=
  (d.marks ++ "kernel".toList).map .char ++ d.afterKernel.passage ++ "void".toList.map .char ++
    d.afterVoid.passage ++ d.name.map .char ++ d.afterName.passage ++ [.char '('] ++
      d.signature ++ [.char ')']

def interface (d : Declaration) : Interface :=
  ⟨String.ofList d.name, String.ofList d.signature.trace⟩

def header (d : Declaration) : Header where
  marks := d.marks
  afterKernel := d.afterKernel.passage.trace
  afterVoid := d.afterVoid.passage.trace
  name := d.name
  afterName := d.afterName.passage.trace
  marked := by
    unfold marks
    split
    · exact .inr rfl
    · exact .inl rfl
  blankKernel := ⟨d.afterKernel.trace_ne_nil d.spaced.1, d.afterKernel.trace_blank⟩
  blankVoid := ⟨d.afterVoid.trace_ne_nil d.spaced.2, d.afterVoid.trace_blank⟩
  named := d.named
  blankName := d.afterName.trace_blank

theorem trace_passage (d : Declaration) :
    d.passage.trace = d.header.text ++ (d.signature.trace ++ [')']) := by
  simp only [passage, Passage.trace_append, Passage.trace_map_char, Passage.trace_char,
    Header.text, Header.keyword, header, List.append_assoc]
  rfl

theorem isInert_of_word {c : Char} (h : isWord c = true) : IsInert c ∧ c ≠ '#' := by
  refine ⟨⟨?_, ?_, ?_⟩, ?_⟩ <;> rintro rfl <;> exact absurd h (by decide)

theorem inert_gap (g : Gap) {c : Char} (h : .char c ∈ g.passage) : IsInert c ∧ c ≠ '#' := by
  have hblank := g.blank c h
  refine ⟨.of_blank hblank, ?_⟩
  rintro rfl
  exact absurd hblank (by decide)

theorem inert_passage (d : Declaration) {c : Char} (h : .char c ∈ d.passage) :
    IsInert c ∧ c ≠ '#' := by
  have hkeyword := d.header.word_keyword
  simp only [passage, List.mem_append, List.mem_map, List.mem_singleton, Piece.char.injEq,
    exists_eq_right] at h
  rcases h with (((((((h | h) | h) | h) | h) | h) | rfl) | h) | rfl
  · exact isInert_of_word (hkeyword c (List.mem_append.mpr h))
  · exact inert_gap _ h
  · exact isInert_of_word (word_void c h)
  · exact inert_gap _ h
  · exact isInert_of_word (d.named.word c h)
  · exact inert_gap _ h
  · decide
  · exact d.inert c h
  · decide

theorem interface?_trace (d : Declaration) (rest : List Char) :
    interface? (d.passage.trace ++ rest) = some d.interface := by
  have hbalanced : balanced? 0 (d.signature.trace ++ ([')'] ++ rest)) = some d.signature.trace := by
    rw [balanced?_nested d.nested, List.singleton_append, balanced?_last (.inl rfl)]
    simp
  rw [trace_passage, List.append_assoc, List.append_assoc, interface?, header?_text]
  simp only [Option.bind_eq_bind, Option.bind_some, hbalanced]
  rfl

/-- A declaration that stands where a word can begin is found, and nothing else
is found in it. -/
theorem declaredFrom_trace (d : Declaration) (rest : List Char) :
    declaredFrom false (d.passage.trace ++ rest) = d.interface :: declaredFrom false rest := by
  have hinterface := d.interface?_trace rest
  rw [trace_passage, List.append_assoc, List.append_assoc] at hinterface ⊢
  have happart : Apart d.signature.trace ([')'] ++ rest) := by
    intro _ _ _ c hc
    cases hc
    decide
  rw [Header.declaredFrom_text, hinterface, declaredFrom_free d.noKernel happart,
    List.singleton_append, declaredFrom_other (by decide)]
  rfl

end Declaration

/-- An item of a source. A directive ends with a newline or with the source. -/
inductive Item where
  | filler (f : Filler)
  | comment (c : Comment)
  | directive (d : Directive) (ended : Bool)
  | declaration (d : Declaration)

namespace Item

def text : Item → List Char
  | filler f => f.text
  | comment c => c.text
  | directive d ended => d.text ++ if ended then ['\n'] else []
  | declaration d => d.passage.text

/-- What is left of an item when comments are removed. -/
def stripped : Item → List Char
  | filler f => f.text
  | comment c => c.trace
  | directive d ended => d.text ++ if ended then ['\n'] else []
  | declaration d => d.passage.trace

/-- What is left of an item when directives are removed, too. -/
def plain : Item → List Char
  | directive _ _ => []
  | item => item.stripped

def declares : Item → Option Interface
  | declaration d => some d.interface
  | _ => none

def isFiller : Item → Bool
  | filler _ => true
  | _ => false

def isDirective : Item → Bool
  | directive _ _ => true
  | _ => false

theorem plain_eq_stripped {item : Item} (h : item.isDirective = false) :
    item.plain = item.stripped := by
  cases item with
  | directive d ended => cases h
  | _ => rfl

/-- Whether an item may stand after a text that ends with `last`, and before
other items. No two fillers stand side by side, directives are on lines of their
own, and declarations do not go on a word. -/
def MayStand (last : Option Char) (afterFiller : Bool) (rest : List Item) : Item → Prop
  | filler _ => afterFiller = false
  | comment _ => True
  | directive _ ended => (∀ c ∈ last, c = '\n') ∧ (ended = false → rest = [])
  | declaration _ => ∀ c ∈ last, isWord c = false

end Item

/-- Items in places where they may stand. -/
def WellPlaced : (last : Option Char) → (afterFiller : Bool) → List Item → Prop
  | _, _, [] => True
  | last, afterFiller, item :: rest =>
      item.MayStand last afterFiller rest ∧
        WellPlaced (item.text.getLast?.or last) item.isFiller rest

def sourceText (items : List Item) : List Char := items.flatMap Item.text

/-- The kernels that are declared, in order. -/
def declared (items : List Item) : List Interface := items.filterMap Item.declares

theorem stripComments_items {last : Option Char} {afterFiller : Bool} {items : List Item}
    (h : WellPlaced last afterFiller items) :
    stripComments (sourceText items) = items.flatMap Item.stripped := by
  unfold stripComments sourceText
  induction items generalizing last afterFiller with
  | nil => rfl
  | cons item rest ih =>
      obtain ⟨hstand, hrest⟩ := h
      have hih := ih hrest
      rw [List.flatMap_cons, List.flatMap_cons, ← hih]
      cases item with
      | filler f => exact strip_inert f.text _ fun c hc => (f.inert c hc).1
      | comment c => exact c.strip _
      | directive d ended =>
          cases ended with
          | true => simpa [Item.text, Item.stripped] using d.strip_closed (rest.flatMap Item.text)
          | false =>
              rw [hstand.2 rfl]
              simpa [Item.text, Item.stripped, stripFrom] using d.strip_open
      | declaration d => exact d.passage.strip _ fun c hc => (d.inert_passage hc).1

/-- A text that is at the start of a line whenever the source is. -/
def AtLineStart (x : List Char) (last : Option Char) : Prop :=
  (∀ c ∈ last, c = '\n') → x = [] ∨ ∃ before, x = before ++ ['\n']

theorem number_sign_not_mem_plain (item : Item) : '#' ∉ item.plain := by
  intro h
  cases item with
  | filler f => exact (f.inert _ h).2 rfl
  | comment c => exact absurd (c.trace_blank _ h) (by decide)
  | directive d ended => cases h
  | declaration d =>
      rcases Passage.mem_trace h with hchar | hblank
      · exact (d.inert_passage hchar).2 rfl
      · exact absurd hblank (by decide)

theorem Comment.getLast?_text (c : Comment) :
    (∃ body, c.text = body ++ ['\n'] ∧ c.trace = ['\n']) ∨ ∃ body, c.text = body ++ ['/'] := by
  cases c with
  | line body unbroken => exact .inl ⟨'/' :: '/' :: body, by simp [text], rfl⟩
  | block body unclosed => exact .inr ⟨'/' :: '*' :: (body ++ ['*']), by simp [text]⟩

theorem Declaration.getLast?_text (d : Declaration) : d.passage.text.getLast? = some ')' := by
  rw [passage, Passage.text_append]
  exact List.getLast?_concat

theorem AtLineStart.item {x : List Char} {last : Option Char} (h : AtLineStart x last)
    {item : Item} (hitem : item.isDirective = false) :
    AtLineStart (x ++ item.plain) (item.text.getLast?.or last) := by
  intro hnewline
  rw [Item.plain_eq_stripped hitem]
  cases item with
  | filler f =>
      change x ++ f.text = [] ∨ ∃ before, x ++ f.text = before ++ ['\n']
      rcases List.eq_nil_or_concat f.text with hnil | ⟨before, c, heq⟩
      · have hx := h (by simpa [Item.text, hnil] using hnewline)
        rwa [hnil, List.append_nil]
      · rw [List.concat_eq_append] at heq
        have hc : c = '\n' := hnewline c (by simp [Item.text, heq])
        exact .inr ⟨x ++ before, by rw [heq, hc, List.append_assoc]⟩
  | comment c =>
      rcases c.getLast?_text with ⟨body, htext, htrace⟩ | ⟨body, htext⟩
      · exact .inr ⟨x, congrArg (x ++ ·) htrace⟩
      · have hslash := hnewline '/' (by simp [Item.text, htext])
        exact absurd hslash (by decide)
  | directive d ended => cases hitem
  | declaration d =>
      have hparen := hnewline ')' (by simp [Item.text, d.getLast?_text])
      exact absurd hparen (by decide)

/-- A directive leaves what follows it, and nothing if it ends the source. -/
theorem Directive.kept_item (d : Directive) {ended : Bool} {y : List Char}
    (hlast : ended = false → y = []) :
    kept ((Item.directive d ended).stripped ++ y) = if ended then kept y else [] := by
  cases ended with
  | true => simpa [Item.stripped] using d.kept_closed y
  | false => simpa [Item.stripped, hlast rfl] using d.kept_open

/-- The lines that are kept are those of the text without directives, but for the
empty one after the last newline: a directive that the text ends with takes it
away. `x` is what precedes the items since the last directive. -/
theorem kept_items {last : Option Char} {afterFiller : Bool} {items : List Item}
    (h : WellPlaced last afterFiller items) {x : List Char} (hx : '#' ∉ x)
    (hstart : AtLineStart x last) :
    lines (x ++ items.flatMap Item.plain) = kept (x ++ items.flatMap Item.stripped) ∨
      lines (x ++ items.flatMap Item.plain) =
        kept (x ++ items.flatMap Item.stripped) ++ [[]] := by
  induction items generalizing last afterFiller x with
  | nil => exact .inl (by simpa using (kept_plain hx).symm)
  | cons item rest ih =>
      obtain ⟨hstand, hrest⟩ := h
      rw [List.flatMap_cons, List.flatMap_cons]
      cases hitem : item.isDirective with
      | false =>
          have hx' : '#' ∉ x ++ item.plain := by
            rw [List.mem_append, not_or]
            exact ⟨hx, number_sign_not_mem_plain item⟩
          have hih := ih hrest hx' (hstart.item hitem)
          rw [List.append_assoc, List.append_assoc, Item.plain_eq_stripped hitem] at hih
          rw [Item.plain_eq_stripped hitem]
          exact hih
      | true =>
          cases item with
          | directive d ended =>
              obtain ⟨hnewline, hlast⟩ := hstand
              have hempty : AtLineStart [] ((Item.directive d ended).text.getLast?.or last) :=
                fun _ => .inl rfl
              have hafter : lines (rest.flatMap Item.plain) =
                    kept ((Item.directive d ended).stripped ++ rest.flatMap Item.stripped) ∨
                  lines (rest.flatMap Item.plain) =
                    kept ((Item.directive d ended).stripped ++ rest.flatMap Item.stripped) ++
                      [[]] := by
                rw [d.kept_item fun hended => by rw [hlast hended]; rfl]
                cases ended with
                | true => exact ih hrest (by simp) hempty
                | false =>
                    rw [hlast rfl]
                    exact .inr rfl
              change lines (x ++ rest.flatMap Item.plain) = _ ∨ lines (x ++ rest.flatMap Item.plain) = _
              rcases hstart hnewline with rfl | ⟨before, rfl⟩
              · exact hafter
              · have hbefore : '#' ∉ before := fun hmem => hx (List.mem_append_left _ hmem)
                simp only [List.append_assoc, List.singleton_append]
                rw [lines_append, kept_plain_line hbefore, List.append_assoc]
                exact hafter.imp (congrArg _) (congrArg _)
          | _ => cases hitem

/-- Nothing is declared in what the removal of directives takes away or leaves
beyond the plain text. -/
theorem declaredFrom_stripDirectives {items : List Item} (h : WellPlaced none false items)
    (inWord : Bool) :
    declaredFrom inWord (stripDirectives (items.flatMap Item.stripped)) =
      declaredFrom inWord (items.flatMap Item.plain) := by
  have hkept := kept_items h (x := []) (by simp) fun _ => .inl rfl
  rw [List.nil_append, List.nil_append] at hkept
  change declaredFrom inWord (unlines (kept (items.flatMap Item.stripped))) = _
  rcases hkept with hkept | hkept
  · rw [← hkept, unlines_lines]
  · by_cases hne : kept (items.flatMap Item.stripped) = []
    · rw [hne] at hkept ⊢
      rw [← unlines_lines (items.flatMap Item.plain), hkept]
      rfl
    · rw [← unlines_lines (items.flatMap Item.plain), hkept, unlines_snoc_nil hne,
        declaredFrom_newline]

theorem Comment.head_trace (c : Comment) (rest : List Char) :
    ∀ b ∈ (c.trace ++ rest).head?, isWord b = false :=
  Header.head_blanks c.trace_ne_nil c.trace_blank rest

/-- No word goes on from a filler to what is found next. -/
theorem apart_of_wellPlaced {t : List Char} {last : Option Char} {items : List Item}
    (h : WellPlaced (t.getLast?.or last) true items) : Apart t (items.flatMap Item.plain) := by
  intro c hc hword
  have hor : t.getLast?.or last = some c := by rw [Option.mem_def.mp hc]; rfl
  cases items with
  | nil => simp
  | cons item rest =>
      obtain ⟨hstand, _⟩ := h
      rw [hor] at hstand
      cases item with
      | filler f => cases hstand
      | comment d => exact d.head_trace _
      | directive d ended =>
          rw [hstand.1 c rfl] at hword
          exact absurd hword (by decide)
      | declaration d =>
          rw [hstand c rfl] at hword
          cases hword

/-- A text does not go on a word if it does not end with a word character. -/
theorem elim_isWord {last : Option Char} (h : ∀ c ∈ last, isWord c = false) :
    last.elim false isWord = false := by
  cases last with
  | none => rfl
  | some c => exact h c rfl

theorem declaredFrom_items {last : Option Char} {afterFiller : Bool} {items : List Item}
    (h : WellPlaced last afterFiller items) :
    declaredFrom (last.elim false isWord) (items.flatMap Item.plain) = declared items := by
  induction items generalizing last afterFiller with
  | nil => rfl
  | cons item rest ih =>
      obtain ⟨hstand, hrest⟩ := h
      have hih := ih hrest
      rw [List.flatMap_cons]
      cases item with
      | filler f =>
          have hend : (f.text.getLast?.or last).elim false isWord =
              endsInWord (last.elim false isWord) f.text := by
            unfold endsInWord
            cases f.text.getLast? <;> rfl
          rw [Item.plain, Item.stripped, declaredFrom_free f.noKernel (apart_of_wellPlaced hrest),
            ← hend]
          · exact hih
          · exact nofun
      | comment c =>
          have hend : ((Item.comment c).text.getLast?.or last).elim false isWord = false := by
            rcases c.getLast?_text with ⟨body, htext, _⟩ | ⟨body, htext⟩
            · simp [Item.text, htext]
              decide
            · simp [Item.text, htext]
              decide
          rw [hend] at hih
          exact (declaredFrom_blanks c.trace_ne_nil c.trace_blank _ _).trans hih
      | directive d ended =>
          have hbegin : ∀ c ∈ last, isWord c = false := by
            intro c hc
            rw [hstand.1 c hc]
            decide
          rw [elim_isWord hbegin]
          cases ended with
          | true =>
              have hend : ((Item.directive d true).text.getLast?.or last).elim false isWord =
                  false := by
                simp [Item.text]
                decide
              rw [hend] at hih
              exact hih
          | false =>
              rw [hstand.2 rfl]
              rfl
      | declaration d =>
          have hend : ((Item.declaration d).text.getLast?.or last).elim false isWord = false := by
            simp [Item.text, d.getLast?_text]
            decide
          rw [hend] at hih
          rw [elim_isWord hstand]
          exact (d.declaredFrom_trace _).trans (congrArg _ hih)

/-- Keeping the first of those with the same key. -/
theorem distinctFrom_eq (found seen : List Interface) :
    seen.reverse ++ distinctFrom (seen.map Interface.key) found =
      List.eraseDupsBy.loop (fun i j => i.key == j.key) found seen := by
  induction found generalizing seen with
  | nil => simp [distinctFrom, List.eraseDupsBy.loop]
  | cons i rest ih =>
      have hany : seen.any (fun j => i.key == j.key) = true ↔ i.key ∈ seen.map Interface.key := by
        simp only [List.any_eq_true, beq_iff_eq, List.mem_map]
        constructor <;> rintro ⟨j, hj, heq⟩ <;> exact ⟨j, hj, heq.symm⟩
      by_cases hseen : i.key ∈ seen.map Interface.key
      · rw [distinctFrom, if_pos hseen, ih, List.eraseDupsBy.loop, hany.mpr hseen]
      · have hnot : seen.any (fun j => i.key == j.key) = false := by
          rw [← Bool.not_eq_true, hany]
          exact hseen
        have hih := ih (i :: seen)
        rw [List.reverse_cons, List.append_assoc, List.singleton_append] at hih
        rw [distinctFrom, if_neg hseen, List.eraseDupsBy.loop, hnot]
        exact hih

/-- Exactly the declared kernels are found in a source, in order; of those with
the same name and, up to blanks, the same parameter list the first one. -/
theorem kernels_sourceText {items : List Item} (h : WellPlaced none false items) :
    kernels (code (sourceText items)) =
      (declared items).eraseDupsBy (fun i j => i.key == j.key) := by
  have hdeclared := declaredFrom_items h
  rw [Option.elim_none, ← declaredFrom_stripDirectives h, ← stripComments_items h] at hdeclared
  rw [kernels, code, hdeclared]
  exact distinctFrom_eq (declared items) []

/-- The gap of one space. -/
def Gap.space : Gap where
  passage := [.char ' ']
  blank := by
    intro c hc
    cases List.mem_singleton.mp hc
    decide

def sampleDeclaration : Declaration where
  underscores := false
  afterKernel := .space
  afterVoid := .space
  name := ['f']
  afterName := ⟨[], nofun⟩
  signature := "int a".toList.map .char
  spaced := ⟨nofun, nofun⟩
  named := ⟨'f', [], rfl, by decide, nofun⟩
  inert := by simp [IsInert]
  nested := .char (by decide) (.char (by decide) (.char (by decide) (.char (by decide)
    (.char (by decide) .nil))))
  noKernel := by decide

def sampleDirective : Directive where
  lines := ["#define A \\".toList, "kernel void g()".toList]
  opens := ⟨[], "define A \\".toList, ["kernel void g()".toList], rfl, nofun⟩
  unbroken := by decide
  continued := by
    constructor
    · exact ⟨"#define A ".toList, [], rfl, nofun⟩
    · rw [Continued, ← isContinued_iff]
      decide
  unquoted := by decide
  noLine := by decide
  noBlock := by decide

/-- A directive of two lines, a comment with a declaration, and one declaration
twice. -/
def sampleItems : List Item :=
  [.directive sampleDirective true, .comment (.line " kernel void h()".toList (by decide)),
    .declaration sampleDeclaration, .filler ⟨";\n".toList, by simp [IsInert], by decide⟩,
    .declaration sampleDeclaration]

theorem kernels_sampleItems :
    WellPlaced none false sampleItems ∧
      kernels (code (sourceText sampleItems)) = [⟨"f", "int a"⟩] := by
  have hplaced : WellPlaced none false sampleItems := by
    refine ⟨⟨nofun, nofun⟩, trivial, ?_, rfl, ?_, trivial⟩
    · intro c hc
      cases hc
      decide
    · intro c hc
      cases hc
      decide
  refine ⟨hplaced, ?_⟩
  rw [kernels_sourceText hplaced]
  decide +kernel

/-- A line whose backslash has blanks behind it does not end in a backslash, but
it takes the next line with it all the same. -/
theorem blank_behind_backslash_continues :
    "#define A \\ ".toList.getLast? ≠ some '\\' ∧
      sampleDeclaration.passage.text = "kernel void f(int a)".toList ∧
      kernels (code "#define A \\ \nkernel void f(int a)".toList) = [] := by
  refine ⟨by decide, by decide, by decide +kernel⟩

end KernelLaunch.Source
