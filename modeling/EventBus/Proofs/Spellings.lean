import EventBus.Source.Lexer
import Mathlib

/-!
# When a text tells the tokens

Words that stand side by side run together in the text of trees, which has no spaces, and a quoted
literal loses the spaces in it. A text in which neither happens can be cut into pieces again, each of
them a word, a lifetime, a number, a mark or a bracket, and tells the tokens that it is the text of.
-/

namespace EventBus.Source

/-! ## Trees as lists of tokens -/

mutual

/-- The tree as if there were a gap behind each of its marks. -/
def Tree.loose : Tree → Tree
  | .mark c _ => .mark c false
  | .group d ts => .group d (loose ts)
  | t => t

def loose : List Tree → List Tree
  | [] => []
  | t :: ts => t.loose :: loose ts

end

/-- The trees are the same tokens, irrespective of spacing. -/
def SameTokens (ts us : List Tree) : Prop := loose ts = loose us

mutual

/-- The tree with its brackets as tokens of their own. -/
def Tree.tokens : Tree → List Lexeme
  | .group d ts => .opening d :: (tokens ts ++ [.closing d])
  | t => [.tree t]

def tokens : List Tree → List Lexeme
  | [] => []
  | t :: ts => t.tokens ++ tokens ts

end

mutual

theorem Tree.nest_tokens (t : Tree) (ls : List Lexeme) (outer : List (Delimiter × List Tree))
    (done : List Tree) : nest (t.tokens ++ ls) outer done = nest ls outer (t :: done) := by
  cases t with
  | group d ts =>
    rw [Tree.tokens, List.cons_append, nest, List.append_assoc, EventBus.Source.nest_tokens ts]
    simp [nest]
  | _ => rfl

theorem nest_tokens (ts : List Tree) (ls : List Lexeme) (outer : List (Delimiter × List Tree))
    (done : List Tree) : nest (tokens ts ++ ls) outer done = nest ls outer (ts.reverse ++ done) := by
  cases ts with
  | nil => rfl
  | cons t ts =>
    rw [tokens, List.append_assoc, Tree.nest_tokens t, nest_tokens ts]
    simp

end

theorem tokens_injective {ts us : List Tree} (h : tokens ts = tokens us) : ts = us := by
  have hts := nest_tokens ts [] [] []
  have hus := nest_tokens us [] [] []
  rw [h, hus] at hts
  simpa [nest] using hts.symm

/-! ## Tokens as pieces of text -/

theorem isDigit_iff {c : Char} : c.isDigit = true ↔ 48 ≤ c.toNat ∧ c.toNat ≤ 57 := by
  simp only [Char.isDigit, Bool.and_eq_true, decide_eq_true_eq, ge_iff_le, UInt32.le_iff_toNat_le]
  exact Iff.rfl

theorem isWordStart_range {c : Char} (h : isWordStart c = true) :
    (65 ≤ c.toNat ∧ c.toNat ≤ 122) ∨ (128 ≤ c.toNat ∧ isGap c = false) := by
  simp only [isWordStart, Char.isAlpha, Char.isUpper, Char.isLower, Bool.or_eq_true,
    Bool.and_eq_true, decide_eq_true_eq, Bool.not_eq_true', beq_iff_eq, ge_iff_le,
    UInt32.le_iff_toNat_le] at h
  rcases h with ((h | h) | rfl) | h
  · have hlow : 65 ≤ c.toNat := h.1
    have hhigh : c.toNat ≤ 90 := h.2
    omega
  · have hlow : 97 ≤ c.toNat := h.1
    have hhigh : c.toNat ≤ 122 := h.2
    omega
  · exact .inl (by decide)
  · exact .inr h

theorem isWordStart_of_isDigit {c : Char} (h : c.isDigit = true) : isWordStart c = false := by
  rw [Bool.eq_false_iff]
  intro hs
  have hd := isDigit_iff.mp h
  rcases isWordStart_range hs with hs | hs <;> omega

theorem isBlank_of_isWordPart {c : Char} (h : isWordPart c = true) : isBlank c = false := by
  have ascii : 33 ≤ c.toNat → c.toNat ≤ 122 → isBlank c = false := by
    intro hlow hhigh
    simp only [isBlank, Bool.or_eq_false_iff, Bool.and_eq_false_iff, decide_eq_false_iff_not,
      beq_eq_false_iff_ne]
    omega
  rcases Bool.or_eq_true_iff.mp h with h | h
  · rcases isWordStart_range h with ⟨hlow, hhigh⟩ | ⟨-, h⟩
    · exact ascii (by omega) hhigh
    · exact (Bool.or_eq_false_iff.mp (Bool.or_eq_false_iff.mp h).1).1
  · have hd := isDigit_iff.mp h
    exact ascii (by omega) (by omega)

theorem unspaced_eq {s : String} (h : ∀ c ∈ s.toList, isBlank c = false) : unspaced s = s := by
  rw [unspaced, List.filter_eq_self.mpr fun c hc => by rw [h c hc]; rfl, String.ofList_toList]

namespace Lexeme

def loose : Lexeme → Lexeme
  | .tree t => .tree t.loose
  | l => l

def text : Lexeme → String
  | .tree t => t.text
  | .opening d => d.opening
  | .closing d => d.closing

/-- Words, lifetimes and numbers without a point, a quote or a mark in them, and single marks. -/
def isPlain : Lexeme → Bool
  | .tree (.word s) => s.toList.head?.any isWordStart && s.toList.all isWordPart
  | .tree (.lifetime s) => s.toList.head? == some '\'' && s.toList.tail.all isWordPart
  | .tree (.literal s) => s.toList.head?.any Char.isDigit && s.toList.all isWordPart
  | .tree (.mark c _) => isMarkChar c && c != '\''
  | .tree (.group ..) => false
  | .opening _ | .closing _ => true

def startsWord : Lexeme → Bool
  | .tree (.word _) | .tree (.literal _) => true
  | _ => false

def endsWord : Lexeme → Bool
  | .tree (.word _) | .tree (.literal _) | .tree (.lifetime _) => true
  | _ => false

/-- The token whose text is the given piece. -/
def ofPiece : List Char → Lexeme
  | [] => .tree (.word "")
  | c :: cs =>
    if isWordStart c then .tree (.word (String.ofList (c :: cs)))
    else if c.isDigit then .tree (.literal (String.ofList (c :: cs)))
    else if c = '\'' then .tree (.lifetime (String.ofList (c :: cs)))
    else (delimiterOf c).getD (.tree (.mark c false))

theorem mark_alone : ∀ c ∈ "~!@#$%^&*-=+|;:,<.>/?'".toList, c ≠ '\'' →
    isBlank c = false ∧ isWordPart c = false ∧ isWordStart c = false ∧ c.isDigit = false ∧
      (delimiterOf c).isNone := by
  -- A statement of all characters would be decided by going through all of them.
  have hall : ("~!@#$%^&*-=+|;:,<.>/?'".toList.all fun c => decide (c ≠ '\'' →
      isBlank c = false ∧ isWordPart c = false ∧ isWordStart c = false ∧ c.isDigit = false ∧
        (delimiterOf c).isNone)) = true := by decide
  exact fun c hc => of_decide_eq_true (List.all_eq_true.mp hall c hc)

/-- What a plain token looks like: its first character tells of which kind it is. -/
theorem isPlain_cases {l : Lexeme} (h : l.isPlain = true) :
    ∃ c cs, l.text.toList = c :: cs ∧ ofPiece (c :: cs) = l.loose ∧ isWordPart c = l.startsWord ∧
      if l.endsWord then (isWordPart c = true ∨ c = '\'') ∧ cs.all isWordPart = true
      else cs = [] ∧ isWordPart c = false ∧ c ≠ '\'' := by
  have wordy : ∀ {s : String} {c : Char} {cs : List Char}, s.toList = c :: cs →
      isWordPart c = true ∨ c = '\'' → cs.all isWordPart = true → unspaced s = s := by
    intro s c cs hs hc hcs
    refine unspaced_eq fun d hd => ?_
    rw [hs] at hd
    rcases List.mem_cons.mp hd with rfl | hd
    · rcases hc with hc | rfl
      · exact isBlank_of_isWordPart hc
      · decide
    · exact isBlank_of_isWordPart (List.all_eq_true.mp hcs d hd)
  cases l with
  | opening d => cases d <;> exact ⟨_, [], rfl, rfl, by decide, by decide⟩
  | closing d => cases d <;> exact ⟨_, [], rfl, rfl, by decide, by decide⟩
  | tree t =>
    cases t with
    | word s =>
      cases hs : s.toList with
      | nil => simp [isPlain, hs] at h
      | cons c cs =>
        simp only [isPlain, hs, List.head?_cons, Option.any_some, List.all_cons,
          Bool.and_eq_true] at h
        obtain ⟨hc, hp, hcs⟩ := h
        refine ⟨c, cs, ?_, ?_, hp, by simp [endsWord, hp, hcs]⟩
        · rw [← hs]
          exact congrArg _ (wordy hs (.inl hp) hcs)
        · rw [ofPiece, if_pos hc, ← hs, String.ofList_toList]
          rfl
    | lifetime s =>
      cases hs : s.toList with
      | nil => simp [isPlain, hs] at h
      | cons c cs =>
        simp only [isPlain, hs, List.head?_cons, List.tail_cons, Bool.and_eq_true, beq_iff_eq,
          Option.some.injEq] at h
        obtain ⟨rfl, hcs⟩ := h
        refine ⟨'\'', cs, ?_, ?_, (by decide : isWordPart '\'' = false), by simp [endsWord, hcs]⟩
        · rw [← hs]
          exact congrArg _ (wordy hs (.inr rfl) hcs)
        · rw [ofPiece, if_neg (by decide), if_neg (by decide), if_pos rfl, ← hs,
            String.ofList_toList]
          rfl
    | literal s =>
      cases hs : s.toList with
      | nil => simp [isPlain, hs] at h
      | cons c cs =>
        simp only [isPlain, hs, List.head?_cons, Option.any_some, List.all_cons,
          Bool.and_eq_true] at h
        obtain ⟨hc, hp, hcs⟩ := h
        refine ⟨c, cs, ?_, ?_, hp, by simp [endsWord, hp, hcs]⟩
        · rw [← hs]
          exact congrArg _ (wordy hs (.inl hp) hcs)
        · rw [ofPiece, if_neg (by simp [isWordStart_of_isDigit hc]), if_pos hc, ← hs,
            String.ofList_toList]
          rfl
    | mark c joint =>
      simp only [isPlain, Bool.and_eq_true, bne_iff_ne] at h
      obtain ⟨hc, hq⟩ := h
      obtain ⟨hblank, hpart, hstart, hdigit, hbracket⟩ :=
        mark_alone c (List.contains_iff_mem.mp hc) hq
      refine ⟨c, [], ?_, ?_, hpart, by simp [endsWord, hpart, hq]⟩
      · have hs : (String.singleton c).toList = [c] := by simp
        rw [← hs]
        exact congrArg _ (unspaced_eq fun d hd => by
          rw [hs, List.mem_singleton] at hd
          rw [hd, hblank])
      · rw [ofPiece, if_neg (by simp [hstart]), if_neg (by simp [hdigit]), if_neg hq,
          Option.isNone_iff_eq_none.mp hbracket]
        rfl
    | group d ts => cases h

end Lexeme

/-- Cuts off the first piece of a text. -/
def cut : List Char → List Char × List Char
  | [] => ([], [])
  | c :: cs =>
    if isWordPart c || c == '\'' then (c :: cs.takeWhile isWordPart, cs.dropWhile isWordPart)
    else ([c], cs)

def spelt (ls : List Lexeme) : List Char := ls.flatMap (·.text.toList)

/-- Tokens that a text tells: each of them is plain, and no two words or numbers meet. -/
structure Legible (ls : List Lexeme) : Prop where
  plain : ∀ l ∈ ls, l.isPlain = true
  apart : ls.IsChain fun l m => ¬(l.endsWord = true ∧ m.startsWord = true)

namespace Legible

variable {l : Lexeme} {ls ms : List Lexeme}

theorem tail (h : Legible (l :: ls)) : Legible ls :=
  ⟨fun m hm => h.plain m (List.mem_cons_of_mem l hm), (List.isChain_cons.mp h.apart).2⟩

theorem cut_spelt (h : Legible (l :: ls)) : cut (spelt (l :: ls)) = (l.text.toList, spelt ls) := by
  obtain ⟨c, cs, htext, -, -, hshape⟩ := Lexeme.isPlain_cases (h.plain l (List.mem_cons_self ..))
  rw [spelt, List.flatMap_cons, ← spelt, htext, List.cons_append, cut]
  split at hshape
  · rename_i hends
    obtain ⟨hc, hcs⟩ := hshape
    have hcs := List.all_eq_true.mp hcs
    have hstop : (spelt ls).takeWhile isWordPart = [] ∧ (spelt ls).dropWhile isWordPart = spelt ls := by
      cases ls with
      | nil => exact ⟨rfl, rfl⟩
      | cons m ls =>
        obtain ⟨d, ds, hm, -, hd, -⟩ := Lexeme.isPlain_cases (h.tail.plain m (List.mem_cons_self ..))
        have hword : m.startsWord = false := by
          rw [Bool.eq_false_iff]
          exact fun hstarts => (List.isChain_cons.mp h.apart).1 m rfl ⟨hends, hstarts⟩
        rw [hword] at hd
        rw [spelt, List.flatMap_cons, hm, List.cons_append]
        exact ⟨by simp [hd], by simp [hd]⟩
    rw [if_pos (by simpa using hc), List.takeWhile_append_of_pos hcs,
      List.dropWhile_append_of_pos hcs, hstop.1, hstop.2, List.append_nil]
  · obtain ⟨rfl, hpart, hquote⟩ := hshape
    rw [if_neg (by simp [hpart, hquote])]
    rfl

theorem spelt_ne_nil (h : Legible (l :: ls)) : spelt (l :: ls) ≠ [] := by
  obtain ⟨c, cs, htext, -⟩ := Lexeme.isPlain_cases (h.plain l (List.mem_cons_self ..))
  rw [spelt, List.flatMap_cons, htext]
  exact List.cons_ne_nil _ _

theorem ofPiece_text (h : Legible (l :: ls)) : Lexeme.ofPiece l.text.toList = l.loose := by
  obtain ⟨c, cs, htext, hpiece, -⟩ := Lexeme.isPlain_cases (h.plain l (List.mem_cons_self ..))
  rw [htext, hpiece]

/-- The pieces are cut off one by one, and each tells its token. -/
theorem loose_eq (hl : Legible ls) (hm : Legible ms) (h : spelt ls = spelt ms) :
    ls.map Lexeme.loose = ms.map Lexeme.loose := by
  induction ls generalizing ms with
  | nil =>
    cases ms with
    | nil => rfl
    | cons m ms => exact absurd h.symm hm.spelt_ne_nil
  | cons l ls ih =>
    cases ms with
    | nil => exact absurd h hl.spelt_ne_nil
    | cons m ms =>
      have hcut := hl.cut_spelt
      rw [h, hm.cut_spelt] at hcut
      obtain ⟨htext, hrest⟩ := Prod.mk.inj hcut
      rw [List.map_cons, List.map_cons, ← hl.ofPiece_text, ← hm.ofPiece_text, htext,
        ih hl.tail hm.tail hrest.symm]

end Legible

/-! ## Texts of trees -/

mutual

theorem Tree.toList_text (t : Tree) : t.text.toList = spelt t.tokens := by
  cases t with
  | group d ts =>
    rw [Tree.text, Tree.tokens, String.toList_append, String.toList_append,
      EventBus.Source.toList_text ts]
    simp [spelt, Lexeme.text]
  | _ => simp [spelt, Tree.tokens, Lexeme.text]

theorem toList_text (ts : List Tree) : (EventBus.Source.text ts).toList = spelt (tokens ts) := by
  cases ts with
  | nil => rfl
  | cons t ts =>
    rw [EventBus.Source.text, tokens, String.toList_append, Tree.toList_text t, toList_text ts, spelt,
      spelt, spelt, List.flatMap_append]

end

mutual

theorem Tree.tokens_loose (t : Tree) : t.loose.tokens = t.tokens.map Lexeme.loose := by
  cases t with
  | group d ts =>
    rw [Tree.loose, Tree.tokens, Tree.tokens, EventBus.Source.tokens_loose ts]
    simp [Lexeme.loose]
  | _ => rfl

theorem tokens_loose (ts : List Tree) : tokens (loose ts) = (tokens ts).map Lexeme.loose := by
  cases ts with
  | nil => rfl
  | cons t ts => rw [loose, tokens, tokens, Tree.tokens_loose t, tokens_loose ts, List.map_append]

end

mutual

theorem Tree.text_loose (t : Tree) : t.loose.text = t.text := by
  cases t with
  | group d ts => rw [Tree.loose, Tree.text, Tree.text, EventBus.Source.text_loose ts]
  | _ => rfl

theorem text_loose (ts : List Tree) : text (loose ts) = text ts := by
  cases ts with
  | nil => rfl
  | cons t ts => rw [loose, text, text, Tree.text_loose t, text_loose ts]

end

theorem SameTokens.text_eq {ts us : List Tree} (h : SameTokens ts us) : text ts = text us := by
  rw [← text_loose, ← text_loose us, h]

/-- A legible text tells its tokens. -/
theorem text_eq_iff {ts us : List Tree} (hts : Legible (tokens ts)) (hus : Legible (tokens us)) :
    text ts = text us ↔ SameTokens ts us := by
  refine ⟨fun h => tokens_injective ?_, SameTokens.text_eq⟩
  rw [tokens_loose, tokens_loose]
  apply hts.loose_eq hus
  rw [← toList_text, ← toList_text, h]

end EventBus.Source
