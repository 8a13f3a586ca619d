import Mathlib.Data.List.DropRight
import Mathlib.Data.List.TakeWhile
import Mathlib.Tactic.Common

/-!
# Words, lines and spaces

A text is a list of characters. `cString` is what C sees of it, the part before the first NUL;
`words sep` are its maximal pieces without `sep`, the empty ones left out, as `strtok` returns them;
`lines` are what a `getline` loop reads. `trim` takes a character off both ends, and `Trimmed` texts
are those it leaves alone.

`words` and `lines` are not alike. Two separators in a row enclose no word, and two line feeds
enclose an empty line; and a text that ends in a line feed has no further line behind it.
-/

set_option autoImplicit false

namespace Lib.Text

/-- A text; it may hold any character, NUL included. -/
abbrev Str := List Char

/-- The part before the first NUL, which is all if there is none. -/
def cString (s : Str) : Str := s.takeWhile (· ≠ '\x00')

theorem cString_eq {s : Str} (h : '\x00' ∉ s) : cString s = s := by
  refine List.takeWhile_eq_self_iff.mpr fun c hc => ?_
  simpa using ne_of_mem_of_not_mem hc h

theorem nul_not_mem_cString (s : Str) : '\x00' ∉ cString s := by
  intro h
  simpa using List.mem_takeWhile_imp h

/-! ## Words -/

/-- A word that was collected, unless it is empty. -/
def flush (word : Str) : List Str := if word = [] then [] else [word]

/-- The words of `s`, of which `word` has been read. -/
def wordsFrom (sep : Char) : Str → Str → List Str
  | word, [] => flush word
  | word, c :: s =>
      if c = sep then flush word ++ wordsFrom sep [] s else wordsFrom sep (word ++ [c]) s

def words (sep : Char) (s : Str) : List Str := wordsFrom sep [] s

theorem wordsFrom_append {sep : Char} {w : Str} (hw : sep ∉ w) (word s : Str) :
    wordsFrom sep word (w ++ s) = wordsFrom sep (word ++ w) s := by
  induction w generalizing word with
  | nil => rw [List.nil_append, List.append_nil]
  | cons c w ih =>
    rw [List.mem_cons, not_or] at hw
    rw [List.cons_append, wordsFrom, if_neg (Ne.symm hw.1), ih hw.2, List.append_assoc,
      List.singleton_append]

theorem wordsFrom_sep (sep : Char) (word s t : Str) :
    wordsFrom sep word (s ++ sep :: t) = wordsFrom sep word s ++ words sep t := by
  induction s generalizing word with
  | nil => simp only [List.nil_append, wordsFrom, if_true, words]
  | cons c s ih =>
    rw [List.cons_append, wordsFrom, wordsFrom]
    split
    · rw [ih, List.append_assoc]
    · exact ih _

/-- A separator between two texts separates their words. -/
theorem words_sep (sep : Char) (s t : Str) :
    words sep (s ++ sep :: t) = words sep s ++ words sep t :=
  wordsFrom_sep sep [] s t

/-- A text without separators is one word. -/
theorem words_word {sep : Char} {w : Str} (hw : sep ∉ w) (hne : w ≠ []) : words sep w = [w] := by
  have h := wordsFrom_append hw [] []
  rw [List.append_nil, List.nil_append] at h
  rw [words, h, wordsFrom, flush, if_neg hne]

/-! ## Lines -/

/-- The lines of `s`, of whose first `line` has been read. A last line need not be closed. -/
def linesFrom : Str → Str → List Str
  | line, [] => flush line
  | line, c :: s => if c = '\n' then line :: linesFrom [] s else linesFrom (line ++ [c]) s

def lines (s : Str) : List Str := linesFrom [] s

theorem linesFrom_append {l : Str} (hl : '\n' ∉ l) (line s : Str) :
    linesFrom line (l ++ '\n' :: s) = (line ++ l) :: lines s := by
  induction l generalizing line with
  | nil => simp only [List.nil_append, linesFrom, if_true, List.append_nil, lines]
  | cons c l ih =>
    rw [List.mem_cons, not_or] at hl
    rw [List.cons_append, linesFrom, if_neg (Ne.symm hl.1), ih hl.2, List.append_assoc,
      List.singleton_append]

/-- **Closed lines are read as they were written.** -/
theorem lines_closed {ls : List Str} (h : ∀ l ∈ ls, '\n' ∉ l) :
    lines (ls.map (· ++ ['\n'])).flatten = ls := by
  induction ls with
  | nil => rfl
  | cons l ls ih =>
    rw [List.map_cons, List.flatten_cons, List.append_assoc, List.singleton_append, lines,
      linesFrom_append (h l List.mem_cons_self), ih fun l' hl' => h l' (List.mem_cons_of_mem _ hl'),
      List.nil_append]

theorem newline_not_mem_linesFrom {l line s : Str} (hline : '\n' ∉ line)
    (hl : l ∈ linesFrom line s) : '\n' ∉ l := by
  induction s generalizing line with
  | nil =>
    rw [linesFrom, flush] at hl
    split at hl
    · cases hl
    · rwa [List.mem_singleton.mp hl]
  | cons c s ih =>
    rw [linesFrom] at hl
    split at hl
    · rcases List.mem_cons.mp hl with rfl | hl
      · exact hline
      · exact ih List.not_mem_nil hl
    · rename_i hc
      refine ih ?_ hl
      rw [List.mem_append, List.mem_singleton, not_or]
      exact ⟨hline, Ne.symm hc⟩

theorem newline_not_mem_lines {l s : Str} (hl : l ∈ lines s) : '\n' ∉ l :=
  newline_not_mem_linesFrom List.not_mem_nil hl

/-! ## Both ends -/

/-- A text with no `c` at either end; the empty one is such. -/
def Trimmed (c : Char) (s : Str) : Prop := s.head? ≠ some c ∧ s.getLast? ≠ some c

instance (c : Char) (s : Str) : Decidable (Trimmed c s) := inferInstanceAs (Decidable (_ ∧ _))

def trimEnd (c : Char) (s : Str) : Str := s.rdropWhile (· = c)

def trim (c : Char) (s : Str) : Str := trimEnd c (s.dropWhile (· = c))

theorem trimEnd_start (c : Char) (s : Str) : trimEnd c s <+: s := List.rdropWhile_prefix _ _

theorem getLast?_trimEnd (c : Char) (s : Str) : (trimEnd c s).getLast? ≠ some c := by
  intro h
  have hne : trimEnd c s ≠ [] := fun h₀ => by rw [h₀] at h; cases h
  have hlast := List.rdropWhile_last_not (fun x => decide (x = c)) s hne
  rw [List.getLast?_eq_some_getLast hne] at h
  exact hlast (by simpa [trimEnd] using Option.some.inj h)

theorem trimEnd_eq {c : Char} {s : Str} (h : s.getLast? ≠ some c) : trimEnd c s = s := by
  refine List.rdropWhile_eq_self_iff.mpr fun hne hc => h ?_
  rw [List.getLast?_eq_some_getLast hne, of_decide_eq_true hc]

/-- What is trimmed off stays behind a character that is not. -/
theorem trimEnd_append {c d : Char} (hd : d ≠ c) (s t : Str) :
    trimEnd c (s ++ d :: t) = s ++ d :: trimEnd c t := by
  induction t using List.reverseRecOn with
  | nil =>
    rw [trimEnd, List.rdropWhile_concat_neg _ _ _ (by simpa using hd)]
    rfl
  | append_singleton t e ih =>
    rw [trimEnd, trimEnd, ← List.cons_append, ← List.append_assoc, List.rdropWhile_concat,
      List.rdropWhile_concat]
    by_cases he : e = c
    · rw [if_pos (by simpa using he), if_pos (by simpa using he)]
      exact ih
    · rw [if_neg (by simpa using he), if_neg (by simpa using he), List.append_assoc,
        List.cons_append]

theorem head?_of_start {s t : Str} (h : s <+: t) (hne : s ≠ []) : s.head? = t.head? := by
  obtain ⟨u, rfl⟩ := h
  cases s with
  | nil => exact absurd rfl hne
  | cons c s => rfl

theorem head?_ne_of_start {c : Char} {s t : Str} (h : s <+: t) (ht : t.head? ≠ some c) :
    s.head? ≠ some c := by
  intro hs
  have hne : s ≠ [] := fun h₀ => by rw [h₀] at hs; cases hs
  exact ht ((head?_of_start h hne) ▸ hs)

theorem head?_append_ne {c d : Char} (hd : d ≠ c) {s : Str} (h : s.head? ≠ some c) (t : Str) :
    (s ++ d :: t).head? ≠ some c := by
  cases s with
  | nil => exact fun he => hd (Option.some.inj he)
  | cons e s => exact h

theorem dropWhile_eq {c : Char} {s : Str} (h : s.head? ≠ some c) :
    s.dropWhile (· = c) = s := by
  cases s with
  | nil => rfl
  | cons d s =>
    have hd : d ≠ c := fun he => h (congrArg some he)
    exact List.dropWhile_cons_of_neg (by simpa using hd)

theorem trim_eq {c : Char} {s : Str} (h : Trimmed c s) : trim c s = s := by
  rw [trim, dropWhile_eq h.1, trimEnd_eq h.2]

theorem trim_part (c : Char) (s : Str) : trim c s <:+: s :=
  (trimEnd_start c _).isInfix.trans (List.dropWhile_suffix _).isInfix

theorem trimmed_trim (c : Char) (s : Str) : Trimmed c (trim c s) := by
  refine ⟨head?_ne_of_start (trimEnd_start c _) ?_, getLast?_trimEnd c _⟩
  intro h
  have hnot := List.head?_dropWhile_not (fun x => decide (x = c)) s
  rw [h] at hnot
  simp at hnot

/-! ## Splitting -/

/-- A text is what is in front of a character, the character, and what is behind it. -/
theorem split_at {c : Char} {s : Str} (h : c ∈ s) :
    s = s.takeWhile (· ≠ c) ++ c :: (s.dropWhile (· ≠ c)).tail := by
  induction s with
  | nil => cases h
  | cons d s ih =>
    by_cases hd : d = c
    · subst hd
      simp
    · rcases List.mem_cons.mp h with he | h
      · exact absurd he.symm hd
      · rw [List.takeWhile_cons_of_pos (by simpa using hd),
          List.dropWhile_cons_of_pos (by simpa using hd), List.cons_append, ← ih h]

/-- What is in neither part is not in the whole, unless it is the separator. -/
theorem not_mem_join {c d : Char} (hd : c ≠ d) {s t : Str} (hs : c ∉ s) (ht : c ∉ t) :
    c ∉ s ++ d :: t := by
  rw [List.mem_append, List.mem_cons, not_or, not_or]
  exact ⟨hs, hd, ht⟩

theorem not_mem_takeWhile (c : Char) (s : Str) : c ∉ s.takeWhile (· ≠ c) := by
  intro h
  simpa using List.mem_takeWhile_imp h

end Lib.Text
