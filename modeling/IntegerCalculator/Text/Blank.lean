/-!
# Blank characters

A text is a list of characters, since every rule of the calculator looks at one character at a time. The blank characters
are the twenty-five of the Unicode property White_Space; they separate words, surround lines and the two parts of an
assignment, and mean nothing else. A text is trimmed by dropping the blanks at its two ends, and its words are the maximal
runs of characters that are not blank.
-/

namespace IntegerCalculator

/-- The characters with the Unicode property White_Space. -/
def isBlank (c : Char) : Bool :=
  let n := c.toNat
  (0x9 ≤ n && n ≤ 0xD) || n == 0x20 || n == 0x85 || n == 0xA0 || n == 0x1680 || (0x2000 ≤ n && n ≤ 0x200A) ||
    n == 0x2028 || n == 0x2029 || n == 0x202F || n == 0x205F || n == 0x3000

/-- The text without the blanks at its end. -/
def trimEnd (s : List Char) : List Char :=
  s.foldr (fun c rest => if rest.isEmpty && isBlank c then [] else c :: rest) []

/-- The text without the blanks at its two ends. -/
def trim (s : List Char) : List Char := trimEnd (s.dropWhile isBlank)

/-- The maximal runs of characters that are not blank, in order. -/
def words (s : List Char) : List (List Char) := (s.splitOnP isBlank).filter (!·.isEmpty)

/-- The letters are `A` to `Z` and `a` to `z`. -/
theorem isAlpha_iff_toNat {c : Char} :
    c.isAlpha = true ↔ (65 ≤ c.toNat ∧ c.toNat ≤ 90) ∨ (97 ≤ c.toNat ∧ c.toNat ≤ 122) := by
  change (decide (c.val ≥ 65 ∧ c.val ≤ 90) || (decide (c.val ≥ 97) && decide (c.val ≤ 122))) = true ↔ _
  simp only [Bool.or_eq_true, Bool.and_eq_true, decide_eq_true_eq, ge_iff_le, UInt32.le_iff_toNat_le, UInt32.reduceToNat,
    Char.toNat_val]

/-- No letter is blank. -/
theorem isBlank_eq_false_of_isAlpha {c : Char} (h : c.isAlpha = true) : isBlank c = false := by
  have hc := isAlpha_iff_toNat.1 h
  simp only [isBlank, Bool.or_eq_false_iff, Bool.and_eq_false_iff, decide_eq_false_iff_not, beq_eq_false_iff_ne]
  omega

/-- No digit is blank. -/
theorem isBlank_eq_false_of_isDigit {c : Char} (h : c.isDigit = true) : isBlank c = false := by
  have hc := Char.isDigit_iff_toNat.1 h
  simp only [Char.reduceToNat] at hc
  simp only [isBlank, Bool.or_eq_false_iff, Bool.and_eq_false_iff, decide_eq_false_iff_not, beq_eq_false_iff_ne]
  omega

/-- A blank parts the words before it from the words after it. -/
theorem words_append_blank_cons {c : Char} (hc : isBlank c = true) (s t : List Char) :
    words (s ++ c :: t) = words s ++ words t := by
  simp [words, List.splitOnP_append_cons s t hc]

/-- A blank at the front belongs to no word. -/
theorem words_cons_blank {c : Char} (hc : isBlank c = true) (s : List Char) : words (c :: s) = words s :=
  words_append_blank_cons hc [] s

/-- A text without blanks is one word. -/
theorem words_eq_singleton {w : List Char} (hne : w ≠ []) (hw : ∀ c ∈ w, isBlank c = false) : words w = [w] := by
  rw [words, List.splitOnP_eq_singleton hw]
  simp [hne]

/-- A text without blanks is the first word before what is empty or starts with a blank. -/
theorem words_append {w s : List Char} (hne : w ≠ []) (hw : ∀ c ∈ w, isBlank c = false)
    (hs : ∀ c, s.head? = some c → isBlank c = true) : words (w ++ s) = w :: words s := by
  cases s with
  | nil =>
    rw [List.append_nil, words_eq_singleton hne hw]
    rfl
  | cons c s =>
    have hc := hs c rfl
    rw [words_append_blank_cons hc, words_eq_singleton hne hw, words_cons_blank hc]
    rfl

theorem trimEnd_cons (c : Char) (s : List Char) :
    trimEnd (c :: s) = if (trimEnd s).isEmpty && isBlank c then [] else c :: trimEnd s := rfl

/-- Trimming the end leaves nothing of a text that is blank throughout, and something of any other. -/
theorem trimEnd_eq_nil_iff {s : List Char} : trimEnd s = [] ↔ s.all isBlank = true := by
  induction s with
  | nil => exact iff_of_true rfl rfl
  | cons c s ih =>
    by_cases hs : trimEnd s = []
    · simp [trimEnd_cons, hs, ih.1 hs]
    · simp [trimEnd_cons, hs, ← ih]

/-- Trimming leaves nothing of a text that is blank throughout, and something of any other. -/
theorem trim_eq_nil_iff {s : List Char} : trim s = [] ↔ s.all isBlank = true := by
  rw [trim, trimEnd_eq_nil_iff]
  induction s with
  | nil => exact Iff.rfl
  | cons c s ih =>
    rw [List.dropWhile_cons]
    by_cases hc : isBlank c = true
    · rw [if_pos hc, ih, List.all_cons, hc, Bool.true_and]
    · rw [if_neg hc]

/-- A text of blanks leaves nothing. -/
theorem trimEnd_blanks {s : List Char} (h : ∀ c ∈ s, isBlank c = true) : trimEnd s = [] :=
  trimEnd_eq_nil_iff.2 (List.all_eq_true.2 h)

/-- The end that is trimmed comes after the last character that is not blank. -/
theorem trimEnd_append_cons {c : Char} (hc : isBlank c = false) (s t : List Char) :
    trimEnd (s ++ c :: t) = s ++ c :: trimEnd t := by
  induction s with
  | nil => simp [trimEnd_cons, hc]
  | cons d s ih => simp [trimEnd_cons, ih]

/-- Blanks at the end are trimmed. -/
theorem trimEnd_append_blanks (s : List Char) {blanks : List Char} (h : ∀ c ∈ blanks, isBlank c = true) :
    trimEnd (s ++ blanks) = trimEnd s := by
  induction s with
  | nil => exact trimEnd_blanks h
  | cons c s ih => rw [List.cons_append, trimEnd_cons, trimEnd_cons, ih]

/-- What is trimmed at the end are blanks. -/
theorem exists_eq_trimEnd_append (s : List Char) :
    ∃ blanks, (∀ c ∈ blanks, isBlank c = true) ∧ s = trimEnd s ++ blanks := by
  induction s with
  | nil => exact ⟨[], by simp, rfl⟩
  | cons c s ih =>
    obtain ⟨blanks, hblanks, hs⟩ := ih
    rw [trimEnd_cons]
    split
    · next h =>
      rw [Bool.and_eq_true, List.isEmpty_iff, trimEnd_eq_nil_iff, List.all_eq_true] at h
      exact ⟨c :: s, List.forall_mem_cons.2 ⟨h.2, h.1⟩, rfl⟩
    · exact ⟨blanks, hblanks, congrArg (c :: ·) hs⟩

/-- What is trimmed at the end is trimmed there once and for all. -/
theorem trimEnd_trimEnd (s : List Char) : trimEnd (trimEnd s) = trimEnd s := by
  obtain ⟨blanks, hblanks, hs⟩ := exists_eq_trimEnd_append s
  have htrim : trimEnd s = trimEnd (trimEnd s ++ blanks) := congrArg trimEnd hs
  rw [trimEnd_append_blanks _ hblanks] at htrim
  exact htrim.symm

/-- The blanks at the front and the blanks at the end may be dropped in either order. -/
theorem dropWhile_trimEnd (s : List Char) : (trimEnd s).dropWhile isBlank = trimEnd (s.dropWhile isBlank) := by
  have hblanks : ∀ c ∈ s.takeWhile isBlank, isBlank c = true := List.all_eq_true.1 List.all_takeWhile
  have hs : s.takeWhile isBlank ++ s.dropWhile isBlank = s := List.takeWhile_append_dropWhile
  cases hrest : s.dropWhile isBlank with
  | nil =>
    rw [hrest, List.append_nil] at hs
    rw [hs] at hblanks
    rw [trimEnd_blanks hblanks]
    rfl
  | cons c cs =>
    have hc : isBlank c = false := by
      have hhead := List.head?_dropWhile_not isBlank s
      rwa [hrest] at hhead
    have hcs : trimEnd (c :: cs) = c :: trimEnd cs := trimEnd_append_cons hc [] cs
    rw [hrest] at hs
    rw [← hs, trimEnd_append_cons hc, List.dropWhile_append_of_pos hblanks, List.dropWhile_cons_of_neg (by simp [hc]), hcs]

/-- Blanks at the front are trimmed. -/
theorem trim_blanks_append {blanks : List Char} (h : ∀ c ∈ blanks, isBlank c = true) (s : List Char) :
    trim (blanks ++ s) = trim s := by
  rw [trim, trim, List.dropWhile_append_of_pos h]

/-- Blanks at the end are trimmed. -/
theorem trim_append_blanks (s : List Char) {blanks : List Char} (h : ∀ c ∈ blanks, isBlank c = true) :
    trim (s ++ blanks) = trim s := by
  rw [trim, trim, List.dropWhile_append]
  split
  · next hs =>
    rw [List.isEmpty_iff.1 hs, trimEnd_blanks fun c hc => h c ((List.dropWhile_sublist _).subset hc)]
    rfl
  · exact trimEnd_append_blanks _ h

/-- What is trimmed are blanks. -/
theorem exists_eq_append_trim (s : List Char) :
    ∃ before after, (∀ c ∈ before, isBlank c = true) ∧ (∀ c ∈ after, isBlank c = true) ∧ s = before ++ (trim s ++ after) := by
  obtain ⟨after, hafter, hs⟩ := exists_eq_trimEnd_append (s.dropWhile isBlank)
  refine ⟨s.takeWhile isBlank, after, List.all_eq_true.1 List.all_takeWhile, hafter, ?_⟩
  rw [trim, ← hs, List.takeWhile_append_dropWhile]

/-- Around a character that is not blank, the front and the end are trimmed each by itself. -/
theorem trim_append_cons {c : Char} (hc : isBlank c = false) (s t : List Char) :
    trim (s ++ c :: t) = s.dropWhile isBlank ++ c :: trimEnd t := by
  rw [trim, List.dropWhile_append]
  split
  · next hs =>
    rw [List.isEmpty_iff.1 hs, List.dropWhile_cons, hc]
    exact trimEnd_append_cons hc [] t
  · exact trimEnd_append_cons hc _ t

/-- A text without blanks is left as it is. -/
theorem trim_eq_self {s : List Char} (h : ∀ c ∈ s, isBlank c = false) : trim s = s := by
  obtain ⟨before, after, hbefore, hafter, hs⟩ := exists_eq_append_trim s
  have hnil : ∀ blanks : List Char, (∀ c ∈ blanks, isBlank c = true) → (∀ c ∈ blanks, c ∈ s) → blanks = [] := by
    intro blanks hblanks hmem
    rw [List.eq_nil_iff_forall_not_mem]
    intro c hc
    have hblank := hblanks c hc
    rw [h c (hmem c hc)] at hblank
    cases hblank
  have hb : before = [] := hnil before hbefore fun c hc => by rw [hs]; simp [hc]
  have ha : after = [] := hnil after hafter fun c hc => by rw [hs]; simp [hc]
  rw [hb, ha, List.nil_append, List.append_nil] at hs
  exact hs.symm

/-- What is trimmed is trimmed once and for all. -/
theorem trim_trim (s : List Char) : trim (trim s) = trim s := by
  obtain ⟨before, after, hbefore, hafter, hs⟩ := exists_eq_append_trim s
  have htrim : trim s = trim (before ++ (trim s ++ after)) := congrArg trim hs
  rw [trim_blanks_append hbefore, trim_append_blanks _ hafter] at htrim
  exact htrim.symm

/-- What is left at the trimmed end of a text starts as the text does. -/
theorem head?_trimEnd {s : List Char} (h : trimEnd s ≠ []) : (trimEnd s).head? = s.head? := by
  cases s with
  | nil => rfl
  | cons c s =>
    rw [trimEnd_cons] at h ⊢
    split
    · next hblank => exact absurd (if_pos hblank) h
    · rfl

/-- A trimmed text starts with no blank. -/
theorem isBlank_eq_false_of_trim {s cs : List Char} {c : Char} (h : trim s = c :: cs) : isBlank c = false := by
  have hne : trimEnd (s.dropWhile isBlank) ≠ [] := by
    rw [← trim, h]
    exact List.cons_ne_nil _ _
  have hhead := head?_trimEnd hne
  have hfirst := List.head?_dropWhile_not isBlank s
  rw [← hhead, ← trim, h] at hfirst
  exact hfirst

end IntegerCalculator
