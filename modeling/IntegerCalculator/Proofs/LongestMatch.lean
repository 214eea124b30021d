import IntegerCalculator.Token.Reader

/-!
# Reading tokens by longest match

Reading a line sets off terms and parentheses by blanks in two passes, cuts the text at blanks and classifies the words. Here
is the direct way: a scanner that goes through the line once and takes the longest lexeme at each place (`Lexeme.scan`).
`map_ofWord_words_spread` says that both ways give the same lexemes for every text, and `Lexeme.ofLine_eq_longestMatch` that
they are the lexemes of every line that is not blank.

The two passes together act on a text piece by piece (`spread`): a blank and a character of a run stay, a term and a
parenthesis get a space on both sides. So a run ends where the pieces put a space or where the text has a blank.
-/

namespace IntegerCalculator

/-- Whether the character is a parenthesis. -/
def isParen (c : Char) : Bool := c == '(' || c == ')'

/-- Whether the text starts with something that no run goes on with: a blank, a letter, a digit, a parenthesis, or a sign
directly before a digit. -/
def startsOther : List Char → Bool
  | [] => false
  | c :: cs => isBlank c || c.isAlpha || c.isDigit || isParen c || (isSign c && startsWithDigit cs)

/-- The characters up to the first place where something starts that no run goes on with. -/
def leadingRun : List Char → List Char
  | [] => []
  | c :: cs => if startsOther (c :: cs) then [] else c :: leadingRun cs

/-- The lexeme that a run is, which is a token when it consists of operator characters. -/
def Lexeme.ofRun (run : List Char) : Lexeme :=
  if run.all isOperatorChar then .ok (.run run) else .error .invalidExpression

/-- The lexeme that a text starts with which starts with no blank, and the text after it: the longest name is taken, or the
longest numeral with a sign directly before it, or one parenthesis, or the longest run. -/
def Lexeme.longest (c : Char) (cs : List Char) : Lexeme × List Char :=
  if c.isAlpha then (.ok (.identifier (c :: cs.takeWhile Char.isAlpha)), cs.dropWhile Char.isAlpha)
  else if c.isDigit then
    (.ok (.literal (digitsValue (c :: cs.takeWhile Char.isDigit)) none), cs.dropWhile Char.isDigit)
  else if c == '+' && startsWithDigit cs then
    (.ok (.literal (digitsValue (cs.takeWhile Char.isDigit)) (some .add)), cs.dropWhile Char.isDigit)
  else if c == '-' && startsWithDigit cs then
    (.ok (.literal (-digitsValue (cs.takeWhile Char.isDigit)) (some .subtract)), cs.dropWhile Char.isDigit)
  else if c == '(' then (.ok .openParen, cs)
  else if c == ')' then (.ok .closeParen, cs)
  else (.ofRun (c :: leadingRun cs), cs.drop (leadingRun cs).length)

/-- What is left after a lexeme is no longer than what follows its first character. -/
theorem Lexeme.length_longest_le (c : Char) (cs : List Char) : (longest c cs).2.length ≤ cs.length := by
  have hletters : (cs.dropWhile Char.isAlpha).length ≤ cs.length := (List.dropWhile_sublist _).length_le
  have hdigits : (cs.dropWhile Char.isDigit).length ≤ cs.length := (List.dropWhile_sublist _).length_le
  have hrun : (cs.drop (leadingRun cs).length).length ≤ cs.length := (List.drop_sublist _ _).length_le
  fun_cases longest c cs <;> first | assumption | exact Nat.le_refl _

/-- The lexemes of a text, read in one pass: blanks are skipped, and else the longest lexeme is taken. -/
def Lexeme.scan (s : List Char) : List Lexeme :=
  match s with
  | [] => []
  | c :: cs => if isBlank c then scan cs else (longest c cs).1 :: scan (longest c cs).2
termination_by s.length
decreasing_by
  · exact Nat.lt_succ_self _
  · exact Nat.lt_succ_of_le (length_longest_le c cs)

/-! ## Characters of terms and runs -/

/-- The characters of names and numerals. -/
def isTermChar (c : Char) : Bool := c.isAlpha || c.isDigit || isSign c

theorem isTermChar_of_isAlpha {c : Char} (h : c.isAlpha = true) : isTermChar c = true := by
  simp [isTermChar, h]

theorem isTermChar_of_isDigit {c : Char} (h : c.isDigit = true) : isTermChar c = true := by
  simp [isTermChar, h]

/-- What is no character of a term is no letter, no digit and no sign. -/
theorem isTermChar_eq_false_iff {c : Char} :
    isTermChar c = false ↔ c.isAlpha = false ∧ c.isDigit = false ∧ isSign c = false := by
  rw [isTermChar, Bool.or_eq_false_iff, Bool.or_eq_false_iff, and_assoc]

/-- No character of a term is a parenthesis. -/
theorem isParen_eq_false_of_isTermChar {c : Char} (h : isTermChar c = true) : isParen c = false := by
  rw [isParen, Bool.or_eq_false_iff, beq_eq_false_iff_ne, beq_eq_false_iff_ne]
  constructor
  · rintro rfl
    exact absurd h (by decide)
  · rintro rfl
    exact absurd h (by decide)

/-- No parenthesis is blank. -/
theorem isBlank_eq_false_of_isParen {c : Char} (h : isParen c = true) : isBlank c = false := by
  rw [isParen, Bool.or_eq_true, beq_iff_eq, beq_iff_eq] at h
  rcases h with rfl | rfl
  · decide
  · decide

/-- No character of a term is blank. -/
theorem isBlank_eq_false_of_isTermChar {c : Char} (h : isTermChar c = true) : isBlank c = false := by
  simp only [isTermChar, isSign, Bool.or_eq_true, beq_iff_eq] at h
  rcases h with (h | h) | rfl | rfl
  · exact isBlank_eq_false_of_isAlpha h
  · exact isBlank_eq_false_of_isDigit h
  · decide
  · decide

/-- No blank is a character of a term. -/
theorem isTermChar_eq_false_of_isBlank {c : Char} (hb : isBlank c = true) : isTermChar c = false := by
  rw [← Bool.not_eq_true]
  intro h
  rw [isBlank_eq_false_of_isTermChar h] at hb
  cases hb

/-- The name that a text with a letter in front starts with. -/
theorem leadingTerm_of_isAlpha {c : Char} (h : c.isAlpha = true) (cs : List Char) :
    leadingTerm (c :: cs) = c :: cs.takeWhile Char.isAlpha := by
  rw [leadingTerm, if_pos h]

/-- The numeral that a text starts with that has a digit in front, or a sign directly before a digit. -/
theorem leadingTerm_of_isDigit {c : Char} {cs : List Char} (ha : c.isAlpha = false)
    (h : (c.isDigit || (isSign c && startsWithDigit cs)) = true) :
    leadingTerm (c :: cs) = c :: cs.takeWhile Char.isDigit := by
  rw [leadingTerm, ha, if_neg Bool.false_ne_true, if_pos h]

/-- No digit is a letter. -/
theorem isAlpha_eq_false_of_isDigit {c : Char} (h : c.isDigit = true) : c.isAlpha = false := by
  have hc := Char.isDigit_iff_toNat.1 h
  simp only [Char.reduceToNat] at hc
  rw [← Bool.not_eq_true, isAlpha_iff_toNat]
  omega

/-- No letter is a digit. -/
theorem isDigit_eq_false_of_isAlpha {c : Char} (ha : c.isAlpha = true) : c.isDigit = false := by
  rw [← Bool.not_eq_true]
  intro hdigit
  rw [isAlpha_eq_false_of_isDigit hdigit] at ha
  cases ha

/-- The characters of a taken name are characters of terms. -/
theorem isTermChar_of_mem_name {c : Char} {cs : List Char} (h : c.isAlpha = true) :
    ∀ d ∈ c :: cs.takeWhile Char.isAlpha, isTermChar d = true := by
  intro d hd
  rcases List.mem_cons.1 hd with rfl | hd
  · exact isTermChar_of_isAlpha h
  · exact isTermChar_of_isAlpha (List.all_eq_true.1 List.all_takeWhile d hd)

/-- The characters of a taken numeral are characters of terms. -/
theorem isTermChar_of_mem_numeral {c : Char} {cs : List Char}
    (h : (c.isDigit || (isSign c && startsWithDigit cs)) = true) :
    ∀ d ∈ c :: cs.takeWhile Char.isDigit, isTermChar d = true := by
  intro d hd
  rcases List.mem_cons.1 hd with rfl | hd
  · rw [Bool.or_eq_true, Bool.and_eq_true] at h
    rcases h with h | ⟨h, -⟩
    · exact isTermChar_of_isDigit h
    · simp [isTermChar, h]
  · exact isTermChar_of_isDigit (List.all_eq_true.1 List.all_takeWhile d hd)

/-- What a run goes on with is no blank, letter, digit or parenthesis, and no sign directly before a digit. -/
theorem startsOther_cons_eq_false {c : Char} {cs : List Char} (h : startsOther (c :: cs) = false) :
    isBlank c = false ∧ c.isAlpha = false ∧ c.isDigit = false ∧ isParen c = false ∧
      (isSign c && startsWithDigit cs) = false := by
  simp only [startsOther, Bool.or_eq_false_iff] at h
  obtain ⟨⟨⟨⟨hb, ha⟩, hd⟩, hp⟩, hs⟩ := h
  exact ⟨hb, ha, hd, hp, hs⟩

/-- A run has no character that ends one. -/
theorem of_mem_leadingRun {s : List Char} {c : Char} (h : c ∈ leadingRun s) :
    isBlank c = false ∧ c.isAlpha = false ∧ c.isDigit = false ∧ isParen c = false := by
  induction s with
  | nil => cases h
  | cons d s ih =>
    rw [leadingRun] at h
    split at h
    · cases h
    · next hd =>
      rcases List.mem_cons.1 h with rfl | h
      · obtain ⟨hb, ha, hdigit, hp, -⟩ := startsOther_cons_eq_false (Bool.not_eq_true _ ▸ hd)
        exact ⟨hb, ha, hdigit, hp⟩
      · exact ih h

/-- A run and what is left after it make up the text. -/
theorem leadingRun_append_drop (s : List Char) : leadingRun s ++ s.drop (leadingRun s).length = s := by
  induction s with
  | nil => rfl
  | cons c cs ih =>
    rw [leadingRun]
    split
    · rfl
    · exact congrArg (c :: ·) ih

/-! ## The pieces of a text, spread by spaces -/

/-- The text with its terms and then its parentheses set off by spaces. -/
def spread (s : List Char) : List Char := setOffParens (setOffTerms s)

theorem spread_nil : spread [] = [] := by
  rw [spread, setOffTerms]
  rfl

theorem setOffParens_append (s t : List Char) : setOffParens (s ++ t) = setOffParens s ++ setOffParens t :=
  List.flatMap_append

/-- A text without parentheses is not changed where parentheses are set off. -/
theorem setOffParens_eq_self {w : List Char} (hw : ∀ c ∈ w, isParen c = false) : setOffParens w = w := by
  induction w with
  | nil => rfl
  | cons c w ih =>
    have hc : (c == '(' || c == ')') = false := hw c (by simp)
    have hrest : setOffParens w = w := ih fun d hd => hw d (by simp [hd])
    rw [setOffParens] at hrest ⊢
    rw [List.flatMap_cons, hrest, hc]
    rfl

/-- A term gets a space on both sides. -/
theorem spread_of_leadingTerm {c : Char} {cs term : List Char} (h : leadingTerm (c :: cs) = c :: term)
    (hw : ∀ d ∈ c :: term, isTermChar d = true) :
    spread (c :: cs) = ' ' :: ((c :: term) ++ ' ' :: spread (cs.drop term.length)) := by
  have hself : setOffParens (' ' :: ((c :: term) ++ [' '])) = ' ' :: ((c :: term) ++ [' ']) := by
    apply setOffParens_eq_self
    intro d hd
    rcases List.mem_cons.1 hd with rfl | hd
    · decide
    · rcases List.mem_append.1 hd with hd | hd
      · exact isParen_eq_false_of_isTermChar (hw d hd)
      · obtain rfl := List.mem_singleton.1 hd
        decide
  have hpieces : setOffTerms (c :: cs) = ' ' :: ((c :: term) ++ [' ']) ++ setOffTerms (cs.drop term.length) := by
    rw [setOffTerms, h]
    simp
  rw [spread, hpieces, setOffParens_append, hself]
  simp [spread]

/-- A character that starts no term stays where terms are set off. -/
theorem setOffTerms_cons {c : Char} {cs : List Char} (ha : c.isAlpha = false) (hd : c.isDigit = false)
    (hs : (isSign c && startsWithDigit cs) = false) : setOffTerms (c :: cs) = c :: setOffTerms cs := by
  have hterm : leadingTerm (c :: cs) = [] := by
    simp [leadingTerm, ha, hd, hs]
  rw [setOffTerms, hterm]

/-- A character that is neither a parenthesis nor the start of a term stays. -/
theorem spread_cons {c : Char} {cs : List Char} (ha : c.isAlpha = false) (hd : c.isDigit = false)
    (hs : (isSign c && startsWithDigit cs) = false) (hp : isParen c = false) : spread (c :: cs) = c :: spread cs := by
  have hself : setOffParens [c] = [c] := setOffParens_eq_self (by simpa using hp)
  rw [spread, setOffTerms_cons ha hd hs, ← List.singleton_append, setOffParens_append, hself]
  rfl

/-- A blank stays. -/
theorem spread_blank {c : Char} (hb : isBlank c = true) (cs : List Char) : spread (c :: cs) = c :: spread cs := by
  obtain ⟨ha, hd, hs⟩ := isTermChar_eq_false_iff.1 (isTermChar_eq_false_of_isBlank hb)
  have hparen : isParen c = false := by
    rw [← Bool.not_eq_true]
    intro h
    rw [isBlank_eq_false_of_isParen h] at hb
    cases hb
  exact spread_cons ha hd (by rw [hs, Bool.false_and]) hparen

/-- A parenthesis gets a space on both sides. -/
theorem spread_paren {c : Char} (hp : isParen c = true) (cs : List Char) :
    spread (c :: cs) = ' ' :: c :: ' ' :: spread cs := by
  have hterms : setOffTerms (c :: cs) = c :: setOffTerms cs := by
    rw [isParen, Bool.or_eq_true, beq_iff_eq, beq_iff_eq] at hp
    rcases hp with rfl | rfl
    · exact setOffTerms_cons (by decide) (by decide) rfl
    · exact setOffTerms_cons (by decide) (by decide) rfl
  have hparen : setOffParens (c :: setOffTerms cs) = [' ', c, ' '] ++ setOffParens (setOffTerms cs) := by
    rw [setOffParens, List.flatMap_cons]
    exact congrArg (· ++ _) (if_pos hp)
  rw [spread, hterms, hparen]
  rfl

/-- The characters of a run stay. -/
theorem spread_eq_leadingRun_append (s : List Char) :
    spread s = leadingRun s ++ spread (s.drop (leadingRun s).length) := by
  induction s with
  | nil => rfl
  | cons c cs ih =>
    rw [leadingRun]
    split
    · rfl
    · next h =>
      obtain ⟨-, ha, hd, hp, hs⟩ := startsOther_cons_eq_false (Bool.not_eq_true _ ▸ h)
      rw [spread_cons ha hd hs hp, ih]
      rfl

/-- After a run the text is at its end or something starts that no run goes on with. -/
theorem startsOther_drop_leadingRun (s : List Char) :
    s.drop (leadingRun s).length = [] ∨ startsOther (s.drop (leadingRun s).length) = true := by
  induction s with
  | nil => exact Or.inl rfl
  | cons c cs ih =>
    rw [leadingRun]
    split
    · next h => exact Or.inr h
    · exact ih

/-- Where the text is at its end or something starts that no run goes on with, the spread text is at its end or has a blank. -/
theorem isBlank_of_head?_spread {s : List Char} (hs : s = [] ∨ startsOther s = true) (c : Char)
    (hc : (spread s).head? = some c) : isBlank c = true := by
  match s, hs with
  | [], _ =>
    rw [spread_nil] at hc
    cases hc
  | d :: ds, hs =>
    have hstart : startsOther (d :: ds) = true := hs.resolve_left (by simp)
    by_cases ha : d.isAlpha = true
    · rw [spread_of_leadingTerm (leadingTerm_of_isAlpha ha ds) (isTermChar_of_mem_name ha)] at hc
      cases hc
      decide
    · rw [Bool.not_eq_true] at ha
      by_cases hn : (d.isDigit || (isSign d && startsWithDigit ds)) = true
      · rw [spread_of_leadingTerm (leadingTerm_of_isDigit ha hn) (isTermChar_of_mem_numeral hn)] at hc
        cases hc
        decide
      · rw [Bool.not_eq_true, Bool.or_eq_false_iff] at hn
        by_cases hp : isParen d = true
        · rw [spread_paren hp] at hc
          cases hc
          decide
        · rw [Bool.not_eq_true] at hp
          rw [spread_cons ha hn.1 hn.2 hp] at hc
          cases hc
          simpa [startsOther, ha, hn, hp] using hstart

/-! ## The words of a spread text -/

/-- What has no blanks is a word between two spaces. -/
theorem words_between_spaces {w : List Char} (hne : w ≠ []) (hw : ∀ c ∈ w, isBlank c = false) (s : List Char) :
    words (' ' :: (w ++ ' ' :: s)) = w :: words s := by
  have hspace : isBlank ' ' = true := by decide
  have hnext : ∀ c, (' ' :: s).head? = some c → isBlank c = true := by
    intro c hc
    cases hc
    exact hspace
  rw [words_cons_blank hspace, words_append hne hw hnext, words_cons_blank hspace]

/-- A term is a word. -/
theorem words_spread_of_leadingTerm {c : Char} {cs term : List Char} (h : leadingTerm (c :: cs) = c :: term)
    (hw : ∀ d ∈ c :: term, isTermChar d = true) :
    words (spread (c :: cs)) = (c :: term) :: words (spread (cs.drop term.length)) := by
  rw [spread_of_leadingTerm h hw]
  exact words_between_spaces (List.cons_ne_nil _ _) (fun d hd => isBlank_eq_false_of_isTermChar (hw d hd)) _

theorem drop_length_takeWhile (p : Char → Bool) (s : List Char) : s.drop (s.takeWhile p).length = s.dropWhile p := by
  have h := congrArg (List.drop (s.takeWhile p).length) (List.takeWhile_append_dropWhile (p := p) (l := s))
  rw [List.drop_left] at h
  exact h.symm

/-- A name is a word. -/
theorem words_spread_name {c : Char} (ha : c.isAlpha = true) (cs : List Char) :
    words (spread (c :: cs)) = (c :: cs.takeWhile Char.isAlpha) :: words (spread (cs.dropWhile Char.isAlpha)) := by
  rw [words_spread_of_leadingTerm (leadingTerm_of_isAlpha ha cs) (isTermChar_of_mem_name ha), drop_length_takeWhile]

/-- A numeral is a word, with the sign directly before it. -/
theorem words_spread_numeral {c : Char} {cs : List Char} (ha : c.isAlpha = false)
    (h : (c.isDigit || (isSign c && startsWithDigit cs)) = true) :
    words (spread (c :: cs)) = (c :: cs.takeWhile Char.isDigit) :: words (spread (cs.dropWhile Char.isDigit)) := by
  rw [words_spread_of_leadingTerm (leadingTerm_of_isDigit ha h) (isTermChar_of_mem_numeral h), drop_length_takeWhile]

/-- A parenthesis is a word. -/
theorem words_spread_paren {c : Char} (hp : isParen c = true) (cs : List Char) :
    words (spread (c :: cs)) = [c] :: words (spread cs) := by
  have hc : ∀ d ∈ [c], isBlank d = false := by
    intro d hd
    rw [List.mem_singleton.1 hd]
    exact isBlank_eq_false_of_isParen hp
  rw [spread_paren hp]
  exact words_between_spaces (List.cons_ne_nil _ _) hc _

/-- A run is a word. -/
theorem words_spread_run {c : Char} {cs : List Char} (h : startsOther (c :: cs) = false) :
    words (spread (c :: cs)) = (c :: leadingRun cs) :: words (spread (cs.drop (leadingRun cs).length)) := by
  have hrun : leadingRun (c :: cs) = c :: leadingRun cs := by
    rw [leadingRun, h, if_neg Bool.false_ne_true]
  rw [spread_eq_leadingRun_append, hrun]
  refine words_append (List.cons_ne_nil _ _) ?_ (isBlank_of_head?_spread ?_)
  · intro d hd
    exact (of_mem_leadingRun (hrun ▸ hd)).1
  · have hrest := startsOther_drop_leadingRun (c :: cs)
    rw [hrun] at hrest
    exact hrest

/-! ## The lexemes of words -/

namespace Lexeme

theorem ofWord_of_isName {w : List Char} (h : isName w = true) : ofWord w = .ok (.identifier w) := by
  have hopen : w ≠ ['('] := by
    rintro rfl
    exact absurd h (by decide)
  have hclose : w ≠ [')'] := by
    rintro rfl
    exact absurd h (by decide)
  simp [ofWord, Token.ofWord?, hopen, hclose, h]

/-- A word that is no name and reads as an integer is a literal with the sign that it starts with. -/
theorem ofWord_of_integer? {w : List Char} {v : Int} (hname : isName w = false) (h : integer? w = some v) :
    ofWord w = .ok (.literal v (Token.signOf w)) := by
  have hopen : w ≠ ['('] := by
    rintro rfl
    cases h
  have hclose : w ≠ [')'] := by
    rintro rfl
    cases h
  simp [ofWord, Token.ofWord?, hopen, hclose, hname, h]

theorem ofWord_of_isDigits {c : Char} {ds : List Char} (h : isDigits (c :: ds) = true) :
    ofWord (c :: ds) = .ok (.literal (digitsValue (c :: ds)) none) := by
  have hc : c.isDigit = true := by
    simp only [isDigits, List.all_cons, Bool.and_eq_true] at h
    exact h.2.1
  have hname : isName (c :: ds) = false := by
    rw [isName, List.all_cons, isAlpha_eq_false_of_isDigit hc]
    simp
  have hsign : Token.signOf (c :: ds) = none := by
    unfold Token.signOf
    split
    · exact absurd hc (by simp_all)
    · exact absurd hc (by simp_all)
    · rfl
  rw [ofWord_of_integer? hname (integer?_of_isDigits h), hsign]

/-- The digits taken from a text that starts with one are one or more. -/
theorem isDigits_takeWhile {cs : List Char} (h : startsWithDigit cs = true) :
    isDigits (cs.takeWhile Char.isDigit) = true := by
  cases cs with
  | nil => cases h
  | cons c cs =>
    have hc : c.isDigit = true := h
    simp [isDigits, hc]

theorem ofWord_plus {ds : List Char} (h : isDigits ds = true) :
    ofWord ('+' :: ds) = .ok (.literal (digitsValue ds) (some .add)) :=
  ofWord_of_integer? rfl (if_pos h)

theorem ofWord_minus {ds : List Char} (h : isDigits ds = true) :
    ofWord ('-' :: ds) = .ok (.literal (-digitsValue ds) (some .subtract)) :=
  ofWord_of_integer? rfl (if_pos h)

/-- A word without digits reads as no integer. -/
theorem integer?_eq_none {w : List Char} (h : ∀ c ∈ w, c.isDigit = false) : integer? w = none := by
  have hdigits : ∀ ds : List Char, (∀ c ∈ ds, c.isDigit = false) → isDigits ds = false := by
    intro ds hds
    cases ds with
    | nil => rfl
    | cons d ds => simp [isDigits, hds d (by simp)]
  unfold integer?
  split
  · next ds => rw [hdigits ds fun c hc => h c (by simp [hc]), if_neg Bool.false_ne_true]
  · next ds => rw [hdigits ds fun c hc => h c (by simp [hc]), if_neg Bool.false_ne_true]
  · rw [hdigits w h, if_neg Bool.false_ne_true]

/-- A word without letters, digits and parentheses is a run. -/
theorem ofWord_of_run {c : Char} {cs : List Char}
    (h : ∀ d ∈ c :: cs, d.isAlpha = false ∧ d.isDigit = false ∧ isParen d = false) :
    ofWord (c :: cs) = ofRun (c :: cs) := by
  obtain ⟨ha, -, hp⟩ := h c (by simp)
  rw [isParen, Bool.or_eq_false_iff, beq_eq_false_iff_ne, beq_eq_false_iff_ne] at hp
  have hname : isName (c :: cs) = false := by
    rw [isName, List.all_cons, ha]
    simp
  have hint : integer? (c :: cs) = none := integer?_eq_none fun d hd => (h d hd).2.1
  by_cases hrun : (c :: cs).all isOperatorChar = true
  · simp only [List.all_cons] at hrun
    simp [ofWord, Token.ofWord?, ofRun, hp, hname, hint, hrun]
  · simp only [List.all_cons] at hrun
    simp [ofWord, Token.ofWord?, ofRun, hp, hname, hint, hrun]

/-- A word that is taken as a run is a run. -/
theorem ofWord_leadingRun {c : Char} {cs : List Char} (h : startsOther (c :: cs) = false) :
    ofWord (c :: leadingRun cs) = ofRun (c :: leadingRun cs) := by
  obtain ⟨-, ha, hd, hp, -⟩ := startsOther_cons_eq_false h
  refine ofWord_of_run (List.forall_mem_cons.2 ⟨⟨ha, hd, hp⟩, ?_⟩)
  intro d hmem
  exact (of_mem_leadingRun hmem).2

end Lexeme

/-! ## Both ways read the same -/

/-- A text starts with the lexeme that is taken first, as a word. It is the first word of the spread text, and the others are the
words of the rest. -/
theorem exists_word_longest {c : Char} (hb : isBlank c = false) (cs : List Char) :
    ∃ word, c :: cs = word ++ (Lexeme.longest c cs).2 ∧
      words (spread (c :: cs)) = word :: words (spread (Lexeme.longest c cs).2) ∧
      Lexeme.ofWord word = (Lexeme.longest c cs).1 := by
  have htaken : ∀ p : Char → Bool, c :: cs = (c :: cs.takeWhile p) ++ cs.dropWhile p := fun p =>
    congrArg (c :: ·) List.takeWhile_append_dropWhile.symm
  fun_cases Lexeme.longest c cs with
  | case1 ha => -- a name
    have hname : isName (c :: cs.takeWhile Char.isAlpha) = true := by
      simp [isName, ha]
    exact ⟨_, htaken Char.isAlpha, words_spread_name ha cs, Lexeme.ofWord_of_isName hname⟩
  | case2 ha hd => -- a numeral
    rw [Bool.not_eq_true] at ha
    have hdigits : isDigits (c :: cs.takeWhile Char.isDigit) = true := by
      simp [isDigits, hd]
    have hterm : (c.isDigit || (isSign c && startsWithDigit cs)) = true := by
      rw [hd, Bool.true_or]
    exact ⟨_, htaken Char.isDigit, words_spread_numeral ha hterm, Lexeme.ofWord_of_isDigits hdigits⟩
  | case3 _ _ hs => -- a numeral after a plus sign
    rw [Bool.and_eq_true, beq_iff_eq] at hs
    obtain ⟨rfl, hs⟩ := hs
    exact ⟨_, htaken Char.isDigit, words_spread_numeral rfl hs, Lexeme.ofWord_plus (Lexeme.isDigits_takeWhile hs)⟩
  | case4 _ _ _ hs => -- a numeral after a minus sign
    rw [Bool.and_eq_true, beq_iff_eq] at hs
    obtain ⟨rfl, hs⟩ := hs
    exact ⟨_, htaken Char.isDigit, words_spread_numeral rfl hs, Lexeme.ofWord_minus (Lexeme.isDigits_takeWhile hs)⟩
  | case5 _ _ _ _ hc => -- an opening parenthesis
    obtain rfl := beq_iff_eq.1 hc
    exact ⟨['('], rfl, words_spread_paren rfl cs, rfl⟩
  | case6 _ _ _ _ _ hc => -- a closing parenthesis
    obtain rfl := beq_iff_eq.1 hc
    exact ⟨[')'], rfl, words_spread_paren rfl cs, rfl⟩
  | case7 ha hd hplus hminus hopen hclose => -- a run
    have hother : startsOther (c :: cs) = false := by
      clear htaken
      simp only [Bool.not_eq_true] at ha hd hplus hminus hopen hclose
      cases hs : startsWithDigit cs <;> simp_all [startsOther, isParen, isSign]
    have hrun : c :: cs = (c :: leadingRun cs) ++ cs.drop (leadingRun cs).length :=
      congrArg (c :: ·) (leadingRun_append_drop cs).symm
    exact ⟨_, hrun, words_spread_run hother, Lexeme.ofWord_leadingRun hother⟩

/-- The words of the spread text are, one by one, the lexemes that the scanner takes. -/
theorem map_ofWord_words_spread (s : List Char) : (words (spread s)).map Lexeme.ofWord = Lexeme.scan s := by
  fun_induction Lexeme.scan s with
  | case1 =>
    rw [spread_nil]
    rfl
  | case2 c cs hb ih => rw [spread_blank hb, words_cons_blank hb, ih]
  | case3 c cs hb ih =>
    obtain ⟨word, -, hwords, hword⟩ := exists_word_longest (Bool.not_eq_true _ ▸ hb) cs
    rw [hwords, List.map_cons, hword, ih]

namespace Lexeme

/-- A line that is not blank has the lexemes that the scanner takes. -/
theorem ofLine_of_not_blank {line : List Char} (h : line.all isBlank = false) : ofLine line = .ok (scan line) := by
  have htrim : trim line ≠ [] := by
    intro ht
    rw [trim_eq_nil_iff.1 ht] at h
    cases h
  rw [ofLine, if_neg htrim, ← map_ofWord_words_spread]
  rfl

/-- A blank line is an error as a whole. -/
theorem ofLine_of_blank {line : List Char} (h : line.all isBlank = true) : ofLine line = .error .invalidExpression := by
  rw [ofLine, if_pos (trim_eq_nil_iff.2 h)]

/-- Reading a line is reading it by longest match: a line that is not blank has the lexemes that are taken in one pass, the
longest at each place, and a blank line is an error. -/
theorem ofLine_eq_longestMatch (line : List Char) :
    ofLine line = if line.all isBlank then .error .invalidExpression else .ok (scan line) := by
  by_cases h : line.all isBlank = true
  · rw [if_pos h]
    exact ofLine_of_blank h
  · rw [if_neg h]
    exact ofLine_of_not_blank (Bool.not_eq_true _ ▸ h)

end Lexeme

/-! ## The scanner, lexeme by lexeme -/

/-- A run of characters of a kind, before a character of another kind or the end, is what is taken and dropped of that kind. -/
theorem takeWhile_dropWhile_append {p : Char → Bool} {w rest : List Char} (hw : ∀ c ∈ w, p c = true)
    (hrest : ∀ c, rest.head? = some c → p c = false) :
    (w ++ rest).takeWhile p = w ∧ (w ++ rest).dropWhile p = rest := by
  rw [List.takeWhile_append_of_pos hw, List.dropWhile_append_of_pos hw]
  cases rest with
  | nil => simp
  | cons c rest => simp [hrest c rfl]

theorem isDigits_cons {c : Char} {ds : List Char} (h : isDigits (c :: ds) = true) :
    c.isDigit = true ∧ ∀ d ∈ ds, d.isDigit = true := by
  simpa [isDigits] using h

namespace Lexeme

theorem scan_nil : scan [] = [] := by
  rw [scan.eq_def]

theorem scan_cons (c : Char) (cs : List Char) :
    scan (c :: cs) = if isBlank c then scan cs else (longest c cs).1 :: scan (longest c cs).2 := by
  rw [scan.eq_def]

/-- Blanks are skipped. -/
theorem scan_blanks {blanks : List Char} (h : ∀ c ∈ blanks, isBlank c = true) (rest : List Char) :
    scan (blanks ++ rest) = scan rest := by
  induction blanks with
  | nil => rfl
  | cons c blanks ih =>
    rw [List.cons_append, scan_cons, if_pos (h c (by simp))]
    exact ih fun d hd => h d (by simp [hd])

/-- Only a text that is blank throughout has no lexemes. -/
theorem scan_eq_nil_iff {s : List Char} : scan s = [] ↔ s.all isBlank = true := by
  induction s with
  | nil => exact iff_of_true scan_nil rfl
  | cons c cs ih =>
    rw [scan_cons, List.all_cons, Bool.and_eq_true]
    split
    · next hb => rw [ih, and_iff_right hb]
    · next hb => exact iff_of_false (List.cons_ne_nil _ _) fun h => hb h.1

/-- The lexemes of a line are those that the scanner takes, if it takes any. -/
theorem ofLine_eq_ok_iff {line : List Char} {lexemes : List Lexeme} :
    ofLine line = .ok lexemes ↔ scan line = lexemes ∧ lexemes ≠ [] := by
  by_cases h : line.all isBlank = true
  · rw [ofLine_of_blank h, scan_eq_nil_iff.2 h]
    refine iff_of_false (by simp) ?_
    rintro ⟨rfl, hne⟩
    exact hne rfl
  · rw [ofLine_of_not_blank (Bool.not_eq_true _ ▸ h), Except.ok.injEq]
    refine ⟨fun hscan => ⟨hscan, ?_⟩, And.left⟩
    rintro rfl
    exact h (scan_eq_nil_iff.1 hscan)

/-- Where no blank stands, a lexeme is taken. -/
theorem scan_of_longest {c : Char} {cs rest : List Char} {lexeme : Lexeme} (hb : isBlank c = false)
    (h : longest c cs = (lexeme, rest)) : scan (c :: cs) = lexeme :: scan rest := by
  rw [scan_cons, hb, if_neg Bool.false_ne_true, h]

/-- Where no letter stands, no name is taken. -/
theorem longest_ne_identifier {c : Char} (ha : c.isAlpha = false) (cs : List Char) (name : List Char) :
    (longest c cs).1 ≠ .ok (.identifier name) := by
  simp only [longest, ha, Bool.false_eq_true, if_false, ofRun]
  repeat' split
  all_goals simp

/-- A name is taken where no letter follows it. -/
theorem scan_name {name rest : List Char} (h : isName name = true)
    (hrest : ∀ c, rest.head? = some c → c.isAlpha = false) :
    scan (name ++ rest) = .ok (.identifier name) :: scan rest := by
  cases name with
  | nil => cases h
  | cons c cs =>
    have hletters : c.isAlpha = true ∧ ∀ d ∈ cs, d.isAlpha = true := by
      simpa [isName] using h
    obtain ⟨htake, hdrop⟩ := takeWhile_dropWhile_append hletters.2 hrest
    rw [List.cons_append]
    refine scan_of_longest (isBlank_eq_false_of_isAlpha hletters.1) ?_
    rw [longest, if_pos hletters.1, htake, hdrop]

/-- Digits are taken where no digit follows them. -/
theorem scan_digits {ds rest : List Char} (h : isDigits ds = true)
    (hrest : ∀ c, rest.head? = some c → c.isDigit = false) :
    scan (ds ++ rest) = .ok (.literal (digitsValue ds) none) :: scan rest := by
  cases ds with
  | nil => cases h
  | cons c cs =>
    obtain ⟨hc, hcs⟩ := isDigits_cons h
    obtain ⟨htake, hdrop⟩ := takeWhile_dropWhile_append hcs hrest
    rw [List.cons_append]
    refine scan_of_longest (isBlank_eq_false_of_isDigit hc) ?_
    rw [longest, isAlpha_eq_false_of_isDigit hc, if_neg Bool.false_ne_true, if_pos hc, htake, hdrop]

theorem startsWithDigit_append {ds : List Char} (h : isDigits ds = true) (rest : List Char) :
    startsWithDigit (ds ++ rest) = true := by
  cases ds with
  | nil => cases h
  | cons c cs => exact (isDigits_cons h).1

/-- Digits are taken with a plus sign directly before them. -/
theorem scan_plus {ds rest : List Char} (h : isDigits ds = true)
    (hrest : ∀ c, rest.head? = some c → c.isDigit = false) :
    scan ('+' :: (ds ++ rest)) = .ok (.literal (digitsValue ds) (some .add)) :: scan rest := by
  obtain ⟨htake, hdrop⟩ := takeWhile_dropWhile_append (isDigits_iff.1 h).2 hrest
  refine scan_of_longest (by decide) ?_
  rw [longest, if_neg (by decide), if_neg (by decide), startsWithDigit_append h, if_pos (by decide), htake, hdrop]

/-- Digits are taken with a minus sign directly before them. -/
theorem scan_minus {ds rest : List Char} (h : isDigits ds = true)
    (hrest : ∀ c, rest.head? = some c → c.isDigit = false) :
    scan ('-' :: (ds ++ rest)) = .ok (.literal (-digitsValue ds) (some .subtract)) :: scan rest := by
  obtain ⟨htake, hdrop⟩ := takeWhile_dropWhile_append (isDigits_iff.1 h).2 hrest
  refine scan_of_longest (by decide) ?_
  rw [longest, if_neg (by decide), if_neg (by decide), startsWithDigit_append h, if_neg (by decide), if_pos (by decide),
    htake, hdrop]

theorem scan_openParen (rest : List Char) : scan ('(' :: rest) = .ok .openParen :: scan rest :=
  scan_of_longest (by decide) rfl

theorem scan_closeParen (rest : List Char) : scan (')' :: rest) = .ok .closeParen :: scan rest :=
  scan_of_longest (by decide) rfl

/-- Where no other lexeme starts, the run up to the next one is taken. -/
theorem scan_of_not_startsOther {c : Char} {cs : List Char} (h : startsOther (c :: cs) = false) :
    scan (c :: cs) = .ofRun (c :: leadingRun cs) :: scan (cs.drop (leadingRun cs).length) := by
  obtain ⟨hb, ha, hd, hp, hs⟩ := startsOther_cons_eq_false h
  have hplus : (c == '+' && startsWithDigit cs) = false := by
    cases hdig : startsWithDigit cs <;> simp_all [isSign]
  have hminus : (c == '-' && startsWithDigit cs) = false := by
    cases hdig : startsWithDigit cs <;> simp_all [isSign]
  rw [isParen, Bool.or_eq_false_iff] at hp
  refine scan_of_longest hb ?_
  simp only [longest, ha, hd, hplus, hminus, hp.1, hp.2, if_neg Bool.false_ne_true]

/-- An operator character is no blank, letter, digit or parenthesis. -/
theorem isOperatorChar_kind {c : Char} (h : isOperatorChar c = true) :
    isBlank c = false ∧ c.isAlpha = false ∧ c.isDigit = false ∧ isParen c = false := by
  simp only [isOperatorChar, isSign, Bool.or_eq_true, beq_iff_eq] at h
  rcases h with ((rfl | rfl) | rfl) | rfl <;> decide

/-- An operator character is no part of another lexeme, unless it is a sign directly before a digit. -/
theorem startsOther_of_isOperatorChar {c : Char} {cs : List Char} (h : isOperatorChar c = true)
    (hs : (isSign c && startsWithDigit cs) = false) : startsOther (c :: cs) = false := by
  obtain ⟨hb, ha, hd, hp⟩ := isOperatorChar_kind h
  rw [startsOther, hb, ha, hd, hp, hs]
  rfl

/-- A character of a run is no sign directly before a digit, if the last one is none. -/
theorem not_sign_before_digit {c : Char} {run rest : List Char} (hrun : ∀ d ∈ run, isOperatorChar d = true)
    (hsign : startsWithDigit rest = true → isSign c = false) : (isSign c && startsWithDigit (run ++ rest)) = false := by
  cases run with
  | nil =>
    cases hd : startsWithDigit rest with
    | false => rw [List.nil_append, hd, Bool.and_false]
    | true => rw [hsign hd, Bool.false_and]
  | cons d run =>
    have hd : startsWithDigit (d :: run ++ rest) = false := (isOperatorChar_kind (hrun d (by simp))).2.2.1
    rw [hd, Bool.and_false]

/-- No other lexeme starts at the front of a run of operator characters, if no sign of the run stands before a digit after
it. -/
theorem startsOther_run {c : Char} {run rest : List Char} (hrun : ∀ d ∈ c :: run, isOperatorChar d = true)
    (hsign : startsWithDigit rest = true → ∀ d ∈ c :: run, isSign d = false) :
    startsOther (c :: (run ++ rest)) = false := by
  obtain ⟨hc, hrun'⟩ := List.forall_mem_cons.1 hrun
  exact startsOther_of_isOperatorChar hc (not_sign_before_digit hrun' fun h => hsign h c List.mem_cons_self)

/-- A run of operator characters goes on up to where another lexeme starts, if no sign of it stands before a digit there. -/
theorem leadingRun_append {run rest : List Char} (hrun : ∀ c ∈ run, isOperatorChar c = true)
    (hrest : startsOther rest = true) (hsign : startsWithDigit rest = true → ∀ c ∈ run, isSign c = false) :
    leadingRun (run ++ rest) = run := by
  induction run with
  | nil =>
    cases rest with
    | nil => rfl
    | cons c rest => rw [List.nil_append, leadingRun, if_pos hrest]
  | cons c run ih =>
    rw [List.cons_append, leadingRun, startsOther_run hrun hsign, if_neg Bool.false_ne_true,
      ih (List.forall_mem_cons.1 hrun).2 fun h => (List.forall_mem_cons.1 (hsign h)).2]

/-- A run of operator characters is taken before another lexeme, if no sign of it stands before a digit there. -/
theorem scan_run {run rest : List Char} (hne : run ≠ []) (hrun : ∀ c ∈ run, isOperatorChar c = true)
    (hrest : startsOther rest = true) (hsign : startsWithDigit rest = true → ∀ c ∈ run, isSign c = false) :
    scan (run ++ rest) = .ok (.run run) :: scan rest := by
  cases run with
  | nil => exact absurd rfl hne
  | cons c run =>
    have htoken : ofRun (c :: run) = .ok (.run (c :: run)) := if_pos (List.all_eq_true.2 hrun)
    have hleading : leadingRun (run ++ rest) = run :=
      leadingRun_append (List.forall_mem_cons.1 hrun).2 hrest fun h => (List.forall_mem_cons.1 (hsign h)).2
    rw [List.cons_append, scan_of_not_startsOther (startsOther_run hrun hsign), hleading, List.drop_left, htoken]

end Lexeme

end IntegerCalculator
