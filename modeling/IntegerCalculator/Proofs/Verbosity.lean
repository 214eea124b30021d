import IntegerCalculator.Options

/-!
# Asking for more detail

Each word of an accepted command line asks for more detail a number of times that is told from the word alone
(`CommandLine.verboseFlags`), and the options count these times in eight bits (`Options.verbosity_of_ofArguments`). One more
flag can always be given first, and it changes nothing but the count (`Options.ofArguments_verbose_cons`).

So one more flag asks for at least as much of the log, with one exception: where the count of eight bits is full, it starts from
zero again, and nothing but errors is logged (`Options.level_of_one_more_verbose`).
-/

namespace IntegerCalculator

namespace CommandLine

/-- How often a word asks for more detail: once as a long option, and in short options as often as the letter stands before the
script. -/
def verboseFlags : List Char → Nat
  | '-' :: '-' :: text => if (text.dropWhile (· == '-')).takeWhile (· != '=') = "verbose".toList then 1 else 0
  | '-' :: letters => (letters.takeWhile (· != 's')).count 'v'
  | _ => 0

/-- How often the words of a command line ask for more detail. -/
def verboseCount : List (List Char) → Nat
  | [] => 0
  | arg :: arguments => verboseFlags arg + verboseCount arguments

/-- The word is the flag that asks for more detail, short or long. -/
def IsVerboseFlag (arg : List Char) : Prop := arg = "-v".toList ∨ arg = "--verbose".toList

/-- What has been read, with more detail asked for some times more. -/
def addVerbose (n : Nat) (r : CommandLine) : CommandLine := { r with verbose := r.verbose + n }

/-! ## How often more detail is asked for -/

variable {r next : CommandLine}

/-- Words in two parts ask for more detail as often as the parts together. -/
theorem verboseCount_append (before after : List (List Char)) :
    verboseCount (before ++ after) = verboseCount before + verboseCount after := by
  induction before with
  | nil => exact (Nat.zero_add _).symm
  | cons arg before ih => rw [List.cons_append, verboseCount, verboseCount, ih, Nat.add_assoc]

/-- Short options ask for more detail once for each of its letters before the script. -/
theorem verbose_shortOptions {letters : List Char} (h : r.shortOptions letters = .ok next) :
    next.verbose = r.verbose + (letters.takeWhile (· != 's')).count 'v' := by
  induction letters generalizing r with
  | nil =>
    cases h
    rfl
  | cons c cs ih =>
    unfold shortOptions at h
    split at h
    · next hs =>
      have hnone : (c :: cs).takeWhile (· != 's') = [] := List.takeWhile_cons_of_neg (by simpa using hs)
      rw [hnone]
      cases h
      split <;> rfl
    · next hs =>
      have hcons : (c :: cs).takeWhile (· != 's') = c :: cs.takeWhile (· != 's') :=
        List.takeWhile_cons_of_pos (by simpa using hs)
      rw [hcons]
      split at h
      · next hv =>
        have hmore : r.noteVerbose.verbose = r.verbose + 1 := rfl
        rw [ih h, hmore, beq_iff_eq.1 hv, List.count_cons_self]
        omega
      · split at h
        · cases h
        · split at h
          · cases h
          · cases h

/-- A long option asks for more detail if that is its name. -/
theorem verbose_longOption {text : List Char} (h : r.longOption text = .ok next) :
    next.verbose = r.verbose + if text.takeWhile (· != '=') = "verbose".toList then 1 else 0 := by
  unfold longOption at h
  dsimp only at h
  split at h
  · next hscript =>
    rw [hscript, if_neg (by decide)]
    cases h
    split <;> rfl
  · split at h
    · next hverbose =>
      rw [if_pos hverbose]
      cases h
      rfl
    · split at h
      · cases h
      · split at h
        · cases h
        · cases h

theorem verboseFlags_short {c : Char} (hc : c ≠ '-') (cs : List Char) :
    verboseFlags ('-' :: c :: cs) = ((c :: cs).takeWhile (· != 's')).count 'v' := by
  unfold verboseFlags
  split
  · next heq => exact absurd (List.cons.inj (List.cons.inj heq).2).1 hc
  · next heq => rw [(List.cons.inj heq).2]
  · next hno => exact absurd rfl (hno _)

/-- A word that is no option does not ask for more detail. -/
theorem verboseFlags_value {arg : List Char} (h : ∀ c cs, arg ≠ '-' :: c :: cs) : verboseFlags arg = 0 := by
  unfold verboseFlags
  split
  · exact absurd rfl (h _ _)
  · next letters _ =>
    cases letters with
    | nil => rfl
    | cons c cs => exact absurd rfl (h c cs)
  · rfl

/-- A word that is read asks for more detail as often as is told from it alone. -/
theorem verbose_word {arg : List Char} (h : r.word arg = .ok next) : next.verbose = r.verbose + verboseFlags arg := by
  unfold word at h
  split at h
  · cases h
  · split at h
    · cases h
      rfl
    · exact verbose_longOption h
    · next c cs _ hshort =>
      rw [verboseFlags_short hshort]
      exact verbose_shortOptions h
    · next hvalue =>
      rw [verboseFlags_value hvalue]
      split at h
      · cases h
        rfl
      · cases h

/-- Words that are read ask for more detail as often as is told from them alone. -/
theorem verbose_foldlM_word {arguments : List (List Char)} (h : arguments.foldlM word r = .ok next) :
    next.verbose = r.verbose + verboseCount arguments := by
  induction arguments generalizing r with
  | nil =>
    cases h
    rfl
  | cons arg arguments ih =>
    rw [List.foldlM_cons] at h
    cases hword : r.word arg with
    | error refusal =>
      rw [hword] at h
      cases h
    | ok middle =>
      rw [hword] at h
      have hcount : verboseCount (arg :: arguments) = verboseFlags arg + verboseCount arguments := rfl
      rw [ih h, verbose_word hword, hcount, Nat.add_assoc]

/-! ## One flag more at the front -/

theorem noteVerbose_addVerbose (r : CommandLine) (n : Nat) :
    (r.addVerbose n).noteVerbose = r.noteVerbose.addVerbose n := by
  simp [addVerbose, noteVerbose, Nat.add_right_comm]

/-- Asking for more detail changes nothing in what is read after it. -/
theorem shortOptions_addVerbose (r : CommandLine) (n : Nat) (letters : List Char) :
    (r.addVerbose n).shortOptions letters = (r.shortOptions letters).map (addVerbose n) := by
  induction letters generalizing r with
  | nil => rfl
  | cons c cs ih =>
    unfold shortOptions
    split
    · split <;> rfl
    · split
      · rw [noteVerbose_addVerbose, ih]
      · split
        · rfl
        · split <;> rfl

theorem longOption_addVerbose (r : CommandLine) (n : Nat) (text : List Char) :
    (r.addVerbose n).longOption text = (r.longOption text).map (addVerbose n) := by
  unfold longOption
  dsimp only
  split
  · split <;> rfl
  · split
    · rw [noteVerbose_addVerbose]
      rfl
    · split
      · rfl
      · split <;> rfl

theorem word_addVerbose (r : CommandLine) (n : Nat) (arg : List Char) :
    (r.addVerbose n).word arg = (r.word arg).map (addVerbose n) := by
  unfold word
  have hover : (r.addVerbose n).optionsOver = r.optionsOver := rfl
  have hawaits : (r.addVerbose n).awaitsValue = r.awaitsValue := rfl
  rw [hover, hawaits]
  split
  · rfl
  · split
    · rfl
    · exact longOption_addVerbose r n _
    · exact shortOptions_addVerbose r n _
    · split <;> rfl

theorem foldlM_word_addVerbose (r : CommandLine) (n : Nat) (arguments : List (List Char)) :
    arguments.foldlM word (r.addVerbose n) = (arguments.foldlM word r).map (addVerbose n) := by
  induction arguments generalizing r with
  | nil => rfl
  | cons arg arguments ih =>
    rw [List.foldlM_cons, List.foldlM_cons, word_addVerbose]
    cases r.word arg with
    | error refusal => rfl
    | ok middle => exact ih middle

/-- The options count how often more detail is asked for, and do not look at it otherwise. -/
theorem options_addVerbose (r : CommandLine) (n : Nat) :
    (r.addVerbose n).options = r.options.map fun o => { o with verbosity := o.verbosity + UInt8.ofNat n } := by
  unfold options
  have hscripts : (r.addVerbose n).scripts = r.scripts := rfl
  have hscript : (r.addVerbose n).script = r.script := rfl
  rw [hscripts, hscript]
  split
  · rfl
  · split
    · rfl
    · simp [Except.map, addVerbose]

end CommandLine

namespace Options

open CommandLine

/-- One flag more at the front is always accepted where the other words are, and it is counted and changes nothing else. -/
theorem ofArguments_verbose_cons {flag : List Char} (h : IsVerboseFlag flag) (arguments : List (List Char)) :
    ofArguments (flag :: arguments) = (ofArguments arguments).map fun o => { o with verbosity := o.verbosity + 1 } := by
  have hflag : word {} flag = .ok (addVerbose 1 {}) := by
    rcases h with rfl | rfl <;> rfl
  unfold ofArguments
  rw [List.foldlM_cons, hflag]
  change (arguments.foldlM word (addVerbose 1 {}) >>= fun r => r.options) = _
  rw [foldlM_word_addVerbose]
  cases arguments.foldlM word {} with
  | error refusal => rfl
  | ok r => exact options_addVerbose r 1

/-- The options count how often the words ask for more detail, in eight bits. -/
theorem verbosity_of_ofArguments {arguments : List (List Char)} {o : Options} (h : ofArguments arguments = .ok o) :
    o.verbosity.toNat = verboseCount arguments % 256 := by
  unfold ofArguments at h
  cases hread : arguments.foldlM word {} with
  | error refusal =>
    rw [hread] at h
    cases h
  | ok r =>
    rw [hread] at h
    change r.options = .ok o at h
    have hcount : r.verbose = verboseCount arguments := (verbose_foldlM_word hread).trans (Nat.zero_add _)
    unfold options at h
    split at h
    · cases h
    · split at h
      · cases h
      · cases h
        rw [← hcount]
        exact UInt8.toNat_ofNat'

/-- The level goes up with the count and stops at the most detailed one. -/
theorem detail_level (o : Options) : o.level.detail = min o.verbosity.toNat 4 + 1 := by
  unfold level
  match o.verbosity.toNat with
  | 0 => rfl
  | 1 => rfl
  | 2 => rfl
  | 3 => rfl
  | n + 4 => simp [Level.detail]

/-- The level of a command line is the most detailed one exactly when its count in eight bits is four or more. One flag more can
be given first, and the script stays the same. Wherever it is given, if the words are still accepted, the level is at least as
detailed as before if and only if the count was not full, that is, 255 or 255 more than a multiple of 256. -/
theorem level_of_one_more_verbose {arguments : List (List Char)} {o : Options} (h : ofArguments arguments = .ok o) :
    (o.level = .trace ↔ 4 ≤ verboseCount arguments % 256) ∧
      ∀ flag, IsVerboseFlag flag →
        (∃ p, ofArguments (flag :: arguments) = .ok p ∧ p.script = o.script) ∧
        ∀ before after p, arguments = before ++ after → ofArguments (before ++ flag :: after) = .ok p →
          (o.level.detail ≤ p.level.detail ↔ verboseCount arguments % 256 ≠ 255) := by
  have hcount := verbosity_of_ofArguments h
  refine ⟨?_, ?_⟩
  · have htrace : o.level = .trace ↔ o.level.detail = Level.trace.detail := ⟨congrArg Level.detail, Level.detail_injective⟩
    have hmost : Level.trace.detail = 5 := rfl
    rw [htrace, hmost, detail_level, hcount]
    omega
  · intro flag hflag
    refine ⟨⟨{ o with verbosity := o.verbosity + 1 }, ?_, rfl⟩, ?_⟩
    · rw [ofArguments_verbose_cons hflag, h]
      rfl
    · rintro before after p rfl hp
      have hone : verboseFlags flag = 1 := by
        rcases hflag with rfl | rfl <;> rfl
      have hmore : verboseCount (before ++ flag :: after) = verboseCount (before ++ after) + 1 := by
        rw [verboseCount_append, verboseCount_append, verboseCount, hone]
        omega
      rw [detail_level, detail_level, hcount, verbosity_of_ofArguments hp, hmore]
      omega

/-- A flag more between a short group of options and the script, which a long flag follows. -/
theorem level_of_one_more_verbose_before_script :
    let arguments := ["-vv".toList, "-s".toList, "vvv".toList, "--verbose".toList]
    let more := ["-vv".toList, "-v".toList, "-s".toList, "vvv".toList, "--verbose".toList]
    ofArguments arguments = .ok ⟨3, some "vvv".toList⟩ ∧ IsVerboseFlag "-v".toList ∧
      ofArguments more = .ok ⟨4, some "vvv".toList⟩ ∧
      (level ⟨3, some "vvv".toList⟩).detail ≤ (level ⟨4, some "vvv".toList⟩).detail := by
  intro arguments more
  have harguments : ofArguments arguments = .ok ⟨3, some "vvv".toList⟩ := rfl
  have hmore : ofArguments more = .ok ⟨4, some "vvv".toList⟩ := rfl
  have hflag : IsVerboseFlag "-v".toList := .inl rfl
  obtain ⟨-, hlevel⟩ := level_of_one_more_verbose harguments
  exact ⟨harguments, hflag, hmore, ((hlevel _ hflag).2 ["-vv".toList] _ _ rfl hmore).2 (by decide)⟩

/-- Any number of short flags is accepted. -/
theorem ofArguments_replicate_verbose (n : Nat) :
    ofArguments (List.replicate n "-v".toList) = .ok ⟨UInt8.ofNat n, none⟩ := by
  induction n with
  | zero => rfl
  | succ n ih =>
    rw [List.replicate_succ, ofArguments_verbose_cons (.inl rfl), ih]
    simp [Except.map]

/-- After 255 flags one more takes the log from the most detailed level to the one of errors only, although the command line
then asks for more detail 256 times. -/
theorem level_falls_after_full_count :
    let arguments := List.replicate 255 "-v".toList
    ofArguments arguments = .ok ⟨255, none⟩ ∧ level ⟨255, none⟩ = .trace ∧
      ofArguments ("-v".toList :: arguments) = .ok ⟨0, none⟩ ∧ verboseCount ("-v".toList :: arguments) = 256 ∧
      level ⟨0, none⟩ = .error ∧ ¬(level ⟨255, none⟩).detail ≤ (level ⟨0, none⟩).detail :=
  ⟨ofArguments_replicate_verbose 255, rfl, ofArguments_replicate_verbose 256, by decide +kernel, rfl, by decide⟩

end Options

end IntegerCalculator
