import IntegerCalculator.Text.Blank
import IntegerCalculator.Text.Lines

/-!
# Texts as byte streams

A text is sent as its UTF-8 bytes (`encodeText`). The lines that arrive are the lines of the text, except that a carriage return
at the end of a line and an empty last line are lost on the way (`exists_byteLines_encodeText`). This rests on one property of
UTF-8: a character outside ASCII has no byte of ASCII (`le_of_mem_utf8EncodeChar`), so the bytes are split into lines where the
text is.
-/

namespace IntegerCalculator

/-- The UTF-8 bytes of a text. -/
def encodeText (s : List Char) : List UInt8 := s.flatMap String.utf8EncodeChar

/-- The bytes of a text are read as the text. -/
theorem decodeText_encodeText (s : List Char) : decodeText (encodeText s) = some s := by
  have hbytes : (⟨(encodeText s).toArray⟩ : ByteArray) = s.utf8Encode := ByteArray.ext List.data_toByteArray.symm
  have hread : String.fromUTF8? s.utf8Encode = some (String.ofList s) := dif_pos ByteArray.isValidUTF8_utf8Encode
  rw [decodeText, hbytes, hread, Option.map_some, String.toList_ofList]

/-! ## Splitting what a function gives -/

/-- A function that sends a separator between two parts to a separator between what it gives for them, and puts no separator
elsewhere, can be applied before or after splitting. -/
theorem splitOn_map {α β : Type} [BEq α] [LawfulBEq α] [BEq β] [LawfulBEq β] {f : List α → List β} {c : α} {d : β}
    (happend : ∀ s t, f (s ++ c :: t) = f s ++ d :: f t) (hmem : ∀ s, c ∉ s → d ∉ f s) (s : List α) :
    (f s).splitOn d = (s.splitOn c).map f := by
  induction hn : s.length using Nat.strongRecOn generalizing s with
  | ind n ih =>
    by_cases hc : c ∈ s
    · obtain ⟨first, rest, rfl, hfirst⟩ := List.eq_append_cons_of_mem hc
      have hlt : rest.length < n := by
        rw [← hn, List.length_append, List.length_cons]
        omega
      rw [happend, List.splitOn_append_cons_self_of_not_mem (hmem first hfirst),
        List.splitOn_append_cons_self_of_not_mem hfirst, ih _ hlt rest rfl, List.map_cons]
    · rw [List.splitOn_eq_singleton hc, List.splitOn_eq_singleton (hmem s hc), List.map_singleton]

/-! ## Bytes of characters -/

theorem encodeText_append (s t : List Char) : encodeText (s ++ t) = encodeText s ++ encodeText t := List.flatMap_append

theorem encodeText_singleton (c : Char) : encodeText [c] = String.utf8EncodeChar c := List.flatMap_singleton _ _

/-- The bytes of a character outside ASCII are outside ASCII. -/
theorem le_of_mem_utf8EncodeChar {c : Char} (h : 127 < c.toNat) {b : UInt8} (hb : b ∈ String.utf8EncodeChar c) :
    128 ≤ b.toNat := by
  have hc : c.val.toNat = c.toNat := rfl
  rw [String.utf8EncodeChar.eq_1, hc, if_neg (Nat.not_le.2 h)] at hb
  split at hb
  · simp only [List.mem_cons, List.not_mem_nil, or_false] at hb
    rcases hb with rfl | rfl <;> simp only [UInt8.toNat_ofNat'] <;> omega
  · split at hb
    · simp only [List.mem_cons, List.not_mem_nil, or_false] at hb
      rcases hb with rfl | rfl | rfl <;> simp only [UInt8.toNat_ofNat'] <;> omega
    · simp only [List.mem_cons, List.not_mem_nil, or_false] at hb
      rcases hb with rfl | rfl | rfl | rfl <;> simp only [UInt8.toNat_ofNat'] <;> omega

/-- A character of ASCII has its number as its only byte, and no other character has this byte. -/
theorem mem_utf8EncodeChar_iff {c d : Char} (hd : d.toNat ≤ 127) :
    UInt8.ofNat d.toNat ∈ String.utf8EncodeChar c ↔ c = d := by
  by_cases hc : c.toNat ≤ 127
  · have hbyte : String.utf8EncodeChar c = [UInt8.ofNat c.toNat] := if_pos hc
    rw [hbyte, List.mem_singleton, ← UInt8.toNat_inj, ← Char.toNat_inj, UInt8.toNat_ofNat', UInt8.toNat_ofNat']
    omega
  · refine iff_of_false ?_ ?_
    · intro hmem
      have hle := le_of_mem_utf8EncodeChar (Nat.not_le.1 hc) hmem
      rw [UInt8.toNat_ofNat'] at hle
      omega
    · rintro rfl
      exact hc hd

/-- A line feed is in the bytes of a text when it is in the text. -/
theorem lineFeed_mem_encodeText_iff {s : List Char} : lineFeed ∈ encodeText s ↔ '\n' ∈ s := by
  have hchar : ∀ c : Char, lineFeed ∈ String.utf8EncodeChar c ↔ c = '\n' := by
    intro c
    exact @mem_utf8EncodeChar_iff c '\n' (by decide)
  rw [encodeText, List.mem_flatMap]
  simp only [hchar, exists_eq_right]

/-- The bytes are split at the line feeds where the text is. -/
theorem splitOn_encodeText (s : List Char) : (encodeText s).splitOn lineFeed = (s.splitOn '\n').map encodeText := by
  refine splitOn_map ?_ ?_ s
  · intro s t
    rw [List.append_cons, encodeText_append, encodeText_append, encodeText_singleton, List.append_assoc]
    rfl
  · intro s h
    exact fun hmem => h (lineFeed_mem_encodeText_iff.1 hmem)

/-- At the end of a line a carriage return is lost, and nothing else. -/
theorem exists_dropCarriageReturn_encodeText (s : List Char) :
    ∃ t, dropCarriageReturn (encodeText s) = encodeText t ∧ (s = t ∨ s = t ++ ['\r']) := by
  rcases List.eq_nil_or_concat s with rfl | ⟨t, c, rfl⟩
  · exact ⟨[], rfl, .inl rfl⟩
  · rw [List.concat_eq_append, encodeText_append, encodeText_singleton]
    by_cases hc : c = '\r'
    · subst hc
      refine ⟨t, ?_, .inr rfl⟩
      have hbyte : String.utf8EncodeChar '\r' = [carriageReturn] := rfl
      rw [hbyte, dropCarriageReturn, List.getLast?_concat, if_pos rfl, List.dropLast_concat]
    · have hlast : (encodeText t ++ String.utf8EncodeChar c).getLast? ≠ some carriageReturn := by
        rw [List.getLast?_append, List.getLast?_eq_some_getLast String.utf8EncodeChar_ne_nil, Option.some_or]
        intro hlast
        have hmem := List.getLast_mem (@String.utf8EncodeChar_ne_nil c)
        rw [Option.some.inj hlast] at hmem
        exact hc ((@mem_utf8EncodeChar_iff c '\r' (by decide)).1 hmem)
      rw [dropCarriageReturn, if_neg hlast, ← encodeText_singleton, ← encodeText_append]
      exact ⟨_, rfl, .inl rfl⟩

/-- The lines that arrive are those of the text, for whoever does not look at a carriage return at the end of a line and at
lines that come to nothing. -/
theorem exists_byteLines_encodeText {g : List Char → List Char} (hreturn : ∀ t, g (t ++ ['\r']) = g t) (hnil : g [] = [])
    (s : List Char) :
    ∃ lines : List (List Char), byteLines (encodeText s) = lines.map encodeText ∧
      (lines.map g).filter (!·.isEmpty) = ((s.splitOn '\n').map g).filter (!·.isEmpty) := by
  rw [byteLines, splitOn_encodeText]
  generalize s.splitOn '\n' = pieces
  induction pieces with
  | nil => exact ⟨[], rfl, rfl⟩
  | cons piece pieces ih =>
    cases pieces with
    | nil =>
      cases piece with
      | nil =>
        refine ⟨[], rfl, ?_⟩
        rw [List.map_singleton, hnil]
        rfl
      | cons c piece =>
        have hbytes : (encodeText (c :: piece)).isEmpty = false := by
          rw [encodeText, List.flatMap_cons, List.isEmpty_eq_false_iff]
          exact List.append_ne_nil_of_left_ne_nil String.utf8EncodeChar_ne_nil _
        refine ⟨[c :: piece], ?_, rfl⟩
        rw [List.map_singleton, linesOfPieces, hbytes]
        rfl
    | cons next pieces =>
      obtain ⟨lines, hlines, hkept⟩ := ih
      obtain ⟨line, hline, hpiece⟩ := exists_dropCarriageReturn_encodeText piece
      refine ⟨line :: lines, ?_, ?_⟩
      · have hfirst : linesOfPieces ((piece :: next :: pieces).map encodeText) =
            dropCarriageReturn (encodeText piece) :: linesOfPieces ((next :: pieces).map encodeText) := rfl
        rw [hfirst, hline, hlines, List.map_cons]
      · have hg : g line = g piece := by
          rcases hpiece with rfl | rfl
          · rfl
          · exact (hreturn line).symm
        rw [List.map_cons, List.map_cons, List.filter_cons, List.filter_cons, hkept, hg]

end IntegerCalculator
