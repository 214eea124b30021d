import IntegerCalculator.Postfix.Item

/-!
# Shown postfix forms

The text of a postfix form is read back: split at its spaces, a piece that is one of the four operator symbols alone is that
operator, and any other piece is a decimal numeral (`Postfix.ofText?`). No item is shown as an empty text or with a space in it,
so the pieces are the texts of the items (`Postfix.splitOn_text`), and a numeral is never a symbol alone, even when it starts
with a minus sign (`Item.ofText?_of_integer?`). So the text determines the items, of whatever size and in whatever order they
are (`Postfix.text_determines_items`).
-/

namespace IntegerCalculator

/-- The item that a piece of text shows: an operator by its symbol alone, an operand by a numeral. -/
def Item.ofText? : List Char → Option Item
  | ['+'] => some (.operator .add)
  | ['-'] => some (.operator .subtract)
  | ['*'] => some (.operator .multiply)
  | ['/'] => some (.operator .divide)
  | piece => (integer? piece).map .operand

/-- The postfix form that a text shows: what the pieces between its spaces show, where the empty text has no piece; `none` when
a piece shows no item. -/
def Postfix.ofText? : List Char → Option Postfix
  | [] => some []
  | s => (s.splitOn ' ').mapM Item.ofText?

namespace Item

/-- A numeral shows an operand, since no symbol of an operator is a numeral. -/
theorem ofText?_of_integer? {piece : List Char} {value : Int} (h : integer? piece = some value) :
    ofText? piece = some (.operand value) := by
  unfold ofText?
  split
  case h_5 => rw [h, Option.map_some]
  all_goals cases h

/-- The text of an item shows this item. -/
theorem ofText?_text (item : Item) : ofText? item.text = some item := by
  cases item with
  | operand value => exact ofText?_of_integer? (integer?_decimal value)
  | operator op => cases op <;> rfl

/-- No item is shown as the empty text, which is neither a symbol nor a numeral. -/
theorem text_ne_nil (item : Item) : item.text ≠ [] := by
  intro h
  have hread := ofText?_text item
  rw [h] at hread
  cases hread

/-- The text of an item has no space. -/
theorem space_not_mem_text (item : Item) : ' ' ∉ item.text := by
  cases item with
  | operand value => exact blank_not_mem_decimal (by decide) value
  | operator op => cases op <;> decide

end Item

namespace Postfix

/-- The pieces of a text between its spaces are the texts of the items that it shows. -/
theorem splitOn_text {items : Postfix} (hne : items ≠ []) : items.text.splitOn ' ' = items.map Item.text := by
  refine List.splitOn_intercalate ' ' ?_ (mt List.map_eq_nil_iff.1 hne)
  intro piece hpiece
  obtain ⟨item, -, rfl⟩ := List.mem_map.1 hpiece
  exact item.space_not_mem_text

/-- Only the empty form is shown as the empty text. -/
theorem text_ne_nil {items : Postfix} (hne : items ≠ []) : items.text ≠ [] := by
  intro hempty
  have hpieces : [[]] = items.map Item.text := by rw [← splitOn_text hne, hempty, List.splitOn_nil]
  have hmem : [] ∈ items.map Item.text := hpieces ▸ List.mem_singleton_self []
  obtain ⟨item, -, hitem⟩ := List.mem_map.1 hmem
  exact item.text_ne_nil hitem

/-- A text that is not empty shows what its pieces show. -/
theorem ofText?_of_ne_nil {s : List Char} (hne : s ≠ []) : ofText? s = (s.splitOn ' ').mapM Item.ofText? := by
  cases s with
  | nil => exact absurd rfl hne
  | cons c s => rfl

/-- The text of a postfix form shows this form. -/
theorem ofText?_text (items : Postfix) : ofText? items.text = some items := by
  by_cases hne : items = []
  · rw [hne]
    rfl
  · have hread : Item.ofText? ∘ Item.text = pure := funext Item.ofText?_text
    rw [ofText?_of_ne_nil (text_ne_nil hne), splitOn_text hne, List.mapM_map, hread]
    exact List.mapM_pure.trans (congrArg pure (List.map_id items))

/-- Showing a postfix form loses nothing, whether it is well formed or not: forms with the same text have the same items in the
same order, and the items are recovered by splitting the text at its spaces and reading each piece by itself. -/
theorem text_determines_items : Function.Injective text ∧ ∀ items : Postfix, ofText? items.text = some items := by
  refine ⟨?_, ofText?_text⟩
  intro items others h
  have hread : some items = some others := by rw [← ofText?_text items, h, ofText?_text]
  exact Option.some.inj hread

/-- An operator that stands before a negative operand is parted from its sign by the space alone. -/
example : text [.operator .subtract, .operand (-3), .operand 3] = "- -3 3".toList ∧
    ofText? "- -3 3".toList = some [.operator .subtract, .operand (-3), .operand 3] ∧
    ofText? "--3 3".toList = none := by decide

end Postfix

end IntegerCalculator
