import Mathlib.Data.List.TakeWhile

/-!
# Fields of a message

NUL-terminated texts, of which a reader takes the bytes up to the first NUL and goes on behind
it, and runs of items whose number is known before they are read.
-/

/-! ## NUL-terminated texts -/

namespace Cstring

/-- The bytes up to the NUL. -/
theorem takeWhile_append {text : List UInt8} (h : 0 ∉ text) (rest : List UInt8) :
    (text ++ 0 :: rest).takeWhile (· != 0) = text := by
  have hall : ∀ b ∈ text, (b != 0) = true := by
    intro b hb
    simpa using ne_of_mem_of_not_mem hb h
  rw [List.takeWhile_append_of_pos hall]
  simp

/-- Without a NUL these are all bytes. -/
theorem takeWhile_eq_self {text : List UInt8} (h : 0 ∉ text) : text.takeWhile (· != 0) = text := by
  apply List.takeWhile_eq_self_iff.2
  intro b hb
  simpa using ne_of_mem_of_not_mem hb h

/-- The bytes behind the NUL. -/
theorem drop_append (text rest : List UInt8) : (text ++ 0 :: rest).drop (text.length + 1) = rest := by
  rw [← List.drop_drop, List.drop_left]
  rfl

end Cstring

/-! ## Counted runs -/

namespace Counted

variable {α : Type}

/-- `n` items, each read by `item`, and the bytes behind them. -/
def read (item : List UInt8 → Option (α × List UInt8)) :
    Nat → List UInt8 → Option (List α × List UInt8)
  | 0, data => some ([], data)
  | n + 1, data => do
    let (first, rest) ← item data
    let (others, rest) ← read item n rest
    return (first :: others, rest)

/-- A run is read back if its items are. -/
theorem read_flatMap {item : List UInt8 → Option (α × List UInt8)} {encode : α → List UInt8}
    {items : List α} (h : ∀ a ∈ items, ∀ rest, item (encode a ++ rest) = some (a, rest))
    (rest : List UInt8) :
    read item items.length (items.flatMap encode ++ rest) = some (items, rest) := by
  induction items with
  | nil => rfl
  | cons first others ih =>
    obtain ⟨hfirst, hothers⟩ := List.forall_mem_cons.1 h
    rw [List.flatMap_cons, List.append_assoc, List.length_cons, read, hfirst]
    simp only [Option.bind_eq_bind, Option.bind_some, ih hothers]
    rfl

end Counted
