import GuestHost.Memory
/-!
# Reading memory back

Bytes put into memory change the bytes of their range and no others, `byteAt_overwrite`, so ranges
that stand apart are written independently of each other. On that rest two readings that guests
make of what a host has written: the words of a table, `words`, and the text that an address points
at, up to the first NUL, `stringAt?`.
-/

namespace GuestHost

/-- A 32-bit word is read back from its bytes. -/
theorem Bytes.toWord_ofWord_four {n : Nat} (le : n ≤ maxWord) : toWord (ofWord 4 n) = n := by
  rw [toWord_ofWord, Nat.mod_eq_of_lt]
  simp only [maxWord] at le
  simp only [Nat.pow_eq]
  omega

namespace Memory

variable {m m' : Memory} {offset length address : Nat} {bytes text : Bytes}

/-! ## Ranges -/

/-- Bytes put from an address on leave those behind them alone. -/
theorem byteAt_overwrite_of_le (inside : m.Holds offset bytes.length) {j : Nat}
    (h : offset + bytes.length ≤ j) : (m.overwrite offset bytes).byteAt j = m.byteAt j := by
  induction bytes generalizing m offset with
  | nil => rfl
  | cons b rest ih =>
    simp only [Holds, List.length_cons] at inside h
    have inside' : (m.put offset b).Holds (offset + 1) rest.length := by
      simp only [Holds, size_put]
      omega
    rw [overwrite, ih inside' (by omega), byteAt_put m (by omega), if_neg (by omega)]

/-- **Bytes that are put change nothing outside their range.** -/
theorem byteAt_overwrite (inside : m.Holds offset bytes.length) {j : Nat}
    (outside : j < offset ∨ offset + bytes.length ≤ j) :
    (m.overwrite offset bytes).byteAt j = m.byteAt j :=
  outside.elim (byteAt_overwrite_of_lt inside) (byteAt_overwrite_of_le inside)

/-- A range is read the same from memories with the same bytes in it. -/
theorem bytesAt_congr (same : ∀ j, offset ≤ j → j < offset + length → m.byteAt j = m'.byteAt j) :
    m.bytesAt offset length = m'.bytesAt offset length := by
  refine List.map_congr_left fun j within => ?_
  obtain ⟨low, high⟩ := List.mem_range'_1.mp within
  exact same j low high

/-- Two ranges side by side. -/
theorem bytesAt_add (m : Memory) (offset length more : Nat) :
    m.bytesAt offset (length + more) =
      m.bytesAt offset length ++ m.bytesAt (offset + length) more := by
  rw [bytesAt, bytesAt, bytesAt, ← List.map_append, List.range'_append_1]

theorem overwrite_append (m : Memory) (offset : Nat) (bytes more : Bytes) :
    m.overwrite offset (bytes ++ more) =
      (m.overwrite offset bytes).overwrite (offset + bytes.length) more := by
  induction bytes generalizing m offset with
  | nil => rfl
  | cons b rest ih =>
    rw [List.cons_append, overwrite, overwrite, ih, List.length_cons, Nat.add_right_comm,
      Nat.add_assoc offset]

/-! ## Words -/

/-- The words of a table, least significant byte first. -/
def words (m : Memory) (offset : Nat) : Nat → List Nat
  | 0 => []
  | count + 1 => Bytes.toWord (m.bytesAt offset 4) :: words m (offset + 4) count

theorem bytesAt_overwrite_of_apart (inside : m.Holds offset bytes.length)
    (apart : address + length ≤ offset ∨ offset + bytes.length ≤ address) :
    (m.overwrite offset bytes).bytesAt address length = m.bytesAt address length :=
  bytesAt_congr fun j low high => byteAt_overwrite inside (by omega)

/-- A number is read back from its four bytes as its remainder. -/
theorem readWord_overwrite_mod (inside : m.Holds offset 4) (value : Nat) :
    (m.overwrite offset (Bytes.ofWord 4 value)).readWord 4 offset =
      .ok (value % (maxWord + 1)) := by
  have inside' : m.Holds offset (Bytes.ofWord 4 value).length := by
    rwa [Bytes.length_ofWord]
  have held := bytesAt_overwrite inside'
  rw [Bytes.length_ofWord] at held
  rw [readWord, slice, if_pos (by simpa only [Holds, size_overwrite] using inside), held]
  exact congrArg Except.ok (Bytes.toWord_ofWord 4 value)

/-- **A 32-bit word that was put last is read.** -/
theorem readWord_overwrite {value : Nat} (inside : m.Holds offset 4) (le : value ≤ maxWord) :
    (m.overwrite offset (Bytes.ofWord 4 value)).readWord 4 offset = .ok value := by
  rw [readWord_overwrite_mod inside, Nat.mod_eq_of_lt (Nat.lt_succ_of_le le)]

/-- A word is read as before if bytes are put apart from it. -/
theorem readWord_overwrite_of_apart {width : Nat} (inside : m.Holds offset bytes.length)
    (apart : address + width ≤ offset ∨ offset + bytes.length ≤ address) :
    (m.overwrite offset bytes).readWord width address = m.readWord width address := by
  have holds : (m.overwrite offset bytes).Holds address width ↔ m.Holds address width := by
    simp only [Holds, size_overwrite]
  by_cases within : m.Holds address width
  · rw [readWord, slice, if_pos (holds.mpr within), bytesAt_overwrite_of_apart inside apart, readWord,
      slice, if_pos within]
  · rw [readWord, slice, if_neg (mt holds.mp within), readWord, slice, if_neg within]

/-! ## Texts -/

/-- The bytes from an address on up to the first NUL, if there is one. -/
def stringAt? (m : Memory) (address : Nat) : Option Bytes :=
  let rest := m.bytesAt address (m.size - address)
  if 0 ∈ rest then some (rest.takeWhile (· ≠ 0)) else Option.none

/-- **A text without NULs is read back** where it stands in memory with a NUL behind it. -/
theorem stringAt?_of_bytesAt (inside : m.Holds address (text.length + 1)) (plain : 0 ∉ text)
    (held : m.bytesAt address (text.length + 1) = text ++ [0]) :
    m.stringAt? address = some text := by
  simp only [Holds] at inside
  have rest : m.bytesAt address (m.size - address) = text ++ 0 ::
      m.bytesAt (address + (text.length + 1)) (m.size - address - (text.length + 1)) := by
    rw [show m.size - address = text.length + 1 + (m.size - address - (text.length + 1)) by omega,
      bytesAt_add, held, Nat.add_sub_cancel_left, List.append_assoc]
    rfl
  have letters : ∀ b ∈ text, b ≠ 0 := fun b mem nul => plain (nul ▸ mem)
  rw [stringAt?, rest, if_pos (by simp), List.takeWhile_append_of_pos (by simpa using letters),
    List.takeWhile_cons_of_neg (by simp), List.append_nil]

end Memory

end GuestHost
