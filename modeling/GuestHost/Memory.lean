import GuestHost.Bytes.Utf8
/-!
# Guest memory

A guest's memory is a row of bytes. Every access names an address and a length and fails if the
two together pass the end of the memory; the sum is taken of unbounded numbers, so nothing wraps.
An access that fails changes nothing, and no access changes the size. The bytes are kept in
chunks, and a chunk that nothing has been written to is not stored, so the size of a memory costs
next to nothing. Main statements: `byteAt_put`, a byte is what was put there last, and
`bytesAt_overwrite`, the same of a range.
-/

namespace GuestHost

/-- The number of bytes in a chunk. -/
abbrev chunkSize : Nat := 4096

/-- The bytes of a guest's memory. A chunk that is absent holds zeros. -/
structure Memory where
  size : Nat
  chunks : Array (Option (Vector UInt8 chunkSize))
  covered : size ≤ chunks.size * chunkSize

namespace Memory

/-- An access that passes the end of the memory. -/
structure OutOfBounds where
  offset : Nat
  length : Nat
  deriving DecidableEq

/-- The words for an access that passes the end. -/
def OutOfBounds.message (e : OutOfBounds) : String :=
  "guest memory access out of bounds: offset " ++ toString e.offset ++ ", length " ++
    toString e.length

/-- The number of chunks that a number of bytes takes. -/
def chunksFor (size : Nat) : Nat := (size + (chunkSize - 1)) / chunkSize

theorem le_chunksFor (size : Nat) : size ≤ chunksFor size * chunkSize := by
  unfold chunksFor chunkSize
  omega

/-- A memory of zeros. -/
def zeros (size : Nat) : Memory where
  size := size
  chunks := Array.replicate (chunksFor size) Option.none
  covered := by simpa using le_chunksFor size

/-- The memory of a guest that shares none. -/
def none : Memory := zeros 0

/-- The memory with zeros put behind its end. -/
def grow (m : Memory) (count : Nat) : Memory where
  size := m.size + count
  chunks := m.chunks ++ Array.replicate (chunksFor (m.size + count) - m.chunks.size) Option.none
  covered := by
    have h := le_chunksFor (m.size + count)
    rw [Array.size_append, Array.size_replicate]
    refine Nat.le_trans h (Nat.mul_le_mul_right _ ?_)
    omega

theorem mod_lt_chunkSize (address : Nat) : address % chunkSize < chunkSize :=
  Nat.mod_lt _ (by decide)

/-- The byte of a chunk at an address. -/
def byteInChunk (address : Nat) (chunk : Vector UInt8 chunkSize) : UInt8 :=
  have := mod_lt_chunkSize address
  chunk[address % chunkSize]

/-- The byte at an address. -/
def byteAt (m : Memory) (address : Nat) : UInt8 :=
  match m.chunks[address / chunkSize]? with
  | some (some chunk) => byteInChunk address chunk
  | _ => 0

/-- A chunk with a byte put at an address. -/
def putInChunk (address : Nat) (b : UInt8) (chunk : Option (Vector UInt8 chunkSize)) :
    Vector UInt8 chunkSize :=
  match chunk with
  | some chunk => chunk.set (address % chunkSize) b (mod_lt_chunkSize address)
  | Option.none =>
    (Vector.replicate chunkSize 0).set (address % chunkSize) b (mod_lt_chunkSize address)

/-- The memory with a byte put at an address. -/
def put (m : Memory) (address : Nat) (b : UInt8) : Memory where
  size := m.size
  chunks := m.chunks.modify (address / chunkSize) fun chunk => some (putInChunk address b chunk)
  covered := by simpa using m.covered

@[simp] theorem size_put (m : Memory) (address : Nat) (b : UInt8) :
    (m.put address b).size = m.size := rfl

/-- A byte is what was put there last. -/
theorem byteAt_put (m : Memory) {i : Nat} (h : i < m.size) (j : Nat) (b : UInt8) :
    (m.put i b).byteAt j = if i = j then b else m.byteAt j := by
  have hi : i / chunkSize < m.chunks.size := by
    have := m.covered
    rw [Nat.div_lt_iff_lt_mul (by decide)]
    omega
  by_cases hc : i / chunkSize = j / chunkSize
  · have hm : i = j ↔ i % chunkSize = j % chunkSize := by
      constructor
      · rintro rfl
        rfl
      · intro hr
        rw [← Nat.div_add_mod i chunkSize, ← Nat.div_add_mod j chunkSize, hc, hr]
    simp only [byteAt, put, Array.getElem?_modify, ← hc, if_true,
      Array.getElem?_eq_getElem hi, Option.map_some]
    cases m.chunks[i / chunkSize] <;>
      simp only [putInChunk, byteInChunk, Vector.getElem_set, Vector.getElem_replicate, hm]
  · have hne : i ≠ j := fun e => hc (by rw [e])
    simp only [byteAt, put, Array.getElem?_modify, hc, if_false, hne]

/-- The bytes of a range, zeros where there is no memory. -/
def bytesAt (m : Memory) (offset length : Nat) : Bytes :=
  (List.range' offset length).map m.byteAt

@[simp] theorem length_bytesAt (m : Memory) (offset length : Nat) :
    (m.bytesAt offset length).length = length := by
  simp [bytesAt]

/-- The bytes from the first to the last. -/
def toList (m : Memory) : Bytes := m.bytesAt 0 m.size

/-- Whether an access stays inside. -/
def Holds (m : Memory) (offset length : Nat) : Prop := offset + length ≤ m.size

instance (m : Memory) (offset length : Nat) : Decidable (m.Holds offset length) :=
  inferInstanceAs (Decidable (_ ≤ _))

/-- Bytes put one after the other from an address on. -/
def overwrite (m : Memory) (offset : Nat) : Bytes → Memory
  | [] => m
  | b :: rest => overwrite (m.put offset b) (offset + 1) rest

@[simp] theorem size_overwrite (m : Memory) (offset : Nat) (bytes : Bytes) :
    (m.overwrite offset bytes).size = m.size := by
  induction bytes generalizing m offset with
  | nil => rfl
  | cons b rest ih => rw [overwrite, ih, size_put]

/-- Bytes put from an address on leave those in front of it alone. -/
theorem byteAt_overwrite_of_lt {m : Memory} {offset : Nat} {bytes : Bytes}
    (inside : m.Holds offset bytes.length) {j : Nat} (h : j < offset) :
    (m.overwrite offset bytes).byteAt j = m.byteAt j := by
  induction bytes generalizing m offset with
  | nil => rfl
  | cons b rest ih =>
    simp only [Holds, List.length_cons] at inside
    have inside' : (m.put offset b).Holds (offset + 1) rest.length := by
      simp only [Holds, size_put]
      omega
    rw [overwrite, ih inside' (by omega), byteAt_put m (by omega), if_neg (by omega)]

/-- **A range holds what was put there last.** -/
theorem bytesAt_overwrite {m : Memory} {offset : Nat} {bytes : Bytes}
    (inside : m.Holds offset bytes.length) :
    (m.overwrite offset bytes).bytesAt offset bytes.length = bytes := by
  induction bytes generalizing m offset with
  | nil => rfl
  | cons b rest ih =>
    simp only [Holds, List.length_cons] at inside
    have inside' : (m.put offset b).Holds (offset + 1) rest.length := by
      simp only [Holds, size_put]
      omega
    have first : ((m.put offset b).overwrite (offset + 1) rest).byteAt offset = b := by
      rw [byteAt_overwrite_of_lt inside' (Nat.lt_succ_self offset), byteAt_put m (by omega),
        if_pos rfl]
    have others := ih inside'
    simp only [bytesAt, List.length_cons, List.range'_succ, List.map_cons, overwrite, first]
    exact congrArg (b :: ·) others

/-- One byte put so many times one after the other from an address on. -/
def overwriteWith (m : Memory) (offset : Nat) (value : UInt8) : Nat → Memory
  | 0 => m
  | count + 1 => overwriteWith (m.put offset value) (offset + 1) value count

/-- The memory that holds given bytes. -/
def ofBytes (bytes : Bytes) : Memory := (zeros bytes.length).overwrite 0 bytes

/-- Nothing, if a range stays inside. -/
def check (m : Memory) (offset length : Nat) : Except OutOfBounds Unit :=
  if m.Holds offset length then .ok () else .error ⟨offset, length⟩

/-- The bytes of a range. -/
def slice (m : Memory) (offset length : Nat) : Except OutOfBounds Bytes :=
  if m.Holds offset length then .ok (m.bytesAt offset length) else .error ⟨offset, length⟩

/-- The memory with bytes written at an address. -/
def write (m : Memory) (offset : Nat) (data : Bytes) : Except OutOfBounds Memory :=
  if m.Holds offset data.length then .ok (m.overwrite offset data)
  else .error ⟨offset, data.length⟩

/-- The memory with a range filled with one byte. -/
def fill (m : Memory) (offset length : Nat) (value : UInt8) : Except OutOfBounds Memory :=
  if m.Holds offset length then .ok (m.overwriteWith offset value length)
  else .error ⟨offset, length⟩

/-- The word of some width at an address, least significant byte first. -/
def readWord (m : Memory) (width offset : Nat) : Except OutOfBounds Nat :=
  (m.slice offset width).map Bytes.toWord

/-- The memory with a word of some width written at an address, least significant byte first. -/
def writeWord (m : Memory) (width offset value : Nat) : Except OutOfBounds Memory :=
  m.write offset (Bytes.ofWord width value)

end Memory

end GuestHost
