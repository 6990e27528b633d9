import GuestHost.Store.Blob
import GuestHost.Store.Persistence
import Mathlib.Data.List.Basic
/-!
# The keys of a store

Blobs, names and guests keep their entries under byte keys of four shapes. A `Key` says which
entry is meant and `Key.encode` spells it; no two spell the same, `Key.encode_injective`, so the
entries of a shelf are read and written key by key: `value?_stored`.
-/

namespace GuestHost

/-! ## Texts and digits -/

namespace Utf8

theorem encode_append (s t : String) : encode (s ++ t) = encode s ++ encode t := by
  simp [encode, String.toByteArray_append]

theorem encode_injective : Function.Injective encode := by
  intro s t h
  refine String.toByteArray_inj.mp (ByteArray.ext (Array.toList_inj.mp ?_))
  simpa [encode] using h

/-- **A text is read back from its bytes.** -/
theorem decode?_encode (s : String) : decode? (encode s) = some s := by
  have valid : s.toByteArray.IsValidUTF8 := s.isValidUTF8
  simp only [decode?, encode, String.fromUTF8?, String.toUTF8_eq_toByteArray, Array.toArray_toList,
    dif_pos valid]
  rfl

/-- Bytes are read as the text that they encode. -/
theorem decode?_eq_some_iff {bytes : Bytes} {text : String} :
    decode? bytes = some text ↔ bytes = encode text := by
  constructor
  · intro read
    unfold decode? String.fromUTF8? at read
    split at read
    · obtain rfl := Option.some.inj read
      rfl
    · cases read
  · rintro rfl
    exact decode?_encode text

end Utf8

namespace Hex

theorem digit_injOn : ∀ m < 16, ∀ n < 16, digit m = digit n → m = n := by decide

theorem digits_injective : Function.Injective digits := by
  intro a
  induction a with
  | nil =>
    rintro (_ | ⟨b, rest⟩) h
    · rfl
    · simp [digits] at h
  | cons b rest ih =>
    rintro (_ | ⟨c, more⟩) h
    · simp [digits] at h
    · simp only [digits, List.cons.injEq] at h
      -- a byte is spelled by its quotient and its remainder by sixteen
      have hb := b.toNat_lt
      have hc := c.toNat_lt
      have high := digit_injOn _ (by omega) _ (by omega) h.1
      have low := digit_injOn _ (by omega) _ (by omega) h.2.1
      have same : b.toNat = c.toNat := by omega
      rw [UInt8.toNat_inj.mp same, ih h.2.2]

theorem encode_injective : Function.Injective encode := fun _ _ h =>
  digits_injective (String.ofList_injective h)

end Hex

namespace Store

open Blob

/-- **Blobs have the same id exactly if their bytes have the same digest.** -/
theorem Blob.idOf_inj {a b : Bytes} : idOf a = idOf b ↔ Digest.sha256 a = Digest.sha256 b :=
  Hex.encode_injective.eq_iff

/-- An entry of a store. -/
inductive Key where
  | abstract (id : ContentId)
  | bytes (id : ContentId)
  | name (name : String)
  /-- A key of the guests. -/
  | guest (key : Bytes)
  deriving DecidableEq

namespace Key

/-- How a key is spelled. -/
def encode : Key → Bytes
  | abstract id => abstractKey id
  | bytes id => bytesKey id
  | name n => nameKey n
  | guest key => Persistence.fullKey key

/-- Keys of blobs by their ids start apart from names, and both start apart from guest keys. -/
theorem spellings :
    Utf8.encode "/blobs/byid/" = [47, 98, 108, 111, 98, 115, 47, 98, 121, 105, 100, 47] ∧
      nameSpace = [47, 98, 108, 111, 98, 115, 47, 98, 121, 110, 97, 109, 101, 47] ∧
      Persistence.nameSpace = [47, 112, 101, 114, 115, 105, 115, 116, 101, 110, 99, 101] ∧
      Utf8.encode "/abstract" = [47, 97, 98, 115, 116, 114, 97, 99, 116] ∧
      Utf8.encode "/bytes" = [47, 98, 121, 116, 101, 115] := by
  decide

/-- **No two keys are spelled the same.** -/
theorem encode_injective : Function.Injective encode := by
  obtain ⟨byId, byName, guests, abstracts, contents⟩ := spellings
  rintro (i | i | n | g) (j | j | m | k) h <;>
    simp only [encode, abstractKey, bytesKey, nameKey, Persistence.fullKey, Utf8.encode_append,
      byId, byName, guests, abstracts, contents] at h <;>
    simp [Utf8.encode_injective.eq_iff] at h
  case abstract.bytes =>
    -- the two spellings part at their ends only
    have last := congrArg List.getLast? h
    simp at last
  case bytes.abstract =>
    have last := congrArg List.getLast? h
    simp at last
  all_goals rw [h]

theorem abstractKey_eq (id : ContentId) : abstractKey id = (Key.abstract id).encode := rfl

theorem bytesKey_eq (id : ContentId) : bytesKey id = (Key.bytes id).encode := rfl

theorem nameKey_eq (n : String) : nameKey n = (Key.name n).encode := rfl

/-- **Among the names there are names only.** -/
theorem exists_name_of_prefix {k : Key} (starts : nameSpace <+: k.encode) :
    ∃ n, k = .name n := by
  obtain ⟨byId, byName, guests, -, -⟩ := spellings
  cases k with
  | name n => exact ⟨n, rfl⟩
  | abstract id => simp [encode, abstractKey, Utf8.encode_append, byId, byName] at starts
  | bytes id => simp [encode, bytesKey, Utf8.encode_append, byId, byName] at starts
  | guest key => simp [encode, Persistence.fullKey, byName, guests] at starts

end Key

/-! ## Shelves, key by key -/

namespace Shelf

/-- What is stored under a key, whether it can be read or not. -/
def value? (s : Shelf) (k : Key) : Option Bytes := s.entries.find? k.encode

/-- The shelf with a value stored under a key. -/
def stored (s : Shelf) (k : Key) (value : Bytes) : Shelf :=
  { s with entries := s.entries.insert k.encode value }

/-- The shelf with other faults. -/
def withFaults (s : Shelf) (faults : List Fault) : Shelf := { s with faults := faults }

variable {s : Shelf} {k l : Key} {value : Bytes} {faults : List Fault}

@[simp] theorem value?_empty : Shelf.empty.value? k = none := rfl

@[simp] theorem value?_stored :
    (s.stored k value).value? l = if l = k then some value else s.value? l := by
  simp only [value?, stored, Table.find?_insert, Key.encode_injective.eq_iff]

@[simp] theorem value?_withFaults : (s.withFaults faults).value? k = s.value? k := rfl

@[simp] theorem value?_heal : s.heal.value? k = s.value? k := rfl

@[simp] theorem faults_stored : (s.stored k value).faults = s.faults := rfl

/-- Storing under one key is not seen under another. -/
theorem find?_stored_of_ne {key : Bytes} (h : key ≠ k.encode) :
    (s.stored k value).entries.find? key = s.entries.find? key := by
  rw [stored, Table.find?_insert, if_neg h]

theorem get_eq_of_reads (h : s.fails .get k.encode = false) :
    s.get k.encode = .ok (s.value? k) := by
  simp [get, h, value?]

theorem value?_of_get {value : Option Bytes} (h : s.get k.encode = .ok value) :
    s.value? k = value := by
  unfold get at h
  split at h
  · cases h
  · exact Except.ok.inj h

theorem get_eq_of_fails (h : s.fails .get k.encode = true) : s.get k.encode = .error injected := by
  simp [get, h]

theorem put_eq_of_writes (value : Bytes) (h : s.fails .put k.encode = false) :
    Blob.put k.encode value s = (.ok (), s.stored k value) := by
  simp [Blob.put, Shelf.put, stored, h]

theorem put_eq_of_fails (value : Bytes) (h : s.fails .put k.encode = true) :
    Blob.put k.encode value s = (.error injected, s) := by
  simp [Blob.put, Shelf.put, h]

end Shelf

/-- **What can be read of a blob is stored.** -/
theorem Blob.value?_of_bytesOf {s : Shelf} {id : ContentId} {bytes : Bytes}
    (h : Blob.bytesOf s id = .ok bytes) : s.value? (.bytes id) = some bytes := by
  unfold Blob.bytesOf at h
  cases get : s.get (bytesKey id) with
  | error e => simp [get, bind, Except.bind] at h
  | ok value =>
    rw [Shelf.value?_of_get (k := .bytes id) get]
    cases value with
    | none => simp [get, bind, Except.bind, throw, throwThe, MonadExceptOf.throw] at h
    | some stored => simpa [get, bind, Except.bind, pure, Except.pure] using h

theorem Blob.bytesOf_of_faultless {s : Shelf} (faultless : s.faults = []) (id : ContentId) :
    Blob.bytesOf s id =
      match s.value? (.bytes id) with
      | some bytes => .ok bytes
      | none => .error (.notFound id) := by
  have reads : s.fails .get (Key.bytes id).encode = false := by simp [Shelf.fails, faultless]
  simp only [Blob.bytesOf, Key.bytesKey_eq, Shelf.get_eq_of_reads reads]
  cases s.value? (.bytes id) <;> rfl

theorem Blob.value?_of_abstractOf {s : Shelf} {id : ContentId} {abstract : Abstract}
    (h : Blob.abstractOf s id = .ok abstract) : s.value? (.abstract id) ≠ none := by
  unfold Blob.abstractOf at h
  cases get : s.get (abstractKey id) with
  | error e => simp [get, bind, Except.bind] at h
  | ok value =>
    rw [Shelf.value?_of_get (k := .abstract id) get]
    rintro rfl
    simp [get, bind, Except.bind, throw, throwThe, MonadExceptOf.throw] at h

end Store

end GuestHost
