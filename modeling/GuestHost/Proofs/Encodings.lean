import GuestHost.Bytes.Base64
import GuestHost.Bytes.Pairs
import GuestHost.Proofs.Memory
import Mathlib.Algebra.Group.Nat.Defs
/-!
# Encodings are read back

What is encoded in base64, with the usual letters, `Base64.letters_eq`, is read back,
`Base64.decode?_encode`, and the reader is strict: it reads nothing but encodings, so there is one
text for each byte string, `Base64.decode?_eq_some_iff`. A list of pairs is read back from the front
of anything that starts with its encoding, so no encoding is the start of another,
`Pairs.eq_of_prefix`.
-/

namespace GuestHost

/-! ## Base64 -/

namespace Base64

/-- **The letters** of the numbers below sixty-four, in order. -/
theorem letters_eq : (List.range 64).map letter =
    "ABCDEFGHIJKLMNOPQRSTUVWXYZabcdefghijklmnopqrstuvwxyz0123456789+/".toUTF8.toList := by
  decide +kernel

theorem value?_letter : ∀ n < 64, value? (letter n) = some n := by decide

theorem letter_ne_pad : ∀ n < 64, letter n ≠ pad := by decide

/-- A number is read from its letter only. -/
theorem letter_of_value? {b : UInt8} {n : Nat} (h : value? b = some n) : n < 64 ∧ letter n = b := by
  have all : ∀ m < 256, ∀ n ∈ value? (UInt8.ofNat m), n < 64 ∧ letter n = UInt8.ofNat m := by
    decide +kernel
  have here := all b.toNat b.toNat_lt
  rw [UInt8.ofNat_toNat] at here
  exact here n h

/-- Four letters that are not the last, or not padded, stand for three bytes. -/
theorem decode?_cons {a b c d : UInt8} {rest : Bytes} (unpadded : rest = [] → d ≠ pad) :
    decode? (a :: b :: c :: d :: rest) = do
      let a ← value? a
      let b ← value? b
      let c ← value? c
      let d ← value? d
      let rest ← decode? rest
      return UInt8.ofNat (a * 4 + b / 16) :: UInt8.ofNat (b % 16 * 16 + c / 4) ::
        UInt8.ofNat (c % 4 * 64 + d) :: rest := by
  cases rest with
  | nil => exact if_neg (unpadded rfl)
  | cons => rfl

theorem ofNat_eq {n : Nat} {b : UInt8} (h : n = b.toNat) : UInt8.ofNat n = b := by
  rw [h, UInt8.ofNat_toNat]

/-- **What is encoded is read back.** -/
theorem decode?_encode (bytes : Bytes) : decode? (encode bytes) = some bytes := by
  induction bytes using encode.induct with
  | case1 => rfl
  | case2 a =>
    have := a.toNat_lt
    rw [encode, decode?, if_pos rfl, if_pos rfl, value?_letter _ (by omega),
      value?_letter _ (by omega)]
    simp only [Option.bind_eq_bind, Option.bind_some]
    rw [if_pos (Nat.mul_mod_left _ _), ofNat_eq (b := a) (by omega)]
  | case3 a b =>
    have := a.toNat_lt
    have := b.toNat_lt
    rw [encode, decode?, if_pos rfl, if_neg (letter_ne_pad _ (by omega)),
      value?_letter _ (by omega), value?_letter _ (by omega), value?_letter _ (by omega)]
    simp only [Option.bind_eq_bind, Option.bind_some]
    rw [if_pos (Nat.mul_mod_left _ _), ofNat_eq (b := a) (by omega), ofNat_eq (b := b) (by omega)]
  | case4 a b c rest ih =>
    have := a.toNat_lt
    have := b.toNat_lt
    have := c.toNat_lt
    rw [encode, decode?_cons fun _ => letter_ne_pad _ (by omega), ih, value?_letter _ (by omega),
      value?_letter _ (by omega), value?_letter _ (by omega), value?_letter _ (by omega)]
    simp only [Option.bind_eq_bind, Option.bind_some, Option.pure_def]
    rw [ofNat_eq (b := a) (by omega), ofNat_eq (b := b) (by omega), ofNat_eq (b := c) (by omega)]

theorem toNat_ofNat {n : Nat} (h : n < 256) : (UInt8.ofNat n).toNat = n :=
  UInt8.toNat_ofNat_of_lt' h

/-- Four letters are read that encode three bytes, if what is read behind them is encoded so. -/
theorem encode_of_decode?_cons {a b c d : UInt8} {rest : Bytes} (unpadded : rest = [] → d ≠ pad)
    (behind : ∀ bytes, decode? rest = some bytes → encode bytes = rest) {bytes : Bytes}
    (read : decode? (a :: b :: c :: d :: rest) = some bytes) :
    encode bytes = a :: b :: c :: d :: rest := by
  rw [decode?_cons unpadded] at read
  simp only [Option.bind_eq_bind, Option.bind_eq_some_iff] at read
  obtain ⟨x, hx, y, hy, z, hz, w, hw, others, more, read⟩ := read
  obtain ⟨x64, rfl⟩ := letter_of_value? hx
  obtain ⟨y64, rfl⟩ := letter_of_value? hy
  obtain ⟨z64, rfl⟩ := letter_of_value? hz
  obtain ⟨w64, rfl⟩ := letter_of_value? hw
  obtain rfl := Option.some.inj read
  have first : (UInt8.ofNat (x * 4 + y / 16)).toNat = x * 4 + y / 16 := toNat_ofNat (by omega)
  have second : (UInt8.ofNat (y % 16 * 16 + z / 4)).toNat = y % 16 * 16 + z / 4 :=
    toNat_ofNat (by omega)
  have third : (UInt8.ofNat (z % 4 * 64 + w)).toNat = z % 4 * 64 + w := toNat_ofNat (by omega)
  rw [encode, first, second, third, behind others more, show (x * 4 + y / 16) / 4 = x by omega,
    show (x * 4 + y / 16) % 4 * 16 + (y % 16 * 16 + z / 4) / 16 = y by omega,
    show (y % 16 * 16 + z / 4) % 16 * 4 + (z % 4 * 64 + w) / 64 = z by omega,
    show (z % 4 * 64 + w) % 64 = w by omega]

/-- **Nothing but an encoding is read.** -/
theorem encode_of_decode? {text bytes : Bytes} (read : decode? text = some bytes) :
    encode bytes = text := by
  induction text using decode?.induct generalizing bytes with
  | case1 =>
    obtain rfl := Option.some.inj read
    rfl
  | case2 a b =>
    simp only [decode?, if_true, Option.bind_eq_bind, Option.bind_eq_some_iff] at read
    obtain ⟨x, hx, y, hy, read⟩ := read
    split at read
    · obtain ⟨⟨lt, rfl⟩, lt', rfl⟩ := And.intro (letter_of_value? hx) (letter_of_value? hy)
      obtain rfl := Option.some.inj read
      have first : (UInt8.ofNat (x * 4 + y / 16)).toNat = x * 4 + y / 16 := toNat_ofNat (by omega)
      rw [encode, first, show (x * 4 + y / 16) / 4 = x by omega,
        show (x * 4 + y / 16) % 4 * 16 = y by omega]
    · cases read
  | case3 a b c other =>
    simp only [decode?, if_true, if_neg other, Option.bind_eq_bind, Option.bind_eq_some_iff] at read
    obtain ⟨x, hx, y, hy, z, hz, read⟩ := read
    split at read
    · obtain ⟨⟨lt, rfl⟩, ⟨lt', rfl⟩, lt'', rfl⟩ :=
        And.intro (letter_of_value? hx) (And.intro (letter_of_value? hy) (letter_of_value? hz))
      obtain rfl := Option.some.inj read
      have first : (UInt8.ofNat (x * 4 + y / 16)).toNat = x * 4 + y / 16 := toNat_ofNat (by omega)
      have second : (UInt8.ofNat (y % 16 * 16 + z / 4)).toNat = y % 16 * 16 + z / 4 :=
        toNat_ofNat (by omega)
      rw [encode, first, second, show (x * 4 + y / 16) / 4 = x by omega,
        show (x * 4 + y / 16) % 4 * 16 + (y % 16 * 16 + z / 4) / 16 = y by omega,
        show (y % 16 * 16 + z / 4) % 16 * 4 = z by omega]
    · cases read
  | case4 a b c d other =>
    refine encode_of_decode?_cons (fun _ => other) (fun bytes nothing => ?_) read
    obtain rfl : [] = bytes := Option.some.inj nothing
    rfl
  | case5 a b c d rest more ih =>
    exact encode_of_decode?_cons (fun none => absurd none more) (fun _ => ih) read
  | case6 text none four more =>
    rw [decode?] at read
    · cases read
    all_goals assumption

theorem decode?_eq_some_iff {text bytes : Bytes} :
    decode? text = some bytes ↔ encode bytes = text :=
  ⟨encode_of_decode?, fun same => same ▸ decode?_encode bytes⟩

/-- Four letters for every three bytes, or what is left of them. -/
theorem length_encode (bytes : Bytes) : (encode bytes).length = (bytes.length + 2) / 3 * 4 := by
  induction bytes using encode.induct with
  | case1 => rfl
  | case2 a => simp [encode]
  | case3 a b => simp [encode]
  | case4 a b c rest ih =>
    simp only [encode, List.length_cons, ih]
    omega

end Base64

/-! ## Pairs -/

namespace Pairs

variable {pairs others : List (Bytes × Bytes)}

/-- A list of pairs of which all numbers are words: the number of its parts, and their lengths. -/
structure Encodable (pairs : List (Bytes × Bytes)) : Prop where
  few : pairs.length < 2 ^ 31
  short : ∀ pair ∈ pairs, pair.1.length < 2 ^ 32 ∧ pair.2.length < 2 ^ 32

theorem word?_append {n : Nat} (word : n < 2 ^ 32) (rest : Bytes) :
    word? (Bytes.ofWord 4 n ++ rest) = some (n, rest) := by
  have length := Bytes.length_ofWord 4 n
  have value : Bytes.toWord (Bytes.ofWord 4 n) = n :=
    Bytes.toWord_ofWord_four (Nat.le_of_lt_succ word)
  rw [word?, if_pos (by simp), List.take_left' length, List.drop_left' length, value]

theorem part?_append {bytes : Bytes} (short : bytes.length < 2 ^ 32) (rest : Bytes) :
    part? (part bytes ++ rest) = some (bytes, rest) := by
  unfold part? part
  rw [List.append_assoc, word?_append short]
  show (if bytes.length ≤ (bytes ++ rest).length then _ else none) = _
  rw [if_pos (by simp), List.take_left, List.drop_left]

/-- Parts are read back pair by pair. -/
theorem parts?_append (short : ∀ pair ∈ pairs, pair.1.length < 2 ^ 32 ∧ pair.2.length < 2 ^ 32)
    (rest : Bytes) : parts? pairs.length (parts pairs ++ rest) = some (pairs, rest) := by
  induction pairs with
  | nil => rfl
  | cons pair pairs ih =>
    obtain ⟨key, value⟩ := pair
    obtain ⟨⟨key_short, value_short⟩, short⟩ := List.forall_mem_cons.mp short
    simp only [List.length_cons, parts?, parts, List.append_assoc, part?_append key_short,
      part?_append value_short, ih short, Option.bind_eq_bind, Option.bind_some, Option.pure_def]

/-- **What is encoded is read back**, whatever follows it. -/
theorem decode?_append (encodable : Encodable pairs) (rest : Bytes) :
    decode? (encode pairs ++ rest) = some (pairs, rest) := by
  have word : 2 * pairs.length < 2 ^ 32 := by
    have := encodable.few
    omega
  unfold decode? encode
  rw [List.append_assoc, word?_append word]
  show (if 2 * pairs.length % 2 = 0 then parts? (2 * pairs.length / 2) _ else none) = _
  rw [if_pos (Nat.mul_mod_right 2 _), Nat.mul_div_cancel_left _ (by decide),
    parts?_append encodable.short]

theorem decode?_encode (encodable : Encodable pairs) :
    decode? (encode pairs) = some (pairs, []) := by
  have read := decode?_append encodable []
  rwa [List.append_nil] at read

/-- **No encoding is the start of another.** -/
theorem eq_of_prefix (encodable : Encodable pairs) (encodable' : Encodable others)
    (starts : encode pairs <+: encode others) : pairs = others := by
  obtain ⟨rest, same⟩ := starts
  have first := decode?_append encodable rest
  have whole := decode?_encode encodable'
  rw [same] at first
  rw [first] at whole
  exact congrArg Prod.fst (Option.some.inj whole)

end Pairs

end GuestHost
