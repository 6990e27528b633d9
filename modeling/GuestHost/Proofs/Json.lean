import GuestHost.Json.Reader
import GuestHost.Json.Writer
import GuestHost.Proofs.Store.Key
import Mathlib.Data.Nat.Digits.Defs
/-!
# What is written as JSON reads back

Texts, numbers and objects that a host writes are read as what was written, whatever stands behind
them: `spells_quoted`, `spells_decimal` and `spells_braced`, which nest. A text is escaped byte by
byte, and every escape is read as one piece that stands for the byte.
-/

namespace GuestHost

namespace Json

/-! ## Texts -/

/-- A piece that stands for a byte in front of any others. -/
def Piece.Stands (p : Piece) (b : UInt8) : Prop :=
  ∀ pieces, assemble? (p :: pieces) = (assemble? pieces).map (b :: ·)

theorem Piece.stands_byte (b : UInt8) : (Piece.byte b).Stands b := fun _ => rfl

/-- A control character is numbered by its two hexadecimal digits. -/
theorem unit?_control : ∀ n < 32,
    unit? 48 48 (hexDigit (n / 16)) (hexDigit (n % 16)) = some n ∧
      Utf8.encode (Char.ofNat n).toString = [UInt8.ofNat n] := by
  decide

theorem Piece.stands_unit {b : UInt8} (control : b.toNat < 32) : (Piece.unit b.toNat).Stands b := by
  intro pieces
  have low : isLow b.toNat = false := by simp [isLow]; omega
  have high : isHigh b.toNat = false := by simp [isHigh]; omega
  rw [assemble?.eq_def]
  simp only [low, high, Bool.false_eq_true, if_false, (unit?_control _ control).2,
    UInt8.ofNat_toNat, List.singleton_append]

variable {b e : UInt8} {rest : Bytes}

theorem pieces?_short (letter : e ≠ 117) (short : escape? e = some b) :
    pieces? (92 :: e :: rest) = (pieces? rest).map fun read => (.byte b :: read.1, read.2) := by
  rw [pieces?]
  · rw [short]
    cases pieces? rest <;> rfl
  · simp [letter]

theorem pieces?_numbered {x y : UInt8} {n : Nat} (numbered : unit? 48 48 x y = some n) :
    pieces? (92 :: 117 :: 48 :: 48 :: x :: y :: rest) =
      (pieces? rest).map fun read => (.unit n :: read.1, read.2) := by
  have step : pieces? (92 :: 117 :: 48 :: 48 :: x :: y :: rest) = (unit? 48 48 x y).bind fun n =>
      (pieces? rest).bind fun read => some (.unit n :: read.1, read.2) := rfl
  rw [step, numbered]
  cases pieces? rest <;> rfl

theorem pieces?_plain (quote : b ≠ 34) (backslash : b ≠ 92) (control : ¬ b < 32) :
    pieces? (b :: rest) = (pieces? rest).map fun read => (.byte b :: read.1, read.2) := by
  rw [pieces?]
  · simp only [control, backslash, or_self, if_false]
    cases pieces? rest <;> rfl
  all_goals simp [quote, backslash]

/-- An escaped byte is read as a piece that stands for it. -/
theorem exists_piece (b : UInt8) (rest : Bytes) :
    ∃ p : Piece, p.Stands b ∧
      pieces? (escaped b ++ rest) = (pieces? rest).map fun read => (p :: read.1, read.2) := by
  have short {e : UInt8} (letter : e ≠ 117) (h : escape? e = some b) :
      ∃ p : Piece, p.Stands b ∧ pieces? ([92, e] ++ rest) =
        (pieces? rest).map fun read => (p :: read.1, read.2) :=
    ⟨.byte b, Piece.stands_byte b, pieces?_short letter h⟩
  unfold escaped
  split_ifs with h34 h92 h8 h12 h10 h13 h9 control
  · exact short (by decide) (by rw [h34]; rfl)
  · exact short (by decide) (by rw [h92]; rfl)
  · exact short (by decide) (by rw [h8]; rfl)
  · exact short (by decide) (by rw [h12]; rfl)
  · exact short (by decide) (by rw [h10]; rfl)
  · exact short (by decide) (by rw [h13]; rfl)
  · exact short (by decide) (by rw [h9]; rfl)
  · have small : b.toNat < 32 := UInt8.lt_iff_toNat_lt.mp control
    exact ⟨.unit b.toNat, Piece.stands_unit small, pieces?_numbered (unit?_control _ small).1⟩
  · exact ⟨.byte b, Piece.stands_byte b, pieces?_plain h34 h92 control⟩

/-- Escaped bytes are read as pieces that stand for them, up to the closing quote. -/
theorem exists_pieces (bytes rest : Bytes) :
    ∃ pieces, pieces? (bytes.flatMap escaped ++ 34 :: rest) = some (pieces, rest) ∧
      assemble? pieces = some bytes := by
  induction bytes with
  | nil => exact ⟨[], rfl, rfl⟩
  | cons b bytes ih =>
    obtain ⟨pieces, read, assembled⟩ := ih
    obtain ⟨p, stands, here⟩ := exists_piece b (bytes.flatMap escaped ++ 34 :: rest)
    refine ⟨p :: pieces, ?_, by rw [stands, assembled]; rfl⟩
    rw [List.flatMap_cons, List.append_assoc, here, read]
    rfl

/-- **A text in quotes is read as the text.** -/
theorem exists_spelled (text : String) (rest : Bytes) :
    ∃ pieces, pieces? ((Utf8.encode text).flatMap escaped ++ 34 :: rest) = some (pieces, rest) ∧
      spelled? pieces = some text := by
  obtain ⟨pieces, read, assembled⟩ := exists_pieces (Utf8.encode text) rest
  exact ⟨pieces, read, by rw [spelled?, assembled, Option.bind_some, Utf8.decode?_encode]⟩

/-! ## Numbers -/

/-- A digit comes off the end of a number. -/
theorem decimal_eq (n : Nat) :
    decimal n = (if n < 10 then [] else decimal (n / 10)) ++ [UInt8.ofNat (48 + n % 10)] := by
  have digit : ∀ d < 10, UInt8.ofNat (Nat.digitChar d).toNat = UInt8.ofNat (48 + d) := by decide
  unfold decimal
  rw [Nat.toDigits_eq_if (by decide)]
  split
  · rename_i small
    simp [digit n small, Nat.mod_eq_of_lt small]
  · simp [digit (n % 10) (Nat.mod_lt _ (by decide))]

theorem digit_last (n : Nat) :
    isDigit (UInt8.ofNat (48 + n % 10)) = true ∧ (UInt8.ofNat (48 + n % 10)).toNat - 48 = n % 10 := by
  have small : n % 10 < 10 := Nat.mod_lt _ (by decide)
  generalize n % 10 = d at small
  revert d
  decide

theorem isDigit_decimal (n : Nat) : ∀ d ∈ decimal n, isDigit d := by
  induction n using Nat.strong_induction_on with
  | _ n ih =>
    rw [decimal_eq]
    intro d hd
    rcases List.mem_append.mp hd with front | last
    · split at front
      · cases front
      · exact ih (n / 10) (by omega) d front
    · rw [List.mem_singleton.mp last]
      exact (digit_last n).1

/-- **The digits of a number spell it.** -/
theorem ofDigits_decimal (n : Nat) : ofDigits (decimal n) = n := by
  induction n using Nat.strong_induction_on with
  | _ n ih =>
    have last : ∀ front, ofDigits (front ++ [UInt8.ofNat (48 + n % 10)]) =
        10 * ofDigits front + n % 10 := by
      intro front
      rw [ofDigits, List.foldl_append, List.foldl_cons, List.foldl_nil, (digit_last n).2]
      rfl
    rw [decimal_eq, last]
    split
    · rename_i small
      simp [ofDigits, Nat.mod_eq_of_lt small]
    · rw [ih (n / 10) (by omega)]
      omega

theorem decimal_ne_nil (n : Nat) : decimal n ≠ [] := by
  rw [decimal_eq]
  simp

/-- Digits do not start with a minus sign. -/
theorem decimal_unsigned (n : Nat) (rest more : Bytes) : decimal n ++ rest ≠ 45 :: more := by
  intro minus
  have digit := isDigit_decimal n
  cases written : decimal n with
  | nil => exact decimal_ne_nil n written
  | cons d ds =>
    rw [written] at minus digit
    have never := digit d List.mem_cons_self
    rw [(List.cons.inj minus).1] at never
    cases never

/-- **Digits are read as their number.** -/
theorem int?_decimal (n : Nat) : int? (.number (decimal n)) = some (n : Int) := by
  have digits : (decimal n).all isDigit = true := List.all_eq_true.mpr (isDigit_decimal n)
  unfold int?
  split
  · rename_i more same
    have minus := Json.number.inj same
    exact absurd ((List.append_nil _).trans minus) (decimal_unsigned n [] more)
  · rename_i same
    obtain rfl := Json.number.inj same
    rw [if_pos digits, ofDigits_decimal]
  · rename_i other
    exact absurd rfl (other _)

/-- No zero stands in front of other digits. -/
theorem head?_decimal {n : Nat} (positive : n ≠ 0) : (decimal n).head? ≠ some 48 := by
  induction n using Nat.strong_induction_on with
  | _ n ih =>
    rw [decimal_eq]
    split
    · rename_i small
      intro zero
      have digit := (digit_last n).2
      rw [show UInt8.ofNat (48 + n % 10) = 48 by simpa using zero] at digit
      have : n % 10 = 0 := digit.symm
      omega
    · rw [List.head?_append_of_ne_nil _ (decimal_ne_nil _)]
      exact ih (n / 10) (by omega) (by omega)

/-! ## Documents -/

/-- What may stand behind an item of an array, a member of an object or a document. -/
def Delimits (rest : Bytes) : Prop := ∀ c ∈ rest.head?, c = 44 ∨ c = 93 ∨ c = 125

/-- Bytes that are read as a document in front of whatever delimits it. -/
def Spells (bytes : Bytes) (document : Json) : Prop :=
  ∀ depth rest, 2 * bytes.length < depth → Delimits rest →
    value? depth (bytes ++ rest) = some (document, rest)

theorem delimits_nil : Delimits [] := fun _ h => nomatch h

theorem delimits_cons {c : UInt8} (h : c = 44 ∨ c = 93 ∨ c = 125) (rest : Bytes) :
    Delimits (c :: rest) := by
  simpa [Delimits] using h

/-- What delimits a document goes on with no number. -/
theorem Delimits.ends_number (h : Delimits rest) :
    rest.takeWhile isDigit = [] ∧ rest.dropWhile isDigit = rest ∧
      fraction? rest = some ([], rest) ∧ exponent? rest = some ([], rest) := by
  cases rest with
  | nil => exact ⟨rfl, rfl, rfl, rfl⟩
  | cons c rest => rcases h c rfl with rfl | rfl | rfl <;> exact ⟨rfl, rfl, rfl, rfl⟩

theorem skipBlank_cons (visible : isBlank b = false) (rest : Bytes) :
    skipBlank (b :: rest) = b :: rest := by
  rw [skipBlank, List.dropWhile_cons, visible]
  rfl

/-- A document behind a quote is a text. -/
theorem value?_quote (depth : Nat) (rest : Bytes) :
    value? (depth + 1) (34 :: rest) =
      (pieces? rest).bind fun read => some (.string (spelled? read.1), read.2) := rfl

/-- A document behind a brace and a quote is an object that has members. -/
theorem value?_brace (depth : Nat) (rest : Bytes) :
    value? (depth + 1) (123 :: 34 :: rest) =
      (members? depth (34 :: rest)).bind fun read => some (.object read.1, read.2) := rfl

/-- A member behind a quote: its name, its value and the others, or the closing brace. -/
theorem members?_quote (depth : Nat) (rest : Bytes) :
    members? (depth + 1) (34 :: rest) = (pieces? rest).bind fun name =>
      match skipBlank name.2 with
      | 58 :: rest => (value? depth rest).bind fun item =>
        match skipBlank item.2 with
        | 44 :: rest => (members? depth rest).bind fun others =>
          some ((spelled? name.1, item.1) :: others.1, others.2)
        | 125 :: rest => some ([(spelled? name.1, item.1)], rest)
        | _ => none
      | _ => none := rfl

theorem whole?_decimal (n : Nat) (h : Delimits rest) :
    whole? (decimal n ++ rest) = some (decimal n, rest) := by
  obtain ⟨none, all, -, -⟩ := h.ends_number
  have digits : digits? (decimal n ++ rest) = some (decimal n, rest) := by
    unfold digits?
    rw [List.takeWhile_append_of_pos (isDigit_decimal n), none, List.append_nil,
      List.dropWhile_append_of_pos (isDigit_decimal n), all]
    split
    · exact absurd ‹_› (decimal_ne_nil n)
    · rfl
  have proper : (decimal n).length = 1 ∨ (decimal n).head? ≠ some 48 := by
    by_cases zero : n = 0
    · exact .inl (zero ▸ rfl)
    · exact .inr (head?_decimal zero)
  rw [whole?, digits]
  exact if_pos proper

theorem number?_decimal (n : Nat) (h : Delimits rest) :
    number? (decimal n ++ rest) = some (decimal n, rest) := by
  obtain ⟨-, -, fraction, exponent⟩ := h.ends_number
  unfold number?
  split
  rename_i sign rest' signed
  split at signed
  · exact absurd ‹_› (decimal_unsigned n rest _)
  · cases signed
    simp [whole?_decimal n h, fraction, exponent]

/-- **A text in quotes spells a string.** -/
theorem spells_quoted (text : String) : Spells (quoted text) (.string (some text)) := by
  intro depth rest deep _
  obtain ⟨pieces, read, spelled⟩ := exists_spelled text rest
  cases depth with
  | zero => omega
  | succ depth =>
    rw [quoted, List.cons_append, List.append_assoc, List.singleton_append, value?_quote]
    simp [read, spelled]

/-- A document that starts with a digit is a number. -/
theorem value?_number {d : UInt8} {more spelling rest : Bytes} (digit : isDigit d)
    (read : number? (d :: more) = some (spelling, rest)) (depth : Nat) :
    value? (depth + 1) (d :: more) = some (.number spelling, rest) := by
  have range : 48 ≤ d ∧ d ≤ 57 := by simpa [isDigit] using digit
  have visible : isBlank d = false := by
    unfold isBlank
    grind
  rw [value?, skipBlank_cons visible]
  split
  case h_7 => simp [read]
  -- every other document starts with another byte
  all_goals
    rename_i same
    exact absurd ((List.cons.inj same).1 ▸ range) (by decide)

/-- **The digits of a number spell it.** -/
theorem spells_decimal (n : Nat) : Spells (decimal n) (.number (decimal n)) := by
  intro depth rest deep h
  have read := number?_decimal n h
  cases depth with
  | zero => omega
  | succ depth =>
    cases written : decimal n with
    | nil => exact absurd written (decimal_ne_nil n)
    | cons d ds =>
      rw [written, List.cons_append] at read
      exact value?_number (isDigit_decimal n d (by simp [written])) read depth

/-! ## Objects -/

section

variable {name : String} {value : Bytes} {document : Json} {depth : Nat}

/-- A member in front of others. -/
theorem members?_more (spells : Spells value document) (deep : 2 * value.length < depth)
    (rest : Bytes) :
    members? (depth + 1) (quoted name ++ 58 :: (value ++ 44 :: rest)) =
      (members? depth rest).map fun read => ((some name, document) :: read.1, read.2) := by
  obtain ⟨pieces, read, spelled⟩ := exists_spelled name (58 :: (value ++ 44 :: rest))
  rw [quoted, List.cons_append, List.append_assoc, List.singleton_append, members?_quote]
  simp only [read, spelled, Option.bind_some, skipBlank_cons (b := 58) rfl,
    spells depth _ deep (delimits_cons (.inl rfl) rest), skipBlank_cons (b := 44) rfl]
  cases members? depth rest <;> rfl

/-- The last member. -/
theorem members?_last (spells : Spells value document) (deep : 2 * value.length < depth)
    (rest : Bytes) :
    members? (depth + 1) (quoted name ++ 58 :: (value ++ 125 :: rest)) =
      some ([(some name, document)], rest) := by
  obtain ⟨pieces, read, spelled⟩ := exists_spelled name (58 :: (value ++ 125 :: rest))
  rw [quoted, List.cons_append, List.append_assoc, List.singleton_append, members?_quote]
  simp only [read, spelled, Option.bind_some, skipBlank_cons (b := 58) rfl,
    spells depth _ deep (delimits_cons (.inr (.inr rfl)) rest), skipBlank_cons (b := 125) rfl]

end

/-- The members that an object is written with: names, what is written for their values, and the
documents that this spells. -/
abbrev Members := List (String × Bytes × Json)

/-- Members as they are written. -/
def Members.text (members : Members) : Bytes :=
  List.intercalate [44] (members.map fun m => quoted m.1 ++ 58 :: m.2.1)

/-- Members as they are read. -/
def Members.documents (members : Members) : List (Option String × Json) :=
  members.map fun m => (some m.1, m.2.2)

/-- All values of members are written as they should be. -/
def Members.Spelled (members : Members) : Prop := ∀ m ∈ members, Spells m.2.1 m.2.2

namespace Members

theorem text_single (m : String × Bytes × Json) :
    text [m] = quoted m.1 ++ 58 :: m.2.1 := by
  simp [text, List.intercalate]

theorem text_cons (m m' : String × Bytes × Json) (members : Members) :
    text (m :: m' :: members) = quoted m.1 ++ 58 :: (m.2.1 ++ 44 :: text (m' :: members)) := by
  simp only [text, List.map_cons, List.intercalate_cons_cons, List.append_assoc, List.cons_append,
    List.nil_append]

/-- Members are read one after the other, up to the closing brace. -/
theorem members?_text {members : Members} (any : members ≠ []) (spelled : members.Spelled)
    {depth : Nat} (deep : 2 * members.text.length < depth) (rest : Bytes) :
    members? depth (members.text ++ 125 :: rest) = some (members.documents, rest) := by
  induction members generalizing depth with
  | nil => exact absurd rfl any
  | cons m members ih =>
    obtain ⟨here, others⟩ := List.forall_mem_cons.mp spelled
    cases depth with
    | zero => omega
    | succ depth =>
      cases members with
      | nil =>
        rw [text_single] at deep ⊢
        simp only [List.length_append, List.length_cons] at deep
        rw [List.append_assoc, List.cons_append]
        exact members?_last here (by omega) rest
      | cons m' members =>
        rw [text_cons] at deep ⊢
        simp only [List.length_append, List.length_cons] at deep
        rw [List.append_assoc, List.cons_append, List.append_assoc, List.cons_append,
          members?_more here (by omega), ih (by simp) others (by omega)]
        rfl

end Members

/-- **Members in braces spell an object.** -/
theorem spells_braced {members : Members} (spelled : members.Spelled) :
    Spells (braced (members.map fun m => (m.1, m.2.1))) (.object members.documents) := by
  intro depth rest deep _
  have written : braced (members.map fun m => (m.1, m.2.1)) = 123 :: (members.text ++ [125]) := by
    rw [braced, List.map_map]
    rfl
  rw [written] at deep ⊢
  simp only [List.length_cons, List.length_append] at deep
  rw [List.cons_append, List.append_assoc, List.singleton_append]
  cases depth with
  | zero => omega
  | succ depth =>
    cases members with
    | nil => rfl
    | cons m members =>
      have read := Members.members?_text (List.cons_ne_nil m members) spelled
        (show _ < depth by omega) rest
      have quote : ∃ more, Members.text (m :: members) = 34 :: more := by
        cases members with
        | nil => exact ⟨_, Members.text_single m⟩
        | cons m' members => exact ⟨_, Members.text_cons m m' members⟩
      obtain ⟨more, quote⟩ := quote
      rw [quote, List.cons_append] at read ⊢
      rw [value?_brace, read, Option.bind_some]

/-- **A document is read from what spells it.** -/
theorem Spells.parse?_eq {bytes : Bytes} {document : Json} (spells : Spells bytes document) :
    parse? bytes = some document := by
  have read := spells (2 * bytes.length + 1) [] (by omega) delimits_nil
  rw [List.append_nil] at read
  rw [parse?, read]
  rfl

end Json

end GuestHost
