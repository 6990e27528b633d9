import GuestHost.Exchange.Buffer
import GuestHost.Proofs.Linking.Imports
import GuestHost.Proofs.Store.Key
/-!
# Headers of buffers

A memory buffer takes the names of headers as they are, and the other kinds take all names for one
that differ in the case of ASCII letters only, `Kind.key`. What has been set is found again under
every such name, but for one thing: a response accepts values that it does not read back,
`read_back_iff`. Memory buffers, requests and sockets let their headers be visited too. Whatever is
done with them, all names are kept as they are looked up, `Readable.after`, and so the three views
of the headers agree, `header_views_agree`.
-/

namespace GuestHost

namespace Exchange

/-! ## Names and values -/

namespace Header

theorem toLower_toLower (c : Char) : c.toLower.toLower = c.toLower := by
  by_cases upper : c.val ≥ 'A'.val ∧ c.val ≤ 'Z'.val
  · have lowered : c.toLower.val = c.val + ('a'.val - 'A'.val) :=
      congrArg Char.val (dif_pos upper)
    have lower : ¬ (c.toLower.val ≥ 'A'.val ∧ c.toLower.val ≤ 'Z'.val) := by
      rw [lowered]
      simp only [ge_iff_le, UInt32.le_iff_toNat_le, UInt32.toNat_add] at upper ⊢
      have first : 'A'.val.toNat = 65 := rfl
      have last : 'Z'.val.toNat = 90 := rfl
      have apart : ('a'.val - 'A'.val).toNat = 32 := rfl
      omega
    exact dif_neg lower
  · have same : c.toLower = c := dif_neg upper
    rw [same, same]

@[simp] theorem fold_fold (name : String) : fold (fold name) = fold name := by
  have twice : Char.toLower ∘ Char.toLower = Char.toLower := funext toLower_toLower
  rw [fold, fold, String.map_map, twice]

/-- A text whose characters are all in ASCII. -/
def IsAscii (text : String) : Prop := ∀ c ∈ text.toList, c.toNat < 128

instance (text : String) : Decidable (IsAscii text) :=
  List.decidableBAll (fun c : Char => c.toNat < 128) text.toList

theorem utf8EncodeChar_lt_iff (c : Char) :
    (∀ b ∈ String.utf8EncodeChar c, b.toNat < 128) ↔ c.toNat < 128 := by
  have bound : c.val.toNat < 1114112 := by
    rcases c.valid with h | h <;> omega
  change _ ↔ c.val.toNat < 128
  unfold String.utf8EncodeChar
  generalize c.val.toNat = n at bound ⊢
  dsimp only
  -- one goal for each width of a character; the first byte decides
  repeat' split
  all_goals simp only [List.forall_mem_cons, UInt8.toNat_ofNat']; simp; omega

/-- A text is in ASCII if all its bytes are. -/
theorem isAscii_iff {text : String} :
    IsAscii text ↔ ∀ b ∈ Utf8.encode text, b.toNat < 128 := by
  rw [Utf8.encode_eq_flatMap, List.forall_mem_flatMap]
  exact forall₂_congr fun c _ => (utf8EncodeChar_lt_iff c).symm

/-- A byte of a value is that of a text if it is in ASCII. -/
theorem isTextByte_iff {b : UInt8} (accepted : isValueByte b = true) :
    isTextByte b = true ↔ b.toNat < 128 := by
  simp only [isValueByte, isTextByte, Bool.or_eq_true, Bool.and_eq_true, beq_iff_eq,
    decide_eq_true_eq, UInt8.le_iff_toNat_le, UInt8.lt_iff_toNat_lt, ne_eq, ← UInt8.toNat_inj,
    UInt8.toNat_ofNat] at accepted ⊢
  omega

/-- **A value is read if it is in ASCII.** -/
theorem text?_encode {value : String} (accepted : isValue (Utf8.encode value) = true) :
    text? (Utf8.encode value) = if IsAscii value then some value else none := by
  have same : (Utf8.encode value).all isTextByte = true ↔ IsAscii value := by
    rw [isAscii_iff, List.all_eq_true]
    exact forall₂_congr fun b hb => isTextByte_iff (List.all_eq_true.mp accepted b hb)
  simp only [text?, same, Utf8.decode?_encode]

end Header

/-- The name under which a kind of buffer keeps a header. -/
def Kind.key : Kind → String → String
  | memory, name => name
  | request, name => Header.fold name
  | response, name => Header.fold name
  | socket, name => Header.fold name

@[simp] theorem Kind.key_key (kind : Kind) (name : String) :
    kind.key (kind.key name) = kind.key name := by
  cases kind with
  | memory => rfl
  | _ => exact Header.fold_fold name

/-! ## Reading back -/

namespace Buffer

variable {b : Buffer} {name value : String}

/-- What a buffer takes for a header. -/
def Accepts (b : Buffer) (name value : String) : Prop :=
  ∀ r, b = .response r → Header.isName (Utf8.encode name) = true ∧
    Header.isValue (Utf8.encode value) = true ∧ r.headers.size < ResponseBuffer.capacity

/-- A response with a header that it accepts. -/
theorem setHeader_response {r : ResponseBuffer} (accepts : (response r).Accepts name value) :
    (response r).setHeader name value = (.ok (), response
      { r with headers := r.headers.insert (Header.fold name) (Utf8.encode value) }) := by
  obtain ⟨hname, hvalue, room⟩ := accepts r rfl
  simp only [setHeader, hname, hvalue, room, Bool.not_true, Bool.false_eq_true, if_false, if_true]

/-- A header is set if it is accepted, and else nothing changes. -/
theorem setHeader_spec (b : Buffer) (name value : String) :
    b.Accepts name value ∧ (b.setHeader name value).1 = .ok () ∨
      ¬ b.Accepts name value ∧ ∃ e, b.setHeader name value = (.error e, b) := by
  cases b with
  | response r =>
    by_cases accepts : (response r).Accepts name value
    · exact .inl ⟨accepts, congrArg Prod.fst (setHeader_response accepts)⟩
    · refine .inr ⟨accepts, ?_⟩
      unfold setHeader
      dsimp only
      split
      · exact ⟨_, rfl⟩
      · split
        · exact ⟨_, rfl⟩
        · rename_i hname hvalue
          rw [if_neg]
          · exact ⟨_, rfl⟩
          · intro room
            refine accepts fun _ same => ?_
            cases same
            exact ⟨by simpa using hname, by simpa using hvalue, room⟩
  | _ =>
    refine .inl ⟨fun _ never => ?_, rfl⟩
    cases never

/-- **What is found after a header has been set.** The name stands for all that are kept under the
same, and only its value is another. -/
theorem header_setHeader (accepts : b.Accepts name value) (other : String) :
    (b.setHeader name value).2.header other =
      if b.kind.key other = b.kind.key name then
        if b.kind = .response ∧ ¬ Header.IsAscii value then none else some value
      else b.header other := by
  cases b with
  | response r =>
    rw [setHeader_response accepts]
    simp only [header, Table.find?_insert, kind, Kind.key, true_and, ite_not]
    split
    · rw [Option.bind_some, Header.text?_encode (accepts r rfl).2.1]
    · rfl
  | _ => exact Table.find?_insert _ _ _ _

/-- **When a header that has been set is read back.** It is found under all names that are kept
under the same as its own, unless the buffer is a response and the value is not in ASCII. A response
accepts such a value all the same, and then finds nothing under its name, not even what was there
before. A header that is not accepted changes nothing. -/
theorem read_back_iff (b : Buffer) (name value : String) :
    ((b.setHeader name value).1 = .ok () → ∀ variant, b.kind.key variant = b.kind.key name →
      ((b.setHeader name value).2.header variant = some value ↔
        (b.kind = .response → Header.IsAscii value)) ∧
      (b.kind = .response → ¬ Header.IsAscii value →
        (b.setHeader name value).2.header variant = none)) ∧
    ∀ e, (b.setHeader name value).1 = .error e → (b.setHeader name value).2 = b := by
  rcases b.setHeader_spec name value with ⟨accepts, ok⟩ | ⟨-, e, failed⟩
  · refine ⟨fun _ variant same => ?_, fun e failed => nomatch ok.symm.trans failed⟩
    rw [header_setHeader accepts, if_pos same]
    by_cases unread : b.kind = .response ∧ ¬ Header.IsAscii value
    · rw [if_pos unread]
      exact ⟨iff_of_false nofun fun ascii => unread.2 (ascii unread.1), fun _ _ => rfl⟩
    · rw [if_neg unread]
      exact ⟨iff_of_true rfl fun response => not_not.mp fun beyond => unread ⟨response, beyond⟩,
        fun response beyond => absurd ⟨response, beyond⟩ unread⟩
  · rw [failed]
    exact ⟨nofun, fun _ _ => rfl⟩

/-- A response takes an accent and does not give it back. -/
theorem read_back_iff_accent :
    ((response .blank).setHeader "x" "é").1 = .ok () ∧
      ((response .blank).setHeader "x" "é").2.header "X" = none := by
  have ok : ((response .blank).setHeader "x" "é").1 = .ok () := rfl
  have same : Header.fold "X" = Header.fold "x" :=
    String.toList_inj.mp (by simp only [Header.fold, String.toList_map]; decide)
  exact ⟨ok, ((read_back_iff (response .blank) "x" "é").1 ok "X" same).2 rfl (by decide)⟩

end Buffer

/-! ## Uses of a buffer -/

/-- An operation on a buffer. -/
inductive Use where
  | setHeader (name value : String)
  | writeStatusCode (status : Nat)
  | write (content : Bytes)
  | close
  | read
  | header (name : String)
  | headersCount
  | headers
  | statusCode

/-- Whether an operation is carried out, and the buffer behind it. -/
def Use.run (b : Buffer) : Use → Except Error Unit × Buffer
  | setHeader name value => b.setHeader name value
  | writeStatusCode status => b.writeStatusCode status
  | write content => ((b.write content).1.map fun _ => (), (b.write content).2)
  | close => b.close
  | read => (b.read.1.map fun _ => (), b.read.2)
  | header _ => (.ok (), b)
  | headersCount => (b.headersCount.map fun _ => (), b)
  | headers => (b.headers.map fun _ => (), b)
  | statusCode => (b.statusCode.map fun _ => (), b)

namespace Buffer

variable {b : Buffer} {t : Headers} {use : Use}

/-- A buffer after operations, one after the other. -/
def after (b : Buffer) (uses : List Use) : Buffer := uses.foldl (fun b use => (use.run b).2) b

/-- The headers of a buffer that lets them be visited. -/
def table? : Buffer → Option Headers
  | memory b => some b.headers
  | request b => some b.headers
  | response _ => none
  | socket b => some b.headers

/-- **The three views of the headers** are views of one table, and so is setting one. -/
theorem views_of_table? (shown : b.table? = some t) :
    (∀ name, b.header name = t.find? (b.kind.key name)) ∧ b.headers = .ok t.entries ∧
      b.headersCount = .ok t.size ∧ ∀ name value, (b.setHeader name value).1 = .ok () ∧
        (b.setHeader name value).2.table? = some (t.insert (b.kind.key name) value) := by
  cases b with
  | response r => cases shown
  | _ =>
    obtain rfl := Option.some.inj shown
    exact ⟨fun _ => rfl, rfl, rfl, fun _ _ => ⟨rfl, rfl⟩⟩

theorem kind_setHeader (b : Buffer) (name value : String) :
    (b.setHeader name value).2.kind = b.kind := by
  rcases b.setHeader_spec name value with ⟨accepts, -⟩ | ⟨-, e, failed⟩
  · cases b with
    | response r =>
      rw [setHeader_response accepts]
      rfl
    | _ => rfl
  · rw [failed]

/-- An operation sets a header, or it leaves the headers alone. -/
theorem run_spec (b : Buffer) (use : Use) :
    (use.run b).2.kind = b.kind ∧
      ((∃ name value, use = .setHeader name value) ∨ (use.run b).2.table? = b.table?) := by
  cases use with
  | setHeader name value => exact ⟨b.kind_setHeader name value, .inl ⟨name, value, rfl⟩⟩
  | writeStatusCode status =>
    cases b with
    | response r =>
      simp only [Use.run, writeStatusCode]
      split <;> exact ⟨rfl, .inr rfl⟩
    | _ => exact ⟨rfl, .inr rfl⟩
  | write content =>
    cases b with
    | socket s =>
      simp only [Use.run, write]
      split <;> exact ⟨rfl, .inr rfl⟩
    | _ => exact ⟨rfl, .inr rfl⟩
  | close =>
    cases b with
    | socket s =>
      simp only [Use.run, close]
      split <;> exact ⟨rfl, .inr rfl⟩
    | _ => exact ⟨rfl, .inr rfl⟩
  | read =>
    cases b with
    | request r =>
      simp only [Use.run, read]
      split <;> exact ⟨rfl, .inr rfl⟩
    | socket s =>
      simp only [Use.run, read]
      split <;> exact ⟨rfl, .inr rfl⟩
    | _ => exact ⟨rfl, .inr rfl⟩
  | header | headersCount | headers | statusCode => exact ⟨rfl, .inr rfl⟩

/-- A buffer whose headers can be visited, and they are kept as they are looked up. -/
structure Readable (b : Buffer) (t : Headers) : Prop where
  shown : b.table? = some t
  keyed : ∀ name ∈ t.keys, b.kind.key name = name

/-- **No operation keeps a name as it is not looked up.** -/
theorem Readable.run (h : b.Readable t) (use : Use) : ∃ t, (use.run b).2.Readable t := by
  obtain ⟨kind, ⟨name, value, rfl⟩ | same⟩ := b.run_spec use
  · refine ⟨_, ((views_of_table? h.shown).2.2.2 name value).2, fun other kept => ?_⟩
    rw [kind]
    rw [Table.mem_keys_iff, Table.find?_insert] at kept
    -- a name that is kept is the one that has been set, or it was kept before
    split at kept
    · rename_i new
      rw [new, Kind.key_key]
    · exact h.keyed other (Table.mem_keys_iff.mpr kept)
  · exact ⟨t, same.trans h.shown, kind ▸ h.keyed⟩

theorem Readable.after (h : b.Readable t) (uses : List Use) :
    (b.after uses).kind = b.kind ∧ ∃ t, (b.after uses).Readable t := by
  induction uses generalizing b t with
  | nil => exact ⟨rfl, t, h⟩
  | cons use rest ih =>
    obtain ⟨t', h'⟩ := h.run use
    obtain ⟨kind, later⟩ := ih h'
    exact ⟨kind.trans (b.run_spec use).1, later⟩

end Buffer

/-! ## How buffers with headers are made -/

/-- What a buffer is made of that lets its headers be visited: the content of a memory buffer, the
headers and the body of a request, the headers of a socket. -/
inductive Making where
  | memory (content : Bytes)
  | request (raw : List (String × Bytes)) (body : Body)
  | socket (pairs : List (String × String))

namespace Making

/-- The buffer made. -/
def buffer : Making → Buffer
  | memory content => .memory (.ofContent content)
  | request raw body => .request ⟨.ofRequest raw, some body⟩
  | socket pairs => .socket (.connected pairs)

/-- The value that a name has in a new buffer. Of the values of a name, a request has the first, if
it is text, and a socket the last. -/
def value? : Making → String → Option String
  | memory _, _ => none
  | request raw _, name =>
    (raw.find? fun h => Header.fold h.1 = Header.fold name).bind fun h => Header.text? h.2
  | socket pairs, name =>
    (pairs.reverse.find? fun h => Header.fold h.1 = Header.fold name).map Prod.snd

end Making

/-- A request made of its parts is made of its body and of its headers. -/
theorem Request.buffer_of_ofParts? {method target : String} {headers : List (Bytes × Bytes)}
    {body : Body} {request : Request}
    (made : Request.ofParts? method target headers body = some request) :
    ∃ raw : List (String × Bytes), raw.map (fun h => (Utf8.encode h.1, h.2)) = headers ∧
      (Making.request raw body).buffer = .request request.buffer := by
  have spelled {headers : List (Bytes × Bytes)} {raw : List (String × Bytes)}
      (read : headers.mapM (fun h => (Utf8.decode? h.1).map (·, h.2)) = some raw) :
      raw.map (fun h => (Utf8.encode h.1, h.2)) = headers := by
    induction headers generalizing raw with
    | nil =>
      obtain rfl := Option.some.inj read
      rfl
    | cons h rest ih =>
      rw [List.mapM_cons] at read
      obtain ⟨first, head, read⟩ := Option.bind_eq_some_iff.mp read
      obtain ⟨later, tail, read⟩ := Option.bind_eq_some_iff.mp read
      obtain rfl := Option.some.inj read
      obtain ⟨name, named, rfl⟩ := Option.map_eq_some_iff.mp head
      rw [List.map_cons, ih tail, ← Utf8.decode?_eq_some_iff.mp named]
  simp only [ofParts?, Option.bind_eq_bind, Option.bind_eq_some_iff] at made
  obtain ⟨path, -, made⟩ := made
  split at made
  · cases made
  · split at made
    · cases made
    · obtain ⟨raw, read, made⟩ := Option.bind_eq_some_iff.mp made
      obtain rfl := Option.some.inj made
      exact ⟨raw, spelled read, rfl⟩

/-- A header of a request hides those of its name behind it. -/
theorem Headers.ofRequest_cons (h : String × Bytes) (raw : List (String × Bytes)) :
    ofRequest (h :: raw) = match Header.text? h.2 with
      | some value => (ofRequest raw).insert (Header.fold h.1) value
      | none => (ofRequest raw).erase (Header.fold h.1) := by
  rw [ofRequest, List.reverse_cons, List.foldl_append]
  rfl

theorem Headers.find?_ofRequest (raw : List (String × Bytes)) (key : String) :
    (ofRequest raw).find? key =
      (raw.find? fun h => Header.fold h.1 = key).bind fun h => Header.text? h.2 := by
  induction raw with
  | nil => rfl
  | cons h raw ih =>
    rw [ofRequest_cons, List.find?_cons]
    by_cases same : Header.fold h.1 = key
    · subst same
      simp only [decide_true, Option.bind_some]
      cases Header.text? h.2 with
      | some value => exact (Table.find?_insert _ _ _ _).trans (if_pos rfl)
      | none => exact (Table.find?_erase _ _ _).trans (if_pos rfl)
    · simp only [same, decide_false]
      rw [← ih]
      cases Header.text? h.2 with
      | some value => exact (Table.find?_insert _ _ _ _).trans (if_neg (Ne.symm same))
      | none => exact (Table.find?_erase _ _ _).trans (if_neg (Ne.symm same))

theorem Headers.find?_ofPairs (pairs : List (String × String)) (key : String) :
    (ofPairs pairs).find? key =
      (pairs.reverse.find? fun h => Header.fold h.1 = key).map Prod.snd := by
  rw [ofPairs, Table.find?_ofList, ← List.map_reverse]
  induction pairs.reverse with
  | nil => rfl
  | cons h rest ih =>
    rw [List.map_cons, List.lookup_cons, List.find?_cons]
    by_cases same : Header.fold h.1 = key
    · simp [same]
    · simp only [same, decide_false, beq_eq_false_iff_ne.mpr (Ne.symm same), ih]

/-- What a name has been folded to is not folded again. -/
theorem Header.fold_of_find? {ν : Type} {raw : List (String × ν)} {h : String × ν} {key : String}
    (found : raw.find? (fun h => fold h.1 = key) = some h) : fold key = key := by
  have same : fold h.1 = key := by simpa using List.find?_some found
  rw [← same, fold_fold]

namespace Making

/-- **A new buffer has the headers that it is made of.** -/
theorem header_buffer (making : Making) (name : String) :
    making.buffer.header name = making.value? name := by
  cases making with
  | memory content => rfl
  | request raw body => exact Headers.find?_ofRequest raw _
  | socket pairs => exact Headers.find?_ofPairs pairs _

theorem readable_buffer (making : Making) : ∃ t, making.buffer.Readable t := by
  cases making with
  | memory content => exact ⟨_, rfl, fun _ _ => rfl⟩
  | request raw body =>
    refine ⟨_, rfl, fun name kept => ?_⟩
    obtain ⟨value, found⟩ := Option.isSome_iff_exists.mp (Table.mem_keys_iff.mp kept)
    rw [Headers.find?_ofRequest] at found
    obtain ⟨h, first, -⟩ := Option.bind_eq_some_iff.mp found
    exact Header.fold_of_find? first
  | socket pairs =>
    refine ⟨_, rfl, fun name kept => ?_⟩
    obtain ⟨value, found⟩ := Option.isSome_iff_exists.mp (Table.mem_keys_iff.mp kept)
    rw [SocketBuffer.connected, Headers.find?_ofPairs] at found
    obtain ⟨h, last, -⟩ := Option.map_eq_some_iff.mp found
    exact Header.fold_of_find? last

end Making

/-- **The views of a buffer's headers agree**, however it is made and whatever is done with it. The
names visited are in the order of their bytes, as many as are counted, and those that all names are
looked up as; what is visited is found, and what is not is absent. To begin with the headers are
those that the buffer is made of, and setting one changes what is found under its name only. -/
theorem header_views_agree (making : Making) (uses : List Use) :
    let b := making.buffer.after uses
    let key := making.buffer.kind.key
    (∃ visited, b.headers = .ok visited ∧
      (visited.Pairwise fun h g => Utf8.encode h.1 < Utf8.encode g.1) ∧
      b.headersCount = .ok visited.length ∧
      (∀ h ∈ visited, b.header h.1 = some h.2 ∧ key h.1 = h.1) ∧
      ∀ name, (∀ h ∈ visited, h.1 ≠ key name) → b.header name = none) ∧
    (∀ name, making.buffer.header name = making.value? name) ∧
    ∀ name value, (b.setHeader name value).1 = .ok () ∧ ∀ other,
      (b.setHeader name value).2.header other =
        if key other = key name then some value else b.header other := by
  intro b key
  obtain ⟨_, made⟩ := making.readable_buffer
  obtain ⟨kind, t, readable⟩ := made.after uses
  have same : b.kind.key = key := congrArg Kind.key kind
  obtain ⟨header, visited, count, set⟩ := Buffer.views_of_table? readable.shown
  refine ⟨⟨t.entries, visited, ?_, count, fun h mem => ?_, fun name absent => ?_⟩,
    making.header_buffer, fun name value => ⟨(set name value).1, fun other => ?_⟩⟩
  · exact t.sorted.imp fun less => Utf8.encode_lt_iff.mpr less
  · have keyed : key h.1 = h.1 := same ▸ readable.keyed h.1 (List.mem_map_of_mem mem)
    refine ⟨?_, keyed⟩
    rw [header, same, keyed]
    exact Table.find?_eq_some_iff.mpr mem
  · rw [header, same]
    refine Option.eq_none_iff_forall_ne_some.mpr fun value found => ?_
    exact absent _ (Table.find?_eq_some_iff.mp found) rfl
  · have later := (Buffer.views_of_table? (set name value).2).1 other
    rw [later, Buffer.kind_setHeader, Table.find?_insert, same, header, same]

end Exchange

end GuestHost
