import GuestHost.Call
import GuestHost.Proofs.Memory
import GuestHost.Proofs.Stateful
import GuestHost.Proofs.Store.Key
/-!
# Accesses to a guest's memory

Everything that a host call does to the memory of its guest is a row of accesses. What one of them
does is said once, in `MemoryAccess.run_eq`: an access whose range passes the end of the memory
fails and changes nothing, and any other puts its bytes over those of its range, if it is one that
writes, and gives what it reads. So what is in memory after a row of accesses is what was there
before with the bytes of those that succeeded laid over it, the later over the earlier:
`memory_after`. All that is said of reading and of failing is read off that, `accesses_exact`.
-/

namespace GuestHost

open Stateful

/-! ## Contents -/

/-- What memory holds: a byte for every address. -/
abbrev Contents := Nat → UInt8

/-- The bytes of a range. -/
def Contents.range (c : Contents) (offset length : Nat) : Bytes := (List.range' offset length).map c

/-- Bytes to be laid over memory from an address on. -/
structure Patch where
  offset : Nat
  bytes : Bytes

/-- What a patch has for an address. -/
def Patch.at? (p : Patch) (address : Nat) : Option UInt8 :=
  if p.offset ≤ address then p.bytes[address - p.offset]? else none

/-- Contents with patches laid over them one after the other: a byte is that of the last patch that
has one for its address, and what it was if none has. -/
def Contents.overlay (c : Contents) (patches : List Patch) : Contents := fun address =>
  (patches.reverse.findSome? fun p => p.at? address).getD (c address)

theorem Contents.overlay_append (c : Contents) (patches later : List Patch) :
    c.overlay (patches ++ later) = (c.overlay patches).overlay later := by
  funext address
  simp only [overlay, List.reverse_append, List.findSome?_append]
  cases later.reverse.findSome? fun p => p.at? address <;> rfl

theorem Contents.overlay_singleton (c : Contents) (p : Patch) (address : Nat) :
    c.overlay [p] address = (p.at? address).getD (c address) := by
  simp only [overlay, List.reverse_singleton, List.findSome?_singleton]

namespace Memory

variable {m : Memory} {offset length : Nat} {bytes : Bytes}

theorem bytesAt_eq (m : Memory) (offset length : Nat) :
    m.bytesAt offset length = Contents.range m.byteAt offset length := rfl

/-- **Bytes that are put are laid over the memory.** -/
theorem byteAt_overwrite_eq (inside : m.Holds offset bytes.length) :
    (m.overwrite offset bytes).byteAt = Contents.overlay m.byteAt [⟨offset, bytes⟩] := by
  funext address
  rw [Contents.overlay_singleton, Patch.at?]
  dsimp only
  split
  · rename_i le
    cases found : bytes[address - offset]? with
    | none =>
      have behind : bytes.length ≤ address - offset := List.getElem?_eq_none_iff.mp found
      exact byteAt_overwrite inside (.inr (by omega))
    | some b =>
      obtain ⟨within, rfl⟩ := List.getElem?_eq_some_iff.mp found
      -- the byte is one of the range that has just been put
      have here : ((m.overwrite offset bytes).bytesAt offset bytes.length)[address - offset]? =
          some ((m.overwrite offset bytes).byteAt address) := by
        rw [bytesAt, List.getElem?_map, List.getElem?_range' within, Option.map_some, Nat.one_mul,
          Nat.add_sub_cancel' le]
      rw [bytesAt_overwrite inside, List.getElem?_eq_getElem within] at here
      exact (Option.some.inj here).symm
  · rename_i before
    exact byteAt_overwrite inside (.inl (by omega))

/-- A range is filled by putting the byte over all of it. -/
theorem overwriteWith_eq (m : Memory) (offset : Nat) (value : UInt8) (length : Nat) :
    m.overwriteWith offset value length = m.overwrite offset (List.replicate length value) := by
  induction length generalizing m offset with
  | zero => rfl
  | succ length ih => rw [overwriteWith, ih, List.replicate_succ, overwrite]

end Memory

/-- The bytes of a word come in the order of their weight, the lightest first. -/
theorem Bytes.ofWord_eq_map (width value : Nat) :
    ofWord width value = (List.range width).map fun i => UInt8.ofNat (value >>> (8 * i)) := by
  induction width generalizing value with
  | zero => rfl
  | succ width ih =>
    have byte : value / 256 = value >>> 8 := (Nat.shiftRight_eq_div_pow value 8).symm
    have shift (i : Nat) : (value / 256) >>> (8 * i) = value >>> (8 * (i + 1)) := by
      rw [byte, ← Nat.shiftRight_add, Nat.mul_add, Nat.add_comm]
    rw [ofWord, ih, List.range_succ_eq_map, List.map_cons, List.map_map]
    exact congrArg (_ :: ·) (List.map_congr_left fun i _ => congrArg UInt8.ofNat (shift i))

/-! ## Host calls that use memory -/

namespace Call

theorem run_slice (offset length : Nat) (site : Site) :
    (slice offset length).run site =
      if site.memory.Holds offset length then (.ok (site.memory.bytesAt offset length), site)
      else (.error (.outOfBounds ⟨offset, length⟩), site) := by
  unfold slice Memory.slice
  simp only [run_bind, run_get]
  split <;> rfl

/-- An access that changes memory does so or fails. -/
theorem run_change (access : Memory → Except Memory.OutOfBounds Memory) (site : Site) :
    (do setMemory (← ofAccess (access (← get).memory)) : Call Unit).run site =
      match access site.memory with
      | .ok memory => (.ok ⟨⟩, { site with memory := memory })
      | .error e => (.error (.outOfBounds e), site) := by
  simp only [run_bind, run_get]
  cases access site.memory <;> rfl

theorem run_range (offset length : Nat) (site : Site) :
    (range offset length).run site =
      if site.memory.Holds offset length then (.ok ⟨⟩, site)
      else (.error (.outOfBounds ⟨offset, length⟩), site) := by
  unfold range Memory.check
  simp only [run_bind, run_get]
  split <;> rfl

theorem run_load (offset : Nat) (site : Site) :
    (load offset).run site =
      if site.memory.Holds offset 4 then (.ok (Bytes.toWord (site.memory.bytesAt offset 4)), site)
      else (.error (.outOfBounds ⟨offset, 4⟩), site) := by
  unfold load Memory.readWord Memory.slice
  simp only [run_bind, run_get]
  split <;> rfl

theorem run_write (offset : Nat) (data : Bytes) (site : Site) :
    (write offset data).run site =
      if site.memory.Holds offset data.length then
        (.ok ⟨⟩, { site with memory := site.memory.overwrite offset data })
      else (.error (.outOfBounds ⟨offset, data.length⟩), site) := by
  refine (run_change (fun memory => memory.write offset data) site).trans ?_
  by_cases inside : site.memory.Holds offset data.length <;>
    simp only [Memory.write, inside, if_true, if_false]

theorem run_store (width offset value : Nat) (site : Site) :
    (store width offset value).run site =
      if site.memory.Holds offset width then
        (.ok ⟨⟩, { site with memory := site.memory.overwrite offset (Bytes.ofWord width value) })
      else (.error (.outOfBounds ⟨offset, width⟩), site) := by
  refine (run_write offset (Bytes.ofWord width value) site).trans ?_
  rw [Bytes.length_ofWord]

theorem run_fill (offset length : Nat) (value : UInt8) (site : Site) :
    (fill offset length value).run site =
      if site.memory.Holds offset length then
        (.ok ⟨⟩, { site with memory := site.memory.overwrite offset (List.replicate length value) })
      else (.error (.outOfBounds ⟨offset, length⟩), site) := by
  refine (run_change (fun memory => memory.fill offset length value) site).trans ?_
  by_cases inside : site.memory.Holds offset length <;>
    simp only [Memory.fill, Memory.overwriteWith_eq, inside, if_true, if_false]

/-- What follows an access that may fail succeeds if the access does. -/
theorem ok_bind_iff {α β : Type} {p : Prop} [Decidable p] {x : Call α} {f : α → Call β} {a : α}
    {b : β} {e : CallError} {site after failed : Site}
    (h : x.run site = if p then (.ok a, after) else (.error e, failed)) :
    ((x >>= f).run site).1 = .ok b ↔ p ∧ ((f a).run after).1 = .ok b := by
  rw [run_bind, h]
  by_cases holds : p <;> simp [holds]

end Call

/-! ## Accesses -/

/-- An access to the memory of a guest. -/
inductive MemoryAccess where
  /-- A range asked for, and not read. -/
  | check (offset length : Nat)
  | slice (offset length : Nat)
  /-- A range read as text. -/
  | string (offset length : Nat)
  /-- A 32-bit word read. -/
  | load (offset : Nat)
  | write (offset : Nat) (data : Bytes)
  /-- A word of some number of bytes written. -/
  | store (width offset value : Nat)
  | fill (offset length : Nat) (value : UInt8)
  /-- A range lent: bytes that may depend on it are put over its front. -/
  | lend (offset length : Nat) (edit : Bytes → Bytes)

namespace MemoryAccess

/-- What an access gives. -/
inductive Reply where
  | done
  | bytes (bytes : Bytes)
  | text (text : String)
  | word (word : Nat)

/-- An access carried out by a host call. -/
def run : MemoryAccess → Call Reply
  | check offset length => do
    Call.range offset length
    return .done
  | slice offset length => return .bytes (← Call.slice offset length)
  | string offset length => return .text (← Call.string offset length)
  | load offset => return .word (← Call.load offset)
  | write offset data => do
    Call.write offset data
    return .done
  | store width offset value => do
    Call.store width offset value
    return .done
  | fill offset length value => do
    Call.fill offset length value
    return .done
  | lend offset length edit => do
    let held ← Call.slice offset length
    Call.write offset ((edit held).take length)
    return .done

/-- The first address of an access. -/
def offset : MemoryAccess → Nat
  | check offset _ | slice offset _ | string offset _ | load offset | write offset _
  | store _ offset _ | fill offset _ _ | lend offset _ _ => offset

/-- The number of bytes that an access moves. -/
def length : MemoryAccess → Nat
  | check _ length | slice _ length | string _ length | fill _ length _ | lend _ length _ => length
  | load _ => 4
  | write _ data => data.length
  | store width _ _ => width

/-- The bytes that an access puts over its range. -/
def put (c : Contents) : MemoryAccess → Bytes
  | write _ data => data
  | store width _ value => (List.range width).map fun i => UInt8.ofNat (value >>> (8 * i))
  | fill _ length value => List.replicate length value
  | lend offset length edit => (edit (c.range offset length)).take length
  | _ => []

/-- What an access gives whose range is inside: what its range holds. Of a range that is no text no
text is given. -/
def reply (c : Contents) : MemoryAccess → Except CallError Reply
  | slice offset length => .ok (.bytes (c.range offset length))
  | string offset length =>
    match Utf8.decode? (c.range offset length) with
    | some text => .ok (.text text)
    | none => .error (.recoverable .utf8)
  | load offset => .ok (.word (Bytes.toWord (c.range offset 4)))
  | _ => .ok .done

/-- An access asks for text where there is none. -/
def Garbled (c : Contents) (access : MemoryAccess) : Prop :=
  ∃ offset length, access = string offset length ∧ ∀ text, c.range offset length ≠ Utf8.encode text

theorem reply_eq_error_iff {c : Contents} {access : MemoryAccess} :
    (∃ e, access.reply c = .error e) ↔ access.Garbled c := by
  cases access with
  | string offset length =>
    simp only [reply, Garbled, string.injEq]
    cases read : Utf8.decode? (c.range offset length) with
    | some text =>
      refine iff_of_false (fun ⟨e, failed⟩ => nomatch failed) ?_
      rintro ⟨_, _, ⟨rfl, rfl⟩, none⟩
      exact none text (Utf8.decode?_eq_some_iff.mp read)
    | none =>
      refine iff_of_true ⟨_, rfl⟩ ⟨offset, length, ⟨rfl, rfl⟩, fun text same => ?_⟩
      rw [Utf8.decode?_eq_some_iff.mpr same] at read
      cases read
  | _ => simp [reply, Garbled]

theorem length_put_le (c : Contents) (access : MemoryAccess) :
    (access.put c).length ≤ access.length := by
  cases access with
  | lend offset length edit => exact List.length_take_le _ _
  | _ => simp [put, length]

/-! ## One access -/

variable {site : Site} {access : MemoryAccess}

/-- What follows an access that may fail, if what decides of that is known. -/
theorem run_bind_ite {α β : Type} {p : Prop} [Decidable p] {x : Call α} {f : α → Call β} {a : α}
    {e : CallError} {after failed : Site}
    (h : x.run site = if p then (.ok a, after) else (.error e, failed)) :
    (x >>= f).run site = if p then (f a).run after else (.error e, failed) := by
  rw [run_bind, h]
  by_cases holds : p <;> simp only [holds, if_true, if_false]

/-- **What one access does.** -/
theorem run_eq (access : MemoryAccess) (site : Site) :
    access.run.run site =
      if site.memory.Holds access.offset access.length then
        (access.reply site.memory.byteAt,
          { site with
            memory := site.memory.overwrite access.offset (access.put site.memory.byteAt) })
      else (.error (.outOfBounds ⟨access.offset, access.length⟩), site) := by
  cases access with
  | check offset length => exact run_bind_ite (Call.run_range offset length site)
  | slice offset length => exact run_bind_ite (Call.run_slice offset length site)
  | string offset length =>
    rw [run, Call.string, bind_assoc]
    refine (run_bind_ite (Call.run_slice offset length site)).trans ?_
    rw [reply, Memory.bytesAt_eq]
    cases Utf8.decode? (Contents.range site.memory.byteAt offset length) <;> rfl
  | load offset => exact run_bind_ite (Call.run_load offset site)
  | write offset data => exact run_bind_ite (Call.run_write offset data site)
  | store width offset value =>
    rw [put, ← Bytes.ofWord_eq_map]
    exact run_bind_ite (Call.run_store width offset value site)
  | fill offset length value => exact run_bind_ite (Call.run_fill offset length value site)
  | lend offset length edit =>
    refine (run_bind_ite (Call.run_slice offset length site)).trans
      (ite_congr rfl (fun inside => ?_) fun _ => rfl)
    -- what is put over the front of the range stays inside with the range
    have fits : site.memory.Holds offset
        ((edit (site.memory.bytesAt offset length)).take length).length :=
      Nat.le_trans (Nat.add_le_add_left (List.length_take_le _ _) offset) inside
    exact (run_bind_ite (Call.run_write offset _ site)).trans (if_pos fits)

/-! ## Rows of accesses -/

/-- The patches that an access lays over memory of some size: its bytes if its range is inside, and
none if it fails. -/
def patch (size : Nat) (c : Contents) (access : MemoryAccess) : List Patch :=
  if access.offset + access.length ≤ size then [⟨access.offset, access.put c⟩] else []

/-- The patches that a row of accesses lays over memory of some size, one after the other. -/
def patches (size : Nat) : Contents → List MemoryAccess → List Patch
  | _, [] => []
  | c, access :: rest =>
    access.patch size c ++ patches size (c.overlay (access.patch size c)) rest

/-- The site after a row of accesses, whatever each of them gave. -/
def after (site : Site) (row : List MemoryAccess) : Site :=
  row.foldl (fun site access => (access.run.run site).2) site

/-- A site is another with memory of the same size and some contents. -/
structure Holding (site : Site) (c : Contents) (here : Site) : Prop where
  site_eq : here = { site with memory := here.memory }
  size_eq : here.memory.size = site.memory.size
  byteAt_eq : here.memory.byteAt = c

theorem Holding.trans {site mid here : Site} {c d : Contents} (h : Holding site c mid)
    (h' : Holding mid d here) : Holding site d here where
  site_eq := h'.site_eq.trans
    (congrArg (fun s : Site => { s with memory := here.memory }) h.site_eq)
  size_eq := h'.size_eq.trans h.size_eq
  byteAt_eq := h'.byteAt_eq

/-- **An access lays its patches over the memory**, and touches nothing else. -/
theorem holding_run (access : MemoryAccess) (site : Site) :
    Holding site
      (Contents.overlay site.memory.byteAt (access.patch site.memory.size site.memory.byteAt))
      (access.run.run site).2 := by
  rw [run_eq, patch]
  by_cases inside : access.offset + access.length ≤ site.memory.size
  · have inside' : site.memory.Holds access.offset (access.put site.memory.byteAt).length :=
      Nat.le_trans (Nat.add_le_add_left (access.length_put_le _) _) inside
    rw [if_pos (show site.memory.Holds access.offset access.length from inside), if_pos inside]
    exact ⟨rfl, Memory.size_overwrite _ _ _, Memory.byteAt_overwrite_eq inside'⟩
  · rw [if_neg (show ¬ site.memory.Holds access.offset access.length from inside), if_neg inside]
    exact ⟨rfl, rfl, rfl⟩

/-- **What is in memory after a row of accesses**: the patches of the row over what was there. -/
theorem memory_after (site : Site) (row : List MemoryAccess) :
    Holding site
      (Contents.overlay site.memory.byteAt (patches site.memory.size site.memory.byteAt row))
      (after site row) := by
  induction row generalizing site with
  | nil => exact ⟨rfl, rfl, rfl⟩
  | cons access rest ih =>
    have first := holding_run access site
    have later := ih (access.run.run site).2
    rw [first.size_eq, first.byteAt_eq, ← Contents.overlay_append] at later
    exact first.trans later

/-- **Accesses are exactly bounded, and memory is what was written to it.** After any row of
accesses to memory of any size, the size and all but the memory are as they were, and memory holds
what it held at first with the bytes of the accesses that succeeded laid over it. The next access
fails exactly if its range passes the end or it asks for text where there is none, and then it
changes nothing. If it succeeds, it gives what those contents have in its range, and the bytes it
puts are the only ones that change. -/
theorem accesses_exact (site : Site) (row : List MemoryAccess) (access : MemoryAccess) :
    let here := after site row
    let held := Contents.overlay site.memory.byteAt
      (patches site.memory.size site.memory.byteAt row)
    Holding site held here ∧
      ((∃ e, (access.run.run here).1 = .error e) ↔
        site.memory.size < access.offset + access.length ∨ access.Garbled held) ∧
      (∀ e, (access.run.run here).1 = .error e → (access.run.run here).2 = here) ∧
      ∀ reply, (access.run.run here).1 = .ok reply →
        access.reply held = .ok reply ∧
        Holding site (held.overlay [⟨access.offset, access.put held⟩]) (access.run.run here).2 := by
  intro here held
  have now : Holding site held here := memory_after site row
  have next := holding_run access here
  have come := run_eq access here
  rw [patch, now.size_eq, now.byteAt_eq] at next
  simp only [Memory.Holds, now.size_eq, now.byteAt_eq] at come
  by_cases inside : access.offset + access.length ≤ site.memory.size
  · rw [if_pos inside] at next come
    rw [come]
    refine ⟨now, ?_, fun e failed => ?_, fun reply given => ⟨given, come ▸ now.trans next⟩⟩
    · exact reply_eq_error_iff.trans (or_iff_right (Nat.not_lt.mpr inside)).symm
    · -- a range that is no text has been read, and nothing was put over it
      obtain ⟨_, _, rfl, -⟩ := reply_eq_error_iff.mp ⟨e, failed⟩
      rfl
  · rw [if_neg inside] at come
    rw [come]
    refine ⟨now, iff_of_true ⟨_, rfl⟩ (.inl (Nat.not_le.mp inside)), fun _ _ => rfl, ?_⟩
    rintro reply ⟨⟩

end MemoryAccess

end GuestHost
