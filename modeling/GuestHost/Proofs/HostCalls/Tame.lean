import GuestHost.Call
import GuestHost.Proofs.Stateful
/-!
# Tame host calls

A host call is **tame** if whatever it fails of is something that its guest survives, as long as
its arguments have the types that it is bound with; and it keeps an invariant of the world. What a
guest has in its memory, how much memory it has, and what state the host and the process are in
have no part in it. There is one rule for each way in which host calls are put together, and one
lemma for each thing that they do.
-/

namespace GuestHost

open Stateful

/-- A failure that a guest survives. -/
def CallError.Survived : CallError → Prop
  | .outOfBounds _ => True
  | .recoverable _ => True
  | _ => False

/-- The failure to read an argument that is missing or of another type. -/
def CallError.Misread : CallError → Prop
  | .fatal (.missingArgument _) => True
  | .fatal (.argument _ _ _) => True
  | _ => False

/-- The arguments of a host call have the types that it is bound with. -/
def Site.Fits (site : Site) (types : List Wasm.ValType) : Prop :=
  site.arguments.map Wasm.Value.type = types

/-! ## Invariants of worlds -/

/-- An invariant that notes, accesses to the store and operations on buffers keep. -/
structure World.Steady (I : World → Prop) : Prop where
  note : ∀ (w : World) (event : Event), I w → I (w.note event)
  shelf : ∀ (w : World) (shelf : Store.Shelf), I w → I { w with shelf := shelf }
  useAt : ∀ (w : World) {α : Type} (place : Exchange.Place)
    (operation : Exchange.Buffer → Except Exchange.Error α × Exchange.Buffer),
    I w → I (w.useAt place operation).2

/-- An operation on buffers that leaves the content of a memory buffer as it is. -/
def Exchange.Buffer.Plain {α : Type} (operation : Buffer → Except Error α × Buffer) : Prop :=
  ∀ b : MemoryBuffer, ∃ b' : MemoryBuffer,
    (operation (.memory b)).2 = .memory b' ∧ b'.content = b.content

/-- An operation on buffers that never panics. -/
def Exchange.Buffer.Safe {α : Type} (operation : Buffer → Except Error α × Buffer) : Prop :=
  ∀ b : Buffer, (operation b).1 ≠ .error .overfull

/-- An invariant that notes, accesses to the store and operations on buffers that are plain and safe
keep. A panic is no mere note. -/
structure World.Calm (I : World → Prop) : Prop where
  note : ∀ (w : World) (event : Event), event ≠ .panicked → I w → I (w.note event)
  shelf : ∀ (w : World) (shelf : Store.Shelf), I w → I { w with shelf := shelf }
  useAt : ∀ (w : World) {α : Type} (place : Exchange.Place)
    (operation : Exchange.Buffer → Except Exchange.Error α × Exchange.Buffer),
    Exchange.Buffer.Plain operation → Exchange.Buffer.Safe operation → I w →
      I (w.useAt place operation).2

/-- An invariant that writing to buffers keeps. -/
def World.Writable (I : World → Prop) : Prop :=
  ∀ (w : World) (place : Exchange.Place) (content : Bytes), I w →
    I (w.useAt place (Exchange.Buffer.write content)).2

/-- An invariant that setting headers of buffers keeps. -/
def World.Headed (I : World → Prop) : Prop :=
  ∀ (w : World) (place : Exchange.Place) (name value : String), I w →
    I (w.useAt place (Exchange.Buffer.setHeader name value)).2

/-- An invariant that making buffers and freeing them keep. -/
structure World.Roomy (I : World → Prop) : Prop where
  register : ∀ (w : World) (buffer : Exchange.Buffer), I w → I (w.register buffer).2
  release : ∀ (w : World) (handle : Nat), I w → I (w.release handle).2

namespace World

variable {I : World → Prop} {w : World}

theorem steady_true : Steady fun _ => True := ⟨fun _ _ _ => trivial, fun _ _ _ => trivial,
  fun _ _ _ _ _ => trivial⟩

theorem roomy_true : Roomy fun _ => True := ⟨fun _ _ _ => trivial, fun _ _ _ => trivial⟩

theorem noteRefusal_registry {α : Type} (w : World) (outcome : Except Exchange.Error α) :
    (w.noteRefusal outcome).registry = w.registry := by
  unfold noteRefusal
  split <;> rfl

/-- **Which handles are live and which comes next is steady.** -/
theorem steady_handles (P : Table Nat Exchange.Place → Nat → Prop) :
    Steady fun w => P w.registry.handles w.registry.next := by
  refine ⟨fun _ _ h => h, fun _ _ h => h, fun w α place operation h => ?_⟩
  show P (w.useAt place operation).2.registry.handles (w.useAt place operation).2.registry.next
  unfold useAt
  dsimp only
  rw [noteRefusal_registry]
  unfold Exchange.Registry.useAt
  split <;> exact h

/-- What using the buffer at its place keeps, using the buffer of a handle keeps. -/
theorem keeps_use {α : Type} {operation : Exchange.Buffer → Except Exchange.Error α × Exchange.Buffer}
    (used : ∀ place, I (w.useAt place operation).2) (handle : Nat) (hw : I w) :
    I (w.use handle operation).2 := by
  unfold World.use Exchange.Registry.use
  cases w.registry.place? handle with
  | none => exact hw
  | some place => exact used place

namespace Calm

theorem use {α : Type} (hI : Calm I) (handle : Nat)
    {operation : Exchange.Buffer → Except Exchange.Error α × Exchange.Buffer}
    (plain : Exchange.Buffer.Plain operation) (safe : Exchange.Buffer.Safe operation) (hw : I w) :
    I (w.use handle operation).2 :=
  keeps_use (fun place => hI.useAt w place operation plain safe hw) handle hw

theorem store {α : Type} (hI : Calm I) (access : Store.Blob.Access α) (hw : I w) :
    I (w.store access).2 := hI.shelf w _ hw

theorem fetch (hI : Calm I) (url : Url) (hw : I w) : I (w.fetch url).2 := hI.note w _ nofun hw

end Calm

namespace Steady

theorem calm (hI : Steady I) : Calm I :=
  ⟨fun w event _ => hI.note w event, hI.shelf,
    fun w _ place operation _ _ => hI.useAt w place operation⟩

theorem writable (hI : Steady I) : Writable I := fun w place _ => hI.useAt w place _

theorem headed (hI : Steady I) : Headed I := fun w place _ _ => hI.useAt w place _

theorem use {α : Type} (hI : Steady I) (handle : Nat)
    (operation : Exchange.Buffer → Except Exchange.Error α × Exchange.Buffer) (hw : I w) :
    I (w.use handle operation).2 :=
  keeps_use (fun place => hI.useAt w place operation hw) handle hw

end Steady

end World

namespace Call

variable {I : World → Prop} {types : List Wasm.ValType} {α β ε : Type} {x : Call α}
  {f : α → Call β} {P Q : α → Prop} {R : β → Prop}

/-- A host call that keeps an invariant of the world and leaves its arguments alone. It yields only
values of a kind, or it fails in a way that its guest survives, unless its arguments are of other
types than it is bound with. -/
def Tame (I : World → Prop) (types : List Wasm.ValType) (x : Call α) (P : α → Prop) : Prop :=
  ∀ site, I site.world →
    (x.run site).2.arguments = site.arguments ∧ I (x.run site).2.world ∧
      match (x.run site).1 with
      | .ok a => P a
      | .error e => e.Survived ∨ e.Misread ∧ ¬ site.Fits types

/-! ## Putting host calls together -/

theorem tame_pure {a : α} (h : P a) : Tame I types (pure a) P := fun _ hsite => ⟨rfl, hsite, h⟩

theorem tame_throw {e : CallError} (h : e.Survived) : Tame I types (throw e) P :=
  fun _ hsite => ⟨rfl, hsite, .inl h⟩

theorem tame_refuse (reason : Reason) : Tame I types (refuse reason : Call α) P :=
  tame_throw (e := .recoverable reason) trivial

/-- **Two host calls in a row.** The second may rely on what the first yields, and it sees the same
arguments. -/
theorem Tame.bind (hx : Tame I types x P) (hf : ∀ a, P a → Tame I types (f a) R) :
    Tame I types (x >>= f) R := by
  intro site hsite
  obtain ⟨arguments, world, ends⟩ := hx site hsite
  rw [run_bind]
  cases come : (x.run site).1 with
  | error e =>
    rw [come] at ends
    exact ⟨arguments, world, ends⟩
  | ok a =>
    rw [come] at ends
    obtain ⟨arguments', world', ends'⟩ := hf a ends _ world
    refine ⟨arguments'.trans arguments, world', ?_⟩
    -- the second reads the same arguments, so they fit for it exactly if they do for the first
    have fits : (x.run site).2.Fits types ↔ site.Fits types := by
      unfold Site.Fits
      rw [arguments]
    rw [fits] at ends'
    exact ends'

theorem tame_ite {c : Prop} [Decidable c] {y : Call α} (hx : Tame I types x P)
    (hy : Tame I types y P) : Tame I types (if c then x else y) P := by
  split
  · exact hx
  · exact hy

/-- A host call that is made first under a condition. -/
theorem tame_optional {c : Prop} [Decidable c] {y : Call β} (hx : Tame I types x fun _ => True)
    (hy : Tame I types y R) : Tame I types (if c then x >>= fun _ => y else y) R :=
  tame_ite (hx.bind fun _ _ => hy) hy

/-- What follows from a look at the site that a host call is made at. -/
theorem tame_get {g : Site → α} (h : ∀ site, I site.world → P (g site)) :
    Tame I types (do return g (← get)) P :=
  fun site hsite => ⟨rfl, hsite, h site hsite⟩

/-- A change of the site that leaves its arguments and the world alone. -/
theorem tame_update {g : Site → Site} (arguments : ∀ site, (g site).arguments = site.arguments)
    (world : ∀ site, (g site).world = site.world) :
    Tame I types (modify g) fun _ => True :=
  fun site hsite => ⟨arguments site, (world site).symm ▸ hsite, trivial⟩

/-! ## Arguments -/

/-- An argument of the type that is declared for it is read. -/
theorem run_argument_of_fits {site : Site} (fits : site.Fits types) {index : Nat}
    {type : Wasm.ValType} (declared : types[index]? = some type) :
    ∃ value, value.type = type ∧ (argument index).run site = (.ok value, site) := by
  unfold Site.Fits at fits
  rw [← fits, List.getElem?_map, Option.map_eq_some_iff] at declared
  obtain ⟨value, found, same⟩ := declared
  refine ⟨value, same, ?_⟩
  unfold argument
  simp only [run_bind, run_get, found]
  rfl

/-- Reading an argument changes nothing, and it fails for want of the argument only. -/
theorem run_argument (index : Nat) (site : Site) :
    ((argument index).run site).2 = site ∧
      ∀ e, ((argument index).run site).1 = .error e → e.Misread := by
  unfold argument
  simp only [run_bind, run_get]
  cases site.arguments[index]? with
  | some value => exact ⟨rfl, fun e h => nomatch h⟩
  | none =>
    refine ⟨rfl, fun e h => ?_⟩
    obtain rfl := Except.error.inj h
    trivial

/-- A reader of arguments of one type. -/
theorem tame_reader {type : Wasm.ValType} {index : Nat} (declared : types[index]? = some type)
    {read : Wasm.Value → Call α}
    (reads : ∀ value site, ((read value).run site).2 = site ∧
      ∀ e, ((read value).run site).1 = .error e → value.type ≠ type ∧ e.Misread) :
    Tame I types (argument index >>= read) fun _ => True := by
  intro site hsite
  obtain ⟨same, misread⟩ := run_argument index site
  rw [run_bind]
  cases come : ((argument index).run site).1 with
  | error e =>
    refine ⟨congrArg Site.arguments same, same.symm ▸ hsite, .inr ⟨misread e come, fun fits => ?_⟩⟩
    obtain ⟨value, -, found⟩ := run_argument_of_fits fits declared
    rw [found] at come
    cases come
  | ok value =>
    dsimp only
    rw [same]
    obtain ⟨unchanged, fails⟩ := reads value site
    refine ⟨congrArg Site.arguments unchanged, unchanged.symm ▸ hsite, ?_⟩
    cases come' : ((read value).run site).1 with
    | ok a => trivial
    | error e =>
      obtain ⟨other, misread⟩ := fails e come'
      refine .inr ⟨misread, fun fits => ?_⟩
      obtain ⟨value', same', found⟩ := run_argument_of_fits fits declared
      rw [found] at come
      exact other (Except.ok.inj come ▸ same')

theorem tame_word (index : Nat) (declared : types[index]? = some .i32) :
    Tame I types (word index) fun _ => True := by
  refine tame_reader declared fun value site => ?_
  cases value with
  | i32 word => exact ⟨rfl, fun e h => nomatch h⟩
  | _ => exact ⟨rfl, fun e h => Except.error.inj h ▸ ⟨by simp [Wasm.Value.type], trivial⟩⟩

theorem tame_wide (index : Nat) (declared : types[index]? = some .i64) :
    Tame I types (wide index) fun _ => True := by
  refine tame_reader declared fun value site => ?_
  cases value with
  | i64 word => exact ⟨rfl, fun e h => nomatch h⟩
  | _ => exact ⟨rfl, fun e h => Except.error.inj h ▸ ⟨by simp [Wasm.Value.type], trivial⟩⟩

/-! ## Memory and process -/

theorem tame_process : Tame I types process fun _ => True := tame_get fun _ _ => trivial

theorem tame_invocation : Tame I types invocation fun _ => True := tame_get fun _ _ => trivial

theorem tame_setProcess (process : Posix.Process) :
    Tame I types (setProcess process) fun _ => True :=
  tame_update (fun _ => rfl) fun _ => rfl

theorem tame_ofAccess (access : Except Memory.OutOfBounds α) :
    Tame I types (ofAccess access) fun _ => True := by
  cases access with
  | ok a => exact tame_pure trivial
  | error e => exact tame_throw (e := .outOfBounds e) trivial

/-- A look into the memory of the guest. -/
theorem tame_read (access : Memory → Except Memory.OutOfBounds α) :
    Tame I types (do ofAccess (access (← get).memory)) fun _ => True :=
  (tame_get (g := id) (P := fun _ => True) fun _ _ => trivial).bind fun site _ =>
    tame_ofAccess (access site.memory)

/-- A change of the memory of the guest. -/
theorem tame_change (access : Memory → Except Memory.OutOfBounds Memory) :
    Tame I types (do setMemory (← ofAccess (access (← get).memory))) fun _ => True :=
  (tame_get (g := id) (P := fun _ => True) fun _ _ => trivial).bind fun site _ =>
    (tame_ofAccess (access site.memory)).bind fun _ _ =>
      tame_update (fun _ => rfl) fun _ => rfl

theorem tame_slice (offset length : Nat) : Tame I types (slice offset length) fun _ => True :=
  tame_read fun memory => memory.slice offset length

theorem tame_range (offset length : Nat) : Tame I types (range offset length) fun _ => True :=
  tame_read fun memory => memory.check offset length

theorem tame_load (offset : Nat) : Tame I types (load offset) fun _ => True :=
  tame_read fun memory => memory.readWord 4 offset

theorem tame_write (offset : Nat) (data : Bytes) :
    Tame I types (write offset data) fun _ => True :=
  tame_change fun memory => memory.write offset data

theorem tame_store (width offset value : Nat) :
    Tame I types (store width offset value) fun _ => True :=
  tame_change fun memory => memory.writeWord width offset value

theorem tame_fill (offset length : Nat) (value : UInt8) :
    Tame I types (fill offset length value) fun _ => True :=
  tame_change fun memory => memory.fill offset length value

theorem tame_bytes (address length : Nat) (haddress : types[address]? = some .i32)
    (hlength : types[length]? = some .i32) : Tame I types (bytes address length) fun _ => True :=
  (tame_word address haddress).bind fun _ _ => (tame_word length hlength).bind fun _ _ =>
    tame_slice _ _

theorem tame_string (offset length : Nat) : Tame I types (string offset length) fun _ => True := by
  refine (tame_slice offset length).bind fun bytes _ => ?_
  cases Utf8.decode? bytes with
  | some text => exact tame_pure trivial
  | none => exact tame_refuse .utf8

theorem tame_text (address length : Nat) (haddress : types[address]? = some .i32)
    (hlength : types[length]? = some .i32) : Tame I types (text address length) fun _ => True :=
  (tame_word address haddress).bind fun _ _ => (tame_word length hlength).bind fun _ _ =>
    tame_string _ _

/-! ## World -/

theorem tame_world : Tame I types world I := tame_get fun _ hsite => hsite

theorem tame_setWorld {w : World} (h : I w) : Tame I types (setWorld w) fun _ => True :=
  fun _ _ => ⟨rfl, h, trivial⟩

theorem tame_note (hI : World.Calm I) (event : Event) (other : event ≠ .panicked) :
    Tame I types (note event) fun _ => True :=
  tame_world.bind fun w hw => tame_setWorld (hI.note w event other hw)

theorem tame_hear (hI : World.Calm I) (text : Bytes) : Tame I types (hear text) fun _ => True :=
  tame_note hI _ nofun

theorem tame_attempt {reason : ε → Reason} {operation : World → Except ε α × World}
    (h : ∀ w, I w → I (operation w).2) :
    Tame I types (attempt reason operation) fun _ => True := by
  refine tame_world.bind fun w hw => (tame_setWorld (h w hw)).bind fun _ _ => ?_
  cases (operation w).1 with
  | ok a => exact tame_pure trivial
  | error e => exact tame_refuse (reason e)

theorem tame_use (hI : World.Steady I) (handle : Nat)
    (operation : Exchange.Buffer → Except Exchange.Error α × Exchange.Buffer) :
    Tame I types (use handle operation) fun _ => True :=
  tame_attempt fun _ hw => hI.use handle operation hw

theorem tame_usePlain (hI : World.Calm I) (handle : Nat)
    {operation : Exchange.Buffer → Except Exchange.Error α × Exchange.Buffer}
    (plain : Exchange.Buffer.Plain operation) (safe : Exchange.Buffer.Safe operation) :
    Tame I types (use handle operation) fun _ => True :=
  tame_attempt fun _ hw => hI.use handle plain safe hw

theorem tame_useWrite (hI : World.Writable I) (handle : Nat) (content : Bytes) :
    Tame I types (use handle (Exchange.Buffer.write content)) fun _ => True :=
  tame_attempt fun w hw => World.keeps_use (fun place => hI w place content hw) handle hw

theorem tame_useSetHeader (hI : World.Headed I) (handle : Nat) (name value : String) :
    Tame I types (use handle (Exchange.Buffer.setHeader name value)) fun _ => True :=
  tame_attempt fun w hw => World.keeps_use (fun place => hI w place name value hw) handle hw

theorem tame_access (hI : World.Calm I) (operation : Store.Blob.Access α) :
    Tame I types (access operation) fun _ => True :=
  tame_attempt fun _ hw => hI.store operation hw

theorem tame_look (hI : World.Calm I) (operation : Store.Shelf → Except Store.Error α) :
    Tame I types (look operation) fun _ => True := tame_access hI _

theorem tame_register (hI : World.Roomy I) (buffer : Exchange.Buffer) :
    Tame I types (register buffer) fun _ => True :=
  tame_world.bind fun w hw => (tame_setWorld (hI.register w buffer hw)).bind fun _ _ =>
    tame_pure trivial

theorem tame_reply (hI : World.Roomy I) (content : Bytes) :
    Tame I types (reply content) fun _ => True := tame_register hI _

end Call

end GuestHost
