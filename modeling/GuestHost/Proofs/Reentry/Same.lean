import GuestHost.Call
import GuestHost.Posix.File
import GuestHost.Proofs.Alike
/-!
# What a host call cannot tell

A host call cannot tell how deep its guest is nested, nor through which other guests, and nothing
that it does depends on the log. Two sites are the same to it if they differ in no more than that:
`Site.Same`. A call is blind if it ends alike on sites that are the same, `Call.Blind`, and the
operations that host calls are made of are. With `K` the two sites are traced alike and have the
same log; without it, they may differ in these too.
-/

namespace GuestHost

open Stateful

/-! ## Invocations, contexts and worlds -/

/-- Invocations that differ in depth, chain and trace only, and with `K` not in the trace. -/
def Invocation.Same (K : Prop) (i i' : Invocation) : Prop :=
  ∃ trace depth chain, i' = { i with trace := trace, depth := depth, chain := chain } ∧
    (K → trace = i.trace)

/-- Contexts that differ as their invocations do. -/
def Context.Same (K : Prop) (c c' : Context) : Prop :=
  ∃ i, c.toInvocation.Same K i ∧ c' = { c with toInvocation := i }

/-- Worlds that differ in their logs only, and with `K` not at all. -/
def World.Same (K : Prop) (w w' : World) : Prop :=
  ∃ log, w' = { w with log := log } ∧ (K → log = w.log)

/-- Sites that differ as their invocations and their worlds do. -/
def Site.Same (K : Prop) (s s' : Site) : Prop :=
  ∃ i w, s.invocation.Same K i ∧ s.world.Same K w ∧ s' = { s with invocation := i, world := w }

variable {K : Prop}

namespace World

theorem Same.refl (w : World) : w.Same K w := ⟨w.log, rfl, fun _ => rfl⟩

variable {w w' w'' : World}

theorem Same.symm (h : w.Same K w') : w'.Same K w := by
  obtain ⟨log, rfl, same⟩ := h
  exact ⟨w.log, rfl, fun k => (same k).symm⟩

theorem Same.trans (h : w.Same K w') (h' : w'.Same K w'') : w.Same K w'' := by
  obtain ⟨log, rfl, same⟩ := h
  obtain ⟨log', rfl, same'⟩ := h'
  exact ⟨log', rfl, fun k => (same' k).trans (same k)⟩

theorem Same.mono {L : Prop} (h : w.Same K w') (weaker : L → K) : w.Same L w' := by
  obtain ⟨log, rfl, same⟩ := h
  exact ⟨log, rfl, fun l => same (weaker l)⟩

theorem Same.note (h : w.Same K w') (event : Event) : (w.note event).Same K (w'.note event) := by
  obtain ⟨log, rfl, same⟩ := h
  exact ⟨log.push event, rfl, fun k => by rw [same k]; rfl⟩

/-- Without `K` an event may be noted down on either side alone. -/
theorem Same.note_left (h : w.Same K w') (free : ¬ K) (event : Event) :
    (w.note event).Same K w' := by
  obtain ⟨log, rfl, -⟩ := h
  exact ⟨log, rfl, fun k => absurd k free⟩

theorem Same.note_right (h : w.Same K w') (free : ¬ K) (event : Event) :
    w.Same K (w'.note event) := by
  obtain ⟨log, rfl, -⟩ := h
  exact ⟨log.push event, rfl, fun k => absurd k free⟩

theorem Same.noteRefusal {α : Type} (h : w.Same K w') (outcome : Except Exchange.Error α) :
    (w.noteRefusal outcome).Same K (w'.noteRefusal outcome) := by
  unfold World.noteRefusal
  split
  · exact h.note _
  · exact h.note _
  · exact h

/-- An operation on worlds that the log does not matter to. -/
def Blind {β : Type} (K : Prop) (operation : World → β × World) : Prop :=
  ∀ w w', w.Same K w' →
    (operation w').1 = (operation w).1 ∧ (operation w).2.Same K (operation w').2

theorem Blind.run {β : Type} {operation : World → β × World} (h : Blind K operation)
    (same : w.Same K w') :
    ∃ b t t', operation w = (b, t) ∧ operation w' = (b, t') ∧ t.Same K t' := by
  obtain ⟨outcome, worlds⟩ := h w w' same
  exact ⟨(operation w).1, (operation w).2, (operation w').2, rfl, Prod.ext outcome rfl, worlds⟩

theorem blind_use {α : Type} (handle : Nat)
    (operation : Exchange.Buffer → Except Exchange.Error α × Exchange.Buffer) :
    Blind K fun w => w.use handle operation := by
  rintro w _ ⟨log, rfl, same⟩
  have worlds : World.Same K { w with registry := (w.registry.use handle operation).2 }
      { w with registry := (w.registry.use handle operation).2, log := log } := ⟨log, rfl, same⟩
  exact ⟨rfl, worlds.noteRefusal (w.registry.use handle operation).1⟩

theorem blind_useAt {α : Type} (place : Exchange.Place)
    (operation : Exchange.Buffer → Except Exchange.Error α × Exchange.Buffer) :
    Blind K fun w => w.useAt place operation := by
  rintro w _ ⟨log, rfl, same⟩
  have worlds : World.Same K { w with registry := (w.registry.useAt place operation).2 }
      { w with registry := (w.registry.useAt place operation).2, log := log } := ⟨log, rfl, same⟩
  exact ⟨rfl, worlds.noteRefusal (w.registry.useAt place operation).1⟩

theorem blind_register (buffer : Exchange.Buffer) : Blind K fun w => w.register buffer := by
  rintro w _ ⟨log, rfl, same⟩
  exact ⟨rfl, log, rfl, same⟩

theorem blind_create : Blind K World.create := blind_register _

theorem blind_release (handle : Nat) : Blind K fun w => w.release handle := by
  rintro w _ ⟨log, rfl, same⟩
  exact ⟨rfl, log, rfl, same⟩

theorem blind_store {α : Type} (access : Store.Blob.Access α) :
    Blind K fun w => w.store access := by
  rintro w _ ⟨log, rfl, same⟩
  exact ⟨rfl, log, rfl, same⟩

theorem blind_fetch (url : Url) : Blind K fun w => w.fetch url := by
  rintro w _ ⟨log, rfl, same⟩
  have noted : w.Same K { w with log := log } := ⟨log, rfl, same⟩
  exact ⟨rfl, noted.note _⟩

end World

/-! ## Host calls -/

namespace Call

variable {α β : Type} {x y : Call α} {f : α → Call β} {L : CallError → Prop}

/-- A call that ends alike on sites that are the same. -/
def Blind (K : Prop) (x : Call α) : Prop := Alike (Site.Same K) never x x Eq

theorem blind_pure (a : α) : Blind K (pure a : Call α) := Alike.pure rfl

theorem blind_throw (e : CallError) : Blind K (throw e : Call α) := Alike.throw e

theorem blind_fail (e : CallError) : Blind K (fail e : Call α) := Alike.throw e

theorem blind_refuse (reason : Reason) : Blind K (refuse reason : Call α) := Alike.throw _

theorem blind_bind (hx : Blind K x) (hf : ∀ a, Blind K (f a)) : Blind K (x >>= f) :=
  Alike.bind hx fun a _ same => same ▸ hf a

theorem blind_ite {c : Prop} [Decidable c] (hx : Blind K x) (hy : Blind K y) :
    Blind K (if c then x else y) := by
  split
  · exact hx
  · exact hy

/-! ### Reading the site -/

/-- A computation that looks at the site is blind if it looks at what is the same only. -/
theorem blind_get {f : Site → Call α}
    (h : ∀ s i w, s.invocation.Same K i → s.world.Same K w →
      Alike (Site.Same K) never (f s) (f { s with invocation := i, world := w }) Eq) :
    Blind K (get >>= f) := by
  refine Alike.bind Alike.get ?_
  rintro s _ ⟨i, w, invocation, world, rfl⟩
  exact h s i w invocation world

theorem blind_argument (index : Nat) : Blind K (argument index) := by
  refine blind_get fun s i w _ _ => ?_
  dsimp only
  cases s.arguments[index]? with
  | some value => exact blind_pure value
  | none => exact blind_throw _

theorem blind_word (index : Nat) : Blind K (word index) := by
  refine blind_bind (blind_argument index) fun value => ?_
  cases value with
  | i32 word => exact blind_pure _
  | _ => exact blind_throw _

theorem blind_signed (index : Nat) : Blind K (signed index) :=
  blind_bind (blind_word index) fun _ => blind_pure _

theorem blind_wide (index : Nat) : Blind K (wide index) := by
  refine blind_bind (blind_argument index) fun value => ?_
  cases value with
  | i64 word => exact blind_pure _
  | _ => exact blind_throw _

theorem blind_mapM {g : β → Call α} (h : ∀ b, Blind K (g b)) (l : List β) :
    Blind K (l.mapM g) := by
  induction l with
  | nil => exact blind_pure _
  | cons b rest ih =>
    rw [List.mapM_cons]
    exact blind_bind (h b) fun a => blind_bind ih fun as => blind_pure _

theorem blind_words : Blind K words := by
  refine blind_get fun s i w _ _ => ?_
  exact blind_mapM blind_signed _

theorem blind_process : Blind K process := blind_get fun _ _ _ _ _ => blind_pure _

/-! ### The guest's memory -/

theorem blind_ofAccess (access : Except Memory.OutOfBounds α) : Blind K (ofAccess access) := by
  cases access with
  | ok value => exact blind_pure value
  | error e => exact blind_throw _

theorem blind_slice (offset length : Nat) : Blind K (slice offset length) :=
  blind_get fun _ _ _ _ _ => blind_ofAccess _

theorem blind_range (offset length : Nat) : Blind K (range offset length) :=
  blind_get fun _ _ _ _ _ => blind_ofAccess _

theorem blind_load (offset : Nat) : Blind K (load offset) :=
  blind_get fun _ _ _ _ _ => blind_ofAccess _

theorem blind_bytes (address length : Nat) : Blind K (bytes address length) :=
  blind_bind (blind_word address) fun _ => blind_bind (blind_word length) fun _ =>
    blind_slice _ _

theorem blind_string (offset length : Nat) : Blind K (string offset length) := by
  refine blind_bind (blind_slice offset length) fun bytes => ?_
  cases Utf8.decode? bytes with
  | some text => exact blind_pure text
  | none => exact blind_throw _

theorem blind_text (address length : Nat) : Blind K (text address length) :=
  blind_bind (blind_word address) fun _ => blind_bind (blind_word length) fun _ =>
    blind_string _ _

/-- A change of what is the same keeps sites the same. -/
theorem blind_update {g : Site → Site}
    (h : ∀ s i w, ∃ t : Site, g s = { t with invocation := s.invocation, world := s.world } ∧
      g { s with invocation := i, world := w } = { t with invocation := i, world := w }) :
    Blind K (modify g : Call Unit) := by
  rintro s _ ⟨i, w, invocation, world, rfl⟩
  obtain ⟨t, left, right⟩ := h s i w
  refine .ok rfl ?_
  rw [left, right]
  exact ⟨i, w, invocation, world, rfl⟩

theorem blind_setMemory (memory : Memory) : Blind K (setMemory memory) :=
  blind_update fun s _ _ => ⟨{ s with memory := memory }, rfl, rfl⟩

theorem blind_setProcess (process : Posix.Process) : Blind K (setProcess process) :=
  blind_update fun s _ _ => ⟨{ s with process := process }, rfl, rfl⟩

/-- A write puts the memory that an access comes to in place of the memory. -/
theorem blind_change (access : Memory → Except Memory.OutOfBounds Memory) :
    Blind K (do setMemory (← ofAccess (access (← get).memory))) :=
  blind_get fun _ _ _ _ _ => blind_bind (blind_ofAccess _) blind_setMemory

theorem blind_write (offset : Nat) (data : Bytes) : Blind K (write offset data) :=
  blind_change fun memory => memory.write offset data

theorem blind_store (width offset value : Nat) : Blind K (store width offset value) :=
  blind_change fun memory => memory.writeWord width offset value

theorem blind_fill (offset length : Nat) (value : UInt8) : Blind K (fill offset length value) :=
  blind_change fun memory => memory.fill offset length value

/-! ### The world -/

theorem alike_world : Alike (Site.Same K) L world world (World.Same K) := by
  rintro s _ ⟨i, w, invocation, same, rfl⟩
  exact .ok same ⟨i, w, invocation, same, rfl⟩

theorem alike_setWorld {w w' : World} (h : w.Same K w') :
    Alike (Site.Same K) L (setWorld w) (setWorld w') Eq := by
  rintro s _ ⟨i, -, invocation, -, rfl⟩
  exact .ok rfl ⟨i, w', invocation, h, rfl⟩

theorem alike_invocation :
    Alike (Site.Same K) L invocation invocation (Invocation.Same K) := by
  rintro s _ ⟨i, w, same, world, rfl⟩
  exact .ok same ⟨i, w, same, world, rfl⟩

theorem blind_note (event : Event) : Blind K (note event) := by
  refine Alike.bind alike_world fun w w' same => ?_
  exact alike_setWorld (same.note event)

theorem blind_hear (text : Bytes) : Blind K (hear text) := blind_note _

/-- **What is noted down only where it is traced** does not matter to what comes after. -/
theorem alike_traced {c c' : Prop} [Decidable c] [Decidable c'] (h : K → (c ↔ c'))
    (hx : Blind K x) (event : Event) :
    Alike (Site.Same K) never (if c then do note event; x else x)
      (if c' then do note event; x else x) Eq := by
  have noted : ∀ s s', Site.Same K s s' → Site.Same K { s with world := s.world.note event }
      { s' with world := s'.world.note event } := by
    rintro s _ ⟨i, w, invocation, world, rfl⟩
    exact ⟨i, w.note event, invocation, world.note event, rfl⟩
  refine Alike.optional noted ?_ hx
  by_cases k : K
  · exact .inl (h k)
  · refine .inr ⟨?_, ?_⟩ <;> rintro s _ ⟨i, w, invocation, world, rfl⟩
    · exact ⟨i, w, invocation, world.note_left k event, rfl⟩
    · exact ⟨i, w.note event, invocation, world.note_right k event, rfl⟩

theorem blind_attempt {ε : Type} {reason : ε → Reason} {operation : World → Except ε α × World}
    (h : World.Blind K operation) : Blind K (attempt reason operation) := by
  refine Alike.bind alike_world fun w w' same => ?_
  obtain ⟨outcome, t, t', left, right, worlds⟩ := h.run same
  simp only [left, right]
  refine Alike.bind (alike_setWorld worlds) fun _ _ _ => ?_
  cases outcome with
  | ok value => exact blind_pure value
  | error e => exact blind_throw _

theorem blind_use (handle : Nat)
    (operation : Exchange.Buffer → Except Exchange.Error α × Exchange.Buffer) :
    Blind K (use handle operation) := blind_attempt (World.blind_use handle operation)

theorem blind_access (operation : Store.Blob.Access α) : Blind K (access operation) :=
  blind_attempt (World.blind_store operation)

theorem blind_look (operation : Store.Shelf → Except Store.Error α) :
    Blind K (look operation) := blind_access _

theorem blind_register (buffer : Exchange.Buffer) : Blind K (register buffer) := by
  refine Alike.bind alike_world fun w w' same => ?_
  obtain ⟨n, t, t', left, right, worlds⟩ := (World.blind_register buffer).run same
  simp only [left, right]
  exact Alike.bind (alike_setWorld worlds) fun _ _ _ => blind_pure _

theorem blind_reply (content : Bytes) : Blind K (reply content) := blind_register _

end Call

end GuestHost
