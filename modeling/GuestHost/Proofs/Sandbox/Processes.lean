import GuestHost.Proofs.HostCalls.Bound
import GuestHost.Proofs.Linking.Offered
import GuestHost.Proofs.Posix.Descriptors
import GuestHost.Proofs.Sandbox.Calls
/-!
# The process of a run

A guest's process is handed from one host call of a run to the next, and nothing else happens to it,
`Sandbox.handed_calls`; other guests that are invoked on the way have processes of their own. It
starts out `Fresh`, with none but the standard descriptors, `Sandbox.fresh_of_prepare`. If the
providers of the platform leave processes alone, as the core functions do, each host call changes it
as a system call can, `Sandbox.becomes_of_prepared`, and an output that is open stays open until it
is closed or its number is handed out again, `HostFunction.Orderly.output`.
-/

namespace GuestHost

open Stateful Posix.Process

/-! ## What a host function leaves -/

/-- Beside what stands behind it, a host function changes nothing but the world. -/
theorem HostFunction.exists_site_call (f : HostFunction) (invoke : Invoke) (site : Site) :
    ∃ w, ((f.call invoke).run site).2 =
      { ((f.backing.run invoke).run site).2 with world := w } := by
  have value : ∃ w, ((f.value invoke).run site).2 =
      { ((f.backing.run invoke).run site).2 with world := w } := by
    unfold value
    rw [run_tryCatch]
    cases ((f.backing.run invoke).run site).1 with
    | ok word => exact ⟨_, rfl⟩
    | error e => cases e <;> exact ⟨_, rfl⟩
  obtain ⟨w, left⟩ := value
  cases come : ((f.value invoke).run site).1 with
  | error e =>
    unfold call
    rw [run_bind, come]
    exact ⟨w, left⟩
  | ok word =>
    rw [(f.run_call_of_value come).2, left]
    split <;> exact ⟨_, rfl⟩

/-- What a host function does to the process of its guest: nothing, what the system call of its name
does, or it ends the guest. -/
inductive HostFunction.Orderly (f : HostFunction) : Prop where
  | aloof : (∀ invoke, (f.backing.run invoke).Aloof) → f.Orderly
  | answers {call : String × Signature × Call Posix.Errno} : call ∈ Posix.Syscall.calls →
      f.name = call.1 → f.backing = .handler (.native (Posix.Syscall.answered call.2.2)) → f.Orderly
  | exits : f.backing = .handler (.native Posix.Syscall.exit) → f.Orderly

namespace HostFunction

variable {f : HostFunction}

theorem orderly_of_aloof {call : Call UInt32} (native : f.backing = .handler (.native call))
    (aloof : call.Aloof) : f.Orderly := by
  refine .aloof fun invoke => ?_
  rw [native]
  exact aloof

theorem orderly_of_stub {module name : String} (stub : f.backing = .handler (.stub module name)) :
    f.Orderly :=
  orderly_of_aloof stub ((Call.aloof_note _).bind fun _ => Call.aloof_fail _)

/-- Other guests have processes of their own. -/
theorem orderly_of_guest {guest entry : String} (linked : f.backing = .guest guest entry) :
    f.Orderly := by
  refine .aloof fun invoke => ?_
  rw [linked]
  exact Nesting.aloof_link invoke guest entry

theorem orderly_of_callFunction (named : f.backing = .handler .callFunction) : f.Orderly := by
  refine .aloof fun invoke => ?_
  rw [named]
  exact Nesting.aloof_byName invoke

/-- **A host function changes the process of its guest as a system call can.** -/
theorem Orderly.becomes (h : f.Orderly) (invoke : Invoke) (site : Site) :
    Becomes site.process ((f.call invoke).run site).2.process := by
  obtain ⟨w, left⟩ := f.exists_site_call invoke site
  rw [left]
  cases h with
  | aloof aloof =>
    rw [aloof invoke site]
    exact .same
  | answers listed name native =>
    rw [native, Backing.run, Posix.Syscall.site_answered]
    exact Posix.Syscall.becomes_calls _ listed site
  | exits native =>
    rw [native, Backing.run]
    exact Posix.Syscall.becomes_exit site

/-- **An output that is open stays open** until the function that closes descriptors is called for
it, or the one that opens them while its number is next. -/
theorem Orderly.output (h : f.Orderly) (invoke : Invoke) {site : Site} {d : Nat}
    {place : Exchange.Place} (opened : site.process.file? d = some (.output place))
    (spared : f.name = "fd_close" → Posix.Syscall.argument? site 0 ≠ some d)
    (apart : f.name = "path_open" → site.process.next ≠ d) :
    ((f.call invoke).run site).2.process.file? d = some (.output place) := by
  obtain ⟨w, left⟩ := f.exists_site_call invoke site
  rw [left]
  cases h with
  | aloof aloof =>
    rw [aloof invoke site]
    exact opened
  | answers listed name native =>
    rw [native, Backing.run, Posix.Syscall.site_answered]
    exact Posix.Syscall.output_calls _ listed opened (name ▸ spared) (name ▸ apart)
  | exits native =>
    rw [native, Backing.run]
    rcases Posix.Syscall.process_exit site with left | ⟨code, left⟩
    · rw [left]
      exact opened
    · rw [left]
      exact opened

end HostFunction

/-! ## What platforms offer -/

/-- The providers of a platform leave the processes of guests alone. -/
def Platform.Aloof (platform : Platform) : Prop :=
  ∀ module provider, platform.providers.find? module = some provider →
    provider.plan.Offers fun f => ∀ call, f.backing = .handler (.native call) → call.Aloof

/-- So does the provider of the core functions. -/
theorem Platform.aloof_standard (config : Config) : (standard config).Aloof := by
  intro module provider found
  rw [provider_of_standard found]
  refine Core.offers_typed.mono fun module name type result handler offered call native => ?_
  rcases offered with ⟨call', listed, typed⟩ | typed
  · obtain rfl : call'.2.2 = call := by
      simpa using typed.backing_eq.symm.trans native
    exact Core.aloof_calls call' listed
  · exact nomatch typed.backing_eq.symm.trans native

/-- **The functions that guests can be bound to do to a process what system calls can do.** -/
theorem Platform.offers_orderly {platform : Platform} (aloof : platform.Aloof) :
    platform.Offers HostFunction.Orderly where
  providers module provider found := by
    refine (aloof module provider found).mono fun module name type result handler offered => ?_
    cases handler with
    | native call => exact HostFunction.orderly_of_aloof rfl (offered call rfl)
    | callFunction => exact HostFunction.orderly_of_callFunction rfl
  links module name type signature guest _ _ := HostFunction.orderly_of_guest rfl
  posix names := by
    refine (Posix.offers_typed names).mono fun module name type result handler offered => ?_
    rcases offered with ⟨call, listed, typed⟩ | typed | ⟨stub, -, -⟩
    · exact .answers listed typed.name_eq typed.backing_eq
    · exact .exits typed.backing_eq
    · exact HostFunction.orderly_of_stub stub
  managed names := by
    refine (Managed.offers_typed names).mono fun module name type result handler offered => ?_
    rcases offered with typed | typed | ⟨stub, -⟩
    · exact HostFunction.orderly_of_aloof typed.backing_eq (Call.aloof_pure _)
    · exact HostFunction.orderly_of_aloof typed.backing_eq Managed.aloof_write
    · exact HostFunction.orderly_of_stub stub

/-! ## The process at the start -/

/-- A process that has opened nothing by itself yet. -/
structure Posix.Process.Fresh (p : Posix.Process) : Prop where
  next_eq : p.next = Posix.firstOpened
  standard : ∀ d, p.isOpen d = true → d ≤ 2

namespace Posix.Process

variable {p : Posix.Process}

theorem fresh_unbound : unbound.Fresh := ⟨rfl, fun d opened => by cases opened⟩

theorem Fresh.withFile (h : p.Fresh) {d : Nat} (standard : d ≤ 2) (file : File) :
    (p.withFile d file).Fresh where
  next_eq := h.next_eq
  standard e opened := by
    rcases (isOpen_withFile p d e file).mp opened with rfl | before
    · exact standard
    · exact h.standard e before

theorem Fresh.bind (h : p.Fresh) (registry : Exchange.Registry) (invocation : Invocation)
    (arguments : List String) : (p.bind registry invocation arguments).Fresh :=
  keeps_bind ⟨h.next_eq, h.standard⟩ (fun _ _ h => h.withFile (by decide) _)
    (fun _ _ h => h.withFile (by decide) _) (fun _ h => h.withFile (by decide) _) registry invocation

theorem Fresh.start (h : p.Fresh) : p.start.Fresh := by
  unfold Posix.Process.start
  split
  · exact ⟨h.next_eq, h.standard⟩
  · exact h

theorem Fresh.numbered (h : p.Fresh) : p.Numbered :=
  ⟨Nat.le_of_eq h.next_eq.symm, fun d opened => .inl (h.standard d opened)⟩

theorem Numbered.start (h : p.Numbered) : p.start.Numbered := by
  unfold Posix.Process.start
  split
  · exact ⟨h.first_le, h.range⟩
  · exact h

theorem file?_start (p : Posix.Process) (d : Nat) : p.start.file? d = p.file? d := by
  unfold Posix.Process.start
  split <;> rfl

end Posix.Process

namespace Sandbox

variable {platform : Platform} {context : Context} {w : World} {s : Sandbox} {invoke : Invoke}
  {p q r : Posix.Process} {row row' : List HostCall}

theorem fresh_processOf (h : p.Fresh) (module : String) :
    (Resolver.processOf platform context w p module).Fresh := by
  unfold Resolver.processOf
  cases Resolver.first? platform context w module with
  | none => exact h
  | some resolver =>
    cases resolver with
    | posix => exact h.bind _ _ _
    | _ => exact h

theorem fresh_foldl (h : p.Fresh) (entries : List (String × Table String Wasm.FuncType)) :
    (entries.foldl (fun p e => Resolver.processOf platform context w p e.1) p).Fresh := by
  induction entries generalizing p with
  | nil => exact h
  | cons e rest ih => exact ih (fresh_processOf h e.1)

/-- The process of a guest that has been prepared is what settling the modules it imports leaves. -/
theorem process_of_prepare (prepared : ((prepare platform context).run w).1 = .ok s) :
    ∃ imports, Imports.ofModule s.program = .ok imports ∧ Resolver.OnlyFunctions s.program ∧
      s.process =
        imports.entries.foldl
          (fun p e => Resolver.processOf platform context w p e.1) .unbound := by
  obtain ⟨reaches, -⟩ := reaches_of_prepare prepared
  obtain ⟨imports, collected⟩ := Imports.collect_isOk_iff.mpr reaches.functions
  refine ⟨imports, collected, reaches.functions, ?_⟩
  rw [Resolver.run_prepare reaches collected] at prepared
  revert prepared
  cases imports.entries.mapM fun e => Resolver.settled platform context w e.1 e.2 with
  | error e => exact fun failed => nomatch failed
  | ok linkers => exact fun made => (congrArg Sandbox.process (Except.ok.inj made)).symm

/-- **A guest that has been prepared has a fresh process.** -/
theorem fresh_of_prepare (prepared : ((prepare platform context).run w).1 = .ok s) :
    s.process.Fresh := by
  obtain ⟨imports, -, -, process⟩ := process_of_prepare prepared
  rw [process]
  exact fresh_foldl fresh_unbound imports.entries

/-! ## The process along a run -/

/-- Each host call of a row finds the process that the one before it has left, the first of them
`p`, and the last leaves `q`. -/
def Handed (invoke : Invoke) : Posix.Process → List HostCall → Posix.Process → Prop
  | p, [], q => q = p
  | p, c :: rest, q => c.site.process = p ∧ Handed invoke (c.after invoke).process rest q

theorem Handed.append (first : Handed invoke p row q) (second : Handed invoke q row' r) :
    Handed invoke p (row ++ row') r := by
  induction row generalizing p with
  | nil => exact first ▸ second
  | cons c rest ih => exact ⟨first.1, ih first.2⟩

/-- The guest's own code has no part in its process. -/
theorem handed_drive (invoke : Invoke) (s : Sandbox) (fuel : Nat) (machine : Wasm.Machine)
    (around : Surroundings) :
    Handed invoke around.process (callsDrive invoke s fuel machine around)
      ((drive invoke s fuel machine).run around).2.process := by
  induction fuel generalizing machine around with
  | zero => rfl
  | succ fuel ih =>
    cases step : machine.step with
    | running next =>
      simp only [callsDrive, drive, step]
      exact ih next around
    | finished results memory =>
      simp only [callsDrive, drive, step]
      rfl
    | trapped trap =>
      simp only [callsDrive, drive, step]
      rfl
    | calling index arguments next =>
      rw [run_drive_calling around step]
      simp only [callsDrive, step, callAt]
      cases called : s.called? index with
      | none =>
        have stopped : (hostCall invoke s index arguments next.memory).run around =
            (.error (.fatal (.machine .unreachable)), around) := by
          simp only [hostCall, called]
          rfl
        rw [stopped]
        rfl
      | some f =>
        have left : ((hostCall invoke s index arguments next.memory).run around).2.process =
            (HostCall.after invoke ⟨f, s.site arguments next.memory around⟩).process := by
          unfold hostCall HostCall.after
          simp only [called, run_bind, run_get]
          obtain ⟨outcome, site⟩ := (f.call invoke).run (s.site arguments next.memory around)
          cases outcome <;> rfl
        revert left
        obtain ⟨out, after⟩ := (hostCall invoke s index arguments next.memory).run around
        intro left
        cases out with
        | error e => exact ⟨rfl, left⟩
        | ok come =>
          refine ⟨rfl, ?_⟩
          rw [← left]
          exact ih _ after

theorem handed_instantiate (invoke : Invoke) (s : Sandbox) (fuel : Nat) (around : Surroundings) :
    Handed invoke around.process (callsStart invoke s fuel around)
      ((instantiate invoke s fuel).run around).2.process := by
  unfold instantiate callsStart
  cases s.loaded with
  | error cause => rfl
  | ok memory =>
    cases s.program.start with
    | none => rfl
    | some index => exact handed_drive _ _ _ _ around

theorem handed_callEntry (invoke : Invoke) (s : Sandbox) (fuel : Nat) (around : Surroundings) :
    Handed invoke around.process (callsEntry invoke s fuel around)
      ((callEntry invoke s fuel).run around).2.process := by
  have start := handed_instantiate invoke s fuel around
  unfold callsEntry callEntry
  simp only [run_bind]
  revert start
  obtain ⟨outcome, mid⟩ := (instantiate invoke s fuel).run around
  intro start
  refine start.append ?_
  cases outcome with
  | error e => rfl
  | ok rest =>
    dsimp only
    cases s.entry rest.memory with
    | error e => rfl
    | ok machine =>
      have driven := handed_drive invoke s rest.fuel machine mid
      simp only [run_bind]
      revert driven
      obtain ⟨outcome, after⟩ := (drive invoke s rest.fuel machine).run mid
      cases outcome <;> exact id

/-- **The process of a run is handed from one host call to the next.** -/
theorem handed_calls (invoke : Invoke) (limit : Option Nat) (s : Sandbox) (world : World) :
    ∃ q, Handed invoke s.process.start (s.calls invoke limit world) q :=
  ⟨_, handed_callEntry invoke s (limit.getD unlimited) (s.surroundings world)⟩

namespace Handed

/-- **What every host call leaves standing stands at each of them.** -/
theorem keeps {I : Posix.Process → Prop} (handed : Handed invoke p row q)
    (each : ∀ c ∈ row, I c.site.process → I (c.after invoke).process) (h : I p) :
    ∀ c ∈ row, I c.site.process := by
  induction row generalizing p with
  | nil => exact fun c never => absurd never List.not_mem_nil
  | cons c rest ih =>
    obtain ⟨rfl, handed⟩ := handed
    obtain ⟨first, each⟩ := List.forall_mem_cons.mp each
    exact List.forall_mem_cons.mpr ⟨h, ih handed each (first h)⟩

/-- **How every host call changes the process is how any number of them change it**: what one of
them leaves and what a later one finds are so related. -/
theorem pairwise {R : Posix.Process → Posix.Process → Prop} (refl : ∀ p, R p p)
    (trans : ∀ {p q r}, R p q → R q r → R p r) (handed : Handed invoke p row q)
    (each : ∀ c ∈ row, R c.site.process (c.after invoke).process) :
    row.Pairwise fun c c' => R (c.after invoke).process c'.site.process := by
  induction row generalizing p with
  | nil => exact .nil
  | cons c rest ih =>
    obtain ⟨-, handed⟩ := handed
    have each := (List.forall_mem_cons.mp each).2
    refine .cons ?_ (ih handed each)
    exact handed.keeps (fun c' mem before => trans before (each c' mem)) (refl _)

end Handed

/-- **What a host call of a guest can do to its process.** -/
theorem becomes_of_prepared (aloof : platform.Aloof)
    (prepared : ((prepare platform context).run w).1 = .ok s) {limit : Option Nat} {world : World}
    {c : HostCall} (made : c ∈ s.calls invoke limit world) :
    Becomes c.site.process (c.after invoke).process := by
  obtain ⟨around, ⟨index, called⟩, -⟩ := (goes_callEntry _ _ _ _).makes made
  exact (offered_called (Platform.offers_orderly aloof) prepared called).becomes invoke c.site

end Sandbox

end GuestHost
