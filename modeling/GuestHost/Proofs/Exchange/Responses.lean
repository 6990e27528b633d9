import GuestHost.Proofs.Exchange.Headers
import GuestHost.Proofs.Exchange.Places
/-!
# What a response collects

A response takes proper headers while it has room, three-digit status codes and bytes; what it
refuses changes nothing, `Use.run_refused`. What it has collected is told by the operations that it
has accepted, `Collects`: all bytes, the last status, and the last value for each name. One operation
keeps that, `Collects.run`, and so any row of them does. Operations reach a response through its
handle, while that is live, or by whoever holds on to it, so whatever becomes of the handle, the
response is what the operations have made of it that reached its place: `collects_accepted`.
-/

namespace GuestHost

namespace Exchange

/-! ## One operation -/

namespace Use

/-- Whether an operation is one that responses carry out. -/
def proper : Use → Bool
  | setHeader name value =>
    Header.isName (Utf8.encode name) && Header.isValue (Utf8.encode value)
  | writeStatusCode status => 100 ≤ status && status ≤ 999
  | write _ => true
  | close => true
  | header _ => true
  | read => false
  | headersCount => false
  | headers => false
  | statusCode => false

/-- The bytes that an operation writes. -/
def written : Use → Bytes
  | write content => content
  | _ => []

/-- The status that an operation sets. -/
def status? : Use → Option Nat
  | writeStatusCode status => some status
  | _ => none

/-- The header that an operation sets, its name in lower case. -/
def set? : Use → Option (String × Bytes)
  | setHeader name value => some (Header.fold name, Utf8.encode value)
  | _ => none

/-- Whether a response carries an operation out: it is proper and, if it sets a header, there is
room. -/
def accepted (r : ResponseBuffer) (use : Use) : Bool :=
  use.proper && (use.set?.isNone || decide (r.headers.size < ResponseBuffer.capacity))

theorem accepts_of_accepted {r : ResponseBuffer} {name value : String} :
    (setHeader name value).accepted r = true ↔ (Buffer.response r).Accepts name value := by
  simp only [accepted, proper, set?, Option.isNone_some, Bool.false_or, Bool.and_eq_true,
    decide_eq_true_eq, Buffer.Accepts, Buffer.response.injEq, forall_eq', and_assoc]

/-- **An operation that a response refuses changes nothing.** -/
theorem run_refused {use : Use} {r : ResponseBuffer} (refused : use.accepted r = false) :
    ∃ e, use.run (.response r) = (.error e, .response r) := by
  cases use with
  | setHeader name value =>
    rcases (Buffer.response r).setHeader_spec name value with ⟨accepts, -⟩ | ⟨-, failed⟩
    · cases refused.symm.trans (accepts_of_accepted.mpr accepts)
    · exact failed
  | writeStatusCode status =>
    have outside : ¬ (100 ≤ status ∧ status ≤ 999) := by
      simpa only [accepted, proper, set?, Option.isNone_none, Bool.true_or, Bool.and_true,
        Bool.and_eq_false_iff, decide_eq_false_iff_not, ← not_and_or] using refused
    exact ⟨_, if_neg outside⟩
  | write | close | header => cases refused
  | read | headersCount | headers | statusCode => exact ⟨_, rfl⟩

end Use

/-- The operations of a row that a response accepts. -/
def Buffer.taken : Buffer → List Use → List Use
  | _, [] => []
  | .response r, use :: rest =>
    (if use.accepted r then [use] else []) ++ taken (use.run (.response r)).2 rest
  | _, _ :: _ => []

/-- A response has collected what is accepted with operations. -/
structure Collects (uses : List Use) (r : ResponseBuffer) : Prop where
  content_eq : r.content = uses.flatMap Use.written
  status_eq : r.status = (uses.filterMap Use.status?).getLast?.getD 200
  header_eq : ∀ name, r.headers.find? name = (uses.filterMap Use.set?).reverse.lookup name

theorem collects_nil : Collects [] .blank := ⟨rfl, rfl, fun _ => rfl⟩

/-- **One more operation is collected** if its bytes come behind those that there are and its status
and its header take the place of those before. -/
theorem Collects.snoc {uses : List Use} {r r' : ResponseBuffer} {use : Use} (h : Collects uses r)
    (content : r'.content = r.content ++ use.written) (status : r'.status = use.status?.getD r.status)
    (header : ∀ name, r'.headers.find? name =
      (use.set?.toList.lookup name).or (r.headers.find? name)) : Collects (uses ++ [use]) r' where
  content_eq := by
    rw [content, h.content_eq, List.flatMap_append, List.flatMap_singleton]
  status_eq := by
    rw [status, h.status_eq, List.filterMap_append]
    cases told : use.status? with
    | none => simp [told]
    | some status => simp [told]
  header_eq name := by
    rw [header, h.header_eq, List.filterMap_append, List.reverse_append, List.lookup_append]
    cases told : use.set? <;> simp [told]

/-- **An operation that a response accepts is collected.** -/
theorem Collects.run {uses : List Use} {r : ResponseBuffer} (h : Collects uses r) {use : Use}
    (accepted : use.accepted r = true) :
    ∃ r', use.run (.response r) = (.ok (), .response r') ∧ Collects (uses ++ [use]) r' ∧
      r'.headers.size ≤ r.headers.size + use.set?.toList.length := by
  cases use with
  | setHeader name value =>
    refine ⟨_, Buffer.setHeader_response (Use.accepts_of_accepted.mp accepted),
      h.snoc (List.append_nil _).symm rfl fun key => ?_, Table.size_insert_le _ _ _⟩
    rw [Table.find?_insert, Use.set?, Option.toList_some, List.lookup_cons]
    by_cases same : key = Header.fold name
    · simp [same]
    · simp [same, beq_eq_false_iff_ne.mpr same]
  | writeStatusCode status =>
    have inside : 100 ≤ status ∧ status ≤ 999 := by
      simpa [Use.accepted, Use.proper, Use.set?] using accepted
    exact ⟨_, if_pos inside, h.snoc (List.append_nil _).symm rfl fun _ => rfl, Nat.le_refl _⟩
  | write content => exact ⟨_, rfl, h.snoc rfl rfl fun _ => rfl, Nat.le_refl _⟩
  | close | header =>
    exact ⟨_, rfl, h.snoc (List.append_nil _).symm rfl fun _ => rfl, Nat.le_refl _⟩
  | read | headersCount | headers | statusCode => cases accepted

/-- **A response has collected what it has accepted.** -/
theorem Collects.after {uses : List Use} {r : ResponseBuffer} (h : Collects uses r)
    (later : List Use) :
    ∃ r', (Buffer.response r).after later = .response r' ∧
      Collects (uses ++ (Buffer.response r).taken later) r' := by
  -- what has been collected so far carries the induction on what is still to come
  induction later generalizing uses r with
  | nil => exact ⟨r, rfl, by rwa [Buffer.taken, List.append_nil]⟩
  | cons use rest ih =>
    rw [Buffer.after, List.foldl_cons, ← Buffer.after, Buffer.taken]
    cases taken : use.accepted r with
    | true =>
      obtain ⟨r', run, collected, -⟩ := h.run taken
      rw [run, if_pos rfl, ← List.append_assoc]
      exact ih collected
    | false =>
      obtain ⟨e, run⟩ := Use.run_refused taken
      rw [run, if_neg Bool.false_ne_true]
      exact ih h

/-- **A response that does not run out of room accepts all that is proper.** -/
theorem Collects.taken_eq {uses : List Use} {r : ResponseBuffer} (h : Collects uses r)
    {later : List Use}
    (few : r.headers.size + (later.filterMap Use.set?).length ≤ ResponseBuffer.capacity) :
    (Buffer.response r).taken later = later.filter Use.proper := by
  induction later generalizing uses r with
  | nil => rfl
  | cons use rest ih =>
    have count : ((use :: rest).filterMap Use.set?).length =
        use.set?.toList.length + (rest.filterMap Use.set?).length := by
      rw [List.filterMap_cons]
      cases use.set? with
      | none => exact (Nat.zero_add _).symm
      | some header => exact Nat.add_comm _ 1
    have same : use.accepted r = use.proper := by
      unfold Use.accepted
      cases set : use.set? with
      | none => simp
      | some header =>
        have room : r.headers.size < ResponseBuffer.capacity := by
          rw [set] at count
          simp only [Option.toList_some, List.length_singleton] at count
          omega
        simp [room]
    rw [Buffer.taken, List.filter_cons, ← same]
    cases taken : use.accepted r with
    | true =>
      obtain ⟨r', run, collected, size⟩ := h.run taken
      rw [run, if_pos rfl, if_pos rfl, ih collected (by omega), List.singleton_append]
    | false =>
      obtain ⟨e, run⟩ := Use.run_refused taken
      rw [run, if_neg Bool.false_ne_true, if_neg Bool.false_ne_true, ih h (by omega),
        List.nil_append]

/-! ## Histories -/

/-- What hosts and guests do with a registry. A buffer is used through a handle, or directly by
somebody who holds on to its place. -/
inductive Deed where
  | register (buffer : Buffer)
  | release (handle : Nat)
  | through (handle : Nat) (use : Use)
  | directly (place : Place) (use : Use)

namespace Deed

/-- A registry after a deed. -/
def run (r : Registry) : Deed → Registry
  | register buffer => r.register buffer
  | release handle => r.release handle
  | through handle use => (r.use handle fun b => use.run b).2
  | directly place use => (r.useAt place fun b => use.run b).2

/-- The operation by which a deed reaches the buffer at a place. -/
def reaching (r : Registry) (place : Place) : Deed → List Use
  | register _ => []
  | release _ => []
  | through handle use => if r.place? handle = some place then [use] else []
  | directly other use => if other = place then [use] else []

end Deed

namespace Registry

variable {r : Registry} {place : Place} {b : Buffer}

/-- A registry after deeds, one after the other. -/
def afterDeeds (r : Registry) (deeds : List Deed) : Registry :=
  deeds.foldl (fun r deed => deed.run r) r

/-- The operations by which deeds reach the buffer at a place. -/
def reached (place : Place) : Registry → List Deed → List Use
  | _, [] => []
  | r, deed :: rest => deed.reaching r place ++ reached place (deed.run r) rest

theorem at?_useAt (held : r.at? place = some b) (other : Place) (use : Use) :
    (r.useAt other fun b => use.run b).2.at? place =
      some (b.after (if other = place then [use] else [])) := by
  by_cases same : other = place
  · subst same
    rw [if_pos rfl, useAt_of_at? held]
    exact at?_put_self held _
  · rw [if_neg same, at?_useAt_of_ne (Ne.symm same)]
    exact held

/-- **A deed does to the buffer at a place what reaches it.** -/
theorem at?_deed (held : r.at? place = some b) (deed : Deed) :
    (deed.run r).at? place = some (b.after (deed.reaching r place)) := by
  cases deed with
  | register buffer => exact at?_register_of_at? held buffer
  | release handle =>
    rw [Deed.run, at?, buffers_release]
    exact held
  | through handle use =>
    rw [Deed.run, Deed.reaching, Registry.use]
    cases r.place? handle with
    | none => exact held
    | some other => simpa only [Option.some.injEq] using at?_useAt held other use
  | directly other use => exact at?_useAt held other use

/-- **Deeds do to the buffer at a place what reaches it**, one after the other. -/
theorem at?_afterDeeds (held : r.at? place = some b) (deeds : List Deed) :
    (r.afterDeeds deeds).at? place = some (b.after (r.reached place deeds)) := by
  induction deeds generalizing r b with
  | nil => exact held
  | cons deed rest ih =>
    rw [reached, Buffer.after, List.foldl_append]
    exact ih (at?_deed held deed)

end Registry

/-- **A response is what has been accepted.** Whatever hosts and guests do behind its registration,
it has all bytes that were written, the last status that was accepted, or 200, and for each name in
lower case the last value that was accepted; it does not matter whether its handle is still live. At
each time it refuses what it does not accept, which changes nothing. It accepts what is proper, as
long as it has not been given more headers than it has room for. -/
theorem collects_accepted (r : Registry) (deeds : List Deed) :
    let place := r.buffers.size
    let start := r.register (.response .blank)
    ∃ response, (start.afterDeeds deeds).at? place = some (.response response) ∧
      Collects ((Buffer.response .blank).taken (start.reached place deeds)) response ∧
      (((start.reached place deeds).filterMap Use.set?).length ≤ ResponseBuffer.capacity →
        (Buffer.response .blank).taken (start.reached place deeds) =
          (start.reached place deeds).filter Use.proper) ∧
      ∀ use : Use, if use.accepted response then (use.run (.response response)).1 = .ok ()
        else ∃ e, use.run (.response response) = (.error e, .response response) := by
  intro place start
  have held : start.at? place = some (.response .blank) := by
    simp [start, place, Registry.at?, Registry.register]
  obtain ⟨response, collected, collects⟩ :=
    collects_nil.after (start.reached place deeds)
  refine ⟨response, ?_, collects, fun few => collects_nil.taken_eq ?_, fun use => ?_⟩
  · rw [Registry.at?_afterDeeds held, collected]
  · exact Nat.le_trans (Nat.le_of_eq (Nat.zero_add _)) few
  · split
    · rename_i taken
      obtain ⟨r', run, -⟩ := collects.run taken
      rw [run]
    · rename_i refused
      exact Use.run_refused (Bool.eq_false_iff.mpr refused)

end Exchange

end GuestHost
