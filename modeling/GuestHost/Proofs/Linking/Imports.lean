import GuestHost.Resolution
import Mathlib.Data.List.Basic
/-!
# What a guest imports

Imports are grouped by the module that they are imported from, in the order of the bytes of its
name, `Utf8.encode_lt_iff`, and within it by their own names. Of several declarations of one name
the last counts: `Imports.find?_ofModule`.
-/

namespace GuestHost

/-! ## The order of texts -/

namespace Utf8

/-- A character is encoded below a greater one, whatever follows the two. -/
theorem encodeChar_lt {c d : Char} (h : c < d) (rest more : Bytes) :
    String.utf8EncodeChar c ++ rest < String.utf8EncodeChar d ++ more := by
  have less : c.val.toNat < d.val.toNat := h
  have bound : d.val.toNat < 1114112 := by
    rcases d.valid with hd | hd <;> omega
  have third : ∀ n, n / 4096 = n / 64 / 64 := fun n => by omega
  have fourth : ∀ n, n / 262144 = n / 64 / 64 / 64 := fun n => by omega
  unfold String.utf8EncodeChar
  generalize c.val.toNat = m at less ⊢
  generalize d.val.toNat = n at less bound ⊢
  dsimp only
  -- one goal for each two widths; the digits of the two numbers are compared from the highest on
  repeat' split
  all_goals
    simp only [List.cons_append, List.nil_append, List.cons_lt_cons_iff, UInt8.lt_iff_toNat_lt,
      ← UInt8.toNat_inj, UInt8.toNat_ofNat', third, fourth]
    omega

theorem encode_eq_flatMap (s : String) :
    encode s = s.toList.flatMap String.utf8EncodeChar := by
  have bytes : s.toByteArray = s.toList.utf8Encode := by
    conv_lhs => rw [← String.ofList_toList (s := s), String.toByteArray_ofList]
  simp [encode, bytes, List.utf8Encode]

theorem encode_lt {s t : String} (h : s < t) : encode s < encode t := by
  rw [encode_eq_flatMap, encode_eq_flatMap]
  rw [String.lt_iff] at h
  revert h
  generalize s.toList = l
  generalize t.toList = m
  intro h
  change List.Lex (· < ·) l m at h
  induction h with
  | @nil c rest =>
    obtain ⟨b, bytes, hb⟩ := List.exists_cons_of_ne_nil (String.utf8EncodeChar_ne_nil (c := c))
    simp [hb]
  | rel h => exact encodeChar_lt h _ _
  | cons _ ih =>
    rw [List.flatMap_cons, List.flatMap_cons]
    exact List.append_left_lt ih

/-- **Texts are in the order of their bytes.** -/
theorem encode_lt_iff {s t : String} : encode s < encode t ↔ s < t := by
  refine ⟨fun h => ?_, encode_lt⟩
  by_contra ge
  by_cases less : t < s
  · exact KeyOrder.irrefl _ (KeyOrder.trans h (encode_lt less))
  · exact KeyOrder.irrefl _ (KeyOrder.connex ge less ▸ h)

end Utf8

/-! ## The imports of a module -/

namespace Imports

/-- The functions that declarations ask for from one module, name by name. -/
def declared (declarations : List Wasm.Import) (module : String) :
    List (String × Wasm.FuncType) :=
  declarations.filterMap fun i =>
    if i.module = module then i.type.map fun type => (i.name, type) else none

variable {declarations : List Wasm.Import} {imports collected : Imports} {module name : String}

theorem declared_cons {i : Wasm.Import} {type : Wasm.FuncType} (h : i.type = some type) :
    declared (i :: declarations) module =
      if i.module = module then (i.name, type) :: declared declarations module
      else declared declarations module := by
  unfold declared
  rw [List.filterMap_cons]
  by_cases own : i.module = module <;> simp [own, h]

theorem mem_declared {type : Wasm.FuncType} :
    (name, type) ∈ declared declarations module ↔
      ∃ i ∈ declarations, i.module = module ∧ i.name = name ∧ i.type = some type := by
  simp only [declared, List.mem_filterMap]
  refine exists_congr fun i => and_congr_right fun _ => ?_
  by_cases own : i.module = module <;> simp [own, and_comm]

/-- Declarations can be collected exactly if all of them are functions. -/
theorem collect_isOk_iff :
    (∃ collected, collect imports declarations = .ok collected) ↔
      ∀ i ∈ declarations, i.type.isSome := by
  induction declarations generalizing imports with
  | nil => simp [collect]
  | cons i rest ih =>
    unfold collect
    cases h : i.type with
    | none => simp [h]
    | some type => simp [h, ih]

/-- Collecting adds what is declared to the types of each module. -/
theorem find?_collect (h : collect imports declarations = .ok collected) (module : String) :
    collected.find? module =
      if declared declarations module = [] then imports.find? module
      else some ((declared declarations module).foldl (fun t e => t.insert e.1 e.2)
        ((imports.find? module).getD .empty)) := by
  induction declarations generalizing imports with
  | nil =>
    obtain rfl := Except.ok.inj h
    rfl
  | cons i rest ih =>
    unfold collect at h
    split at h
    · cases h
    · rename_i type function
      rw [ih h, declared_cons function, add, Table.find?_insert]
      by_cases own : i.module = module
      · subst own
        by_cases last : declared rest i.module = [] <;> simp [last]
      · simp [own, Ne.symm own]

/-- What is collected from a module is the table of what it declares, if it declares anything. -/
theorem find?_ofModule {program : Wasm.Module} (h : ofModule program = .ok collected)
    (module : String) :
    collected.find? module =
      if declared program.imports module = [] then none
      else some (.ofList (declared program.imports module)) :=
  find?_collect h module

end Imports

end GuestHost
