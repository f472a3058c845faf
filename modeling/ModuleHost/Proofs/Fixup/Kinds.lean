import ModuleHost.Proofs.Fixup.Prescription

namespace ModuleHost
namespace Fixup

/-!
# Relocation types by their numbers

Each processor's supplement to the object format numbers its relocation types.  Here are the
types that the host knows, by number, with the form that the supplement describes.  The
table that fixups are looked up in lists these and no others.
-/

/-- The type with a number on a machine asks for a form. -/
inductive StandsFor : Machine → UInt32 → Form → Prop
  | x86_64_none : StandsFor .x86_64 0 .nothing
  | x86_64_64 : StandsFor .x86_64 1 (.data64 false)
  | x86_64_pc32 : StandsFor .x86_64 2 (.data32 true .signed)
  | x86_64_plt32 : StandsFor .x86_64 4 .call32
  | x86_64_32 : StandsFor .x86_64 10 (.data32 false .unsigned)
  | x86_64_32s : StandsFor .x86_64 11 (.data32 false .signed)
  | x86_64_pc64 : StandsFor .x86_64 24 (.data64 true)
  | aarch64_none : StandsFor .aarch64 0 .nothing
  | aarch64_abs64 : StandsFor .aarch64 257 (.data64 false)
  | aarch64_abs32 : StandsFor .aarch64 258 (.data32 false .either)
  | aarch64_prel64 : StandsFor .aarch64 260 (.data64 true)
  | aarch64_prel32 : StandsFor .aarch64 261 (.data32 true .signed)
  | aarch64_adr_prel_pg_hi21 : StandsFor .aarch64 275 .page21
  | aarch64_add_abs_lo12_nc : StandsFor .aarch64 277 .pageOffsetAdd
  | aarch64_ldst8_abs_lo12_nc : StandsFor .aarch64 278 (.pageOffsetAccess 0)
  | aarch64_jump26 : StandsFor .aarch64 282 .branch26
  | aarch64_call26 : StandsFor .aarch64 283 .branch26
  | aarch64_ldst16_abs_lo12_nc : StandsFor .aarch64 284 (.pageOffsetAccess 1)
  | aarch64_ldst32_abs_lo12_nc : StandsFor .aarch64 285 (.pageOffsetAccess 2)
  | aarch64_ldst64_abs_lo12_nc : StandsFor .aarch64 286 (.pageOffsetAccess 3)
  | riscv_none : StandsFor .riscv 0 .nothing
  | riscv_32 : StandsFor .riscv 1 (.data32 false .either)
  | riscv_64 : StandsFor .riscv 2 (.data64 false)
  | riscv_branch : StandsFor .riscv 16 .branch12
  | riscv_jal : StandsFor .riscv 17 .jump20
  | riscv_call : StandsFor .riscv 18 .callPair
  | riscv_call_plt : StandsFor .riscv 19 .callPair
  | riscv_pcrel_hi20 : StandsFor .riscv 23 .relativeHigh20
  | riscv_pcrel_lo12_i : StandsFor .riscv 24 (.relativeLow12 .load)
  | riscv_pcrel_lo12_s : StandsFor .riscv 25 (.relativeLow12 .store)
  | riscv_hi20 : StandsFor .riscv 26 .high20
  | riscv_lo12_i : StandsFor .riscv 27 (.low12 .load)
  | riscv_lo12_s : StandsFor .riscv 28 (.low12 .store)
  | riscv_align : StandsFor .riscv 43 .nothing
  | riscv_relax : StandsFor .riscv 51 .nothing

variable {machine : Machine} {kind : UInt32} {form : Form}

theorem ofKind?_of_standsFor (known : StandsFor machine kind form) :
    Form.ofKind? machine kind = some form := by
  cases known <;> rfl

/-- Every entry of a machine's table is one of the types. -/
theorem standsFor_of_mem_table (machine : Machine) :
    ∀ entry ∈ Form.table machine, StandsFor machine entry.1 entry.2 := by
  cases machine <;> simp only [Form.table, List.forall_mem_cons] <;> repeat' constructor
  all_goals exact fun _ listed => absurd listed List.not_mem_nil

/-- The form that a fixup's type is looked up to is the one that its number stands for. -/
theorem standsFor_iff : StandsFor machine kind form ↔ Form.ofKind? machine kind = some form := by
  constructor
  · exact ofKind?_of_standsFor
  · intro known
    rcases Option.map_eq_some_iff.mp known with ⟨entry, found, rfl⟩
    have same : entry.1 = kind := by simpa using List.find?_some found
    exact same ▸ standsFor_of_mem_table machine entry (List.mem_of_find?_eq_some found)

instance (machine : Machine) (kind : UInt32) (form : Form) :
    Decidable (StandsFor machine kind form) :=
  decidable_of_iff _ standsFor_iff.symm

/-- How many bytes the type with a number patches on a machine. -/
def kindWidth : Machine → UInt32 → Nat
  | .x86_64, kind =>
    if kind ∈ [1, 24] then 8 else if kind ∈ [2, 4, 10, 11] then 4 else 0
  | .aarch64, kind =>
    if kind ∈ [257, 260] then 8
    else if kind ∈ [258, 261, 275, 277, 278, 282, 283, 284, 285, 286] then 4
    else 0
  | .riscv, kind =>
    if kind ∈ [2, 18, 19] then 8
    else if kind ∈ [1, 16, 17, 23, 24, 25, 26, 27, 28] then 4
    else 0

theorem kindWidth_of_form (known : Form.ofKind? machine kind = some form) :
    kindWidth machine kind = form.width := by
  cases standsFor_iff.mpr known <;> rfl

end Fixup
end ModuleHost
