import ModuleHost.Proofs.Fixup.CallSite
import ModuleHost.Proofs.Fixup.Requests

namespace ModuleHost
namespace Fixup

/-!
# Calls reach their targets

A call that was patched goes straight to its target if its instructions span the way, and
to a stub in the page of stubs otherwise; the stub goes on to the target.  Nothing that is
patched afterwards changes that, unless it covers the call itself.
-/

/-- The form of a machine's calls. -/
def callForm : Machine → Form
  | .x86_64 => .call32
  | .aarch64 => .branch26
  | .riscv => .callPair

/-- The displacements that a machine's calls span. -/
def Spans : Machine → Word → Prop
  | .x86_64, displacement => -2 ^ 31 ≤ displacement.toInt ∧ displacement.toInt < 2 ^ 31
  | .aarch64, displacement => -2 ^ 27 ≤ displacement.toInt ∧ displacement.toInt < 2 ^ 27
  | .riscv, displacement =>
    -2 ^ 31 ≤ (displacement + 0x800#64).toInt ∧ (displacement + 0x800#64).toInt < 2 ^ 31

/-- What a call's fixup relies on at its place.  The instructions are those that the field
belongs to.  The register of a RISC-V pair is one that can be written. -/
def CallSite (memory : Memory) (fixup : Fixup) : Machine → Prop
  | .x86_64 => True
  | .aarch64 =>
    fixup.place.toNat % 4 = 0 ∧ (fixup.symbol + fixup.addend).toNat % 4 = 0 ∧
      ∃ link offset, decodeAArch64? (fetch memory fixup.place) = some (.branch link offset)
  | .riscv =>
    (fixup.symbol + fixup.addend).toNat % 2 = 0 ∧
      ∃ register destination high low, register ≠ zeroRegister .riscv ∧
        decodeRiscv? (fetch memory fixup.place) = some (.addUpper register high) ∧
        decodeRiscv? (fetch memory (fixup.place + 4#64)) =
          some (.jumpRegister destination register low)

/-- Where a call lands: on its target if its instructions span the displacement, else on a
stub of the page.  Either way control reaches the target. -/
structure Lands (machine : Machine) (memory : Memory) (page : Range)
    (displacement target landing : Word) : Prop where
  near : Spans machine displacement → landing = target
  far : ¬Spans machine displacement → StubAt machine memory page target landing
  reaches : ∀ cpu : Cpu, cpu.pc = landing → Reaches machine memory page target cpu

/-- The call at a fixup's place transfers control as it should.  On x86-64 the addend makes up
for the distance from the field to the end of the instruction, which the fixup does not tell;
it is minus four where the instruction ends with the field, as a relative call does. -/
def Transfers (memory : Memory) (page : Range) (fixup : Fixup) : Machine → Prop
  | .x86_64 =>
    ∃ landing,
      fetch memory fixup.place = (landing + fixup.addend - fixup.place).setWidth 32 ∧
      Spans .x86_64 (landing + fixup.addend - fixup.place) ∧
      Lands .x86_64 memory page (fixup.symbol + fixup.addend - fixup.place) fixup.symbol landing ∧
      (fixup.addend = -4#64 → ∀ cpu : Cpu, cpu.pc = fixup.place - 1#64 →
        (fetchByte memory cpu.pc = 0xe8 ∨ fetchByte memory cpu.pc = 0xe9) →
        ∃ landed, steps? .x86_64 memory 1 cpu = some landed ∧ landed.pc = landing)
  | .aarch64 =>
    ∀ cpu : Cpu, cpu.pc = fixup.place →
      ∃ landed, steps? .aarch64 memory 1 cpu = some landed ∧
        Lands .aarch64 memory page (fixup.symbol + fixup.addend - fixup.place)
          (fixup.symbol + fixup.addend) landed.pc
  | .riscv =>
    ∀ cpu : Cpu, cpu.pc = fixup.place →
      ∃ landed, steps? .riscv memory 2 cpu = some landed ∧
        Lands .riscv memory page (fixup.symbol + fixup.addend - fixup.place)
          (fixup.symbol + fixup.addend) landed.pc

/-- A target is aligned like the place where its call lands, which may be a stub. -/
theorem Lands.aligned {machine : Machine} {memory : Memory} {page : Range}
    {displacement target landing : Word}
    (lands : Lands machine memory page displacement target landing) {unit : Nat}
    (divides : unit ∣ 8) (aligned : target.toNat % unit = 0) : landing.toNat % unit = 0 := by
  by_cases within : Spans machine displacement
  · rw [lands.near within]
    exact aligned
  · have eight := Nat.dvd_of_mod_eq_zero (lands.far within).aligned
    exact Nat.mod_eq_zero_of_dvd (Nat.dvd_trans divides eight)

/-! ## The stubs of a setting -/

/-- A stub that leads to a target is there, and jumps to it. -/
theorem Setting.Stands.stubAt {table : StubTable} {setting : Setting}
    (stands : Stands table setting) (aligned : table.base % pageSize = 0)
    (bounded : table.base + pageSize ≤ addressLimit) {target stub : Word}
    (leading : setting.linkage.Leads target stub) :
    StubAt table.machine setting.memory table.range target stub := by
  rcases leading with ⟨table', index, stubs, found, rfl⟩
  rw [stands.stubs] at stubs
  rcases Option.some.inj stubs
  rcases StubTable.slice_bytes found with ⟨inside, bytes⟩
  have room := Nat.le_trans inside (StubTable.length_bytes_le stands.fits)
  have positive : 0 < stubSize table.machine := by cases table.machine <;> decide
  have address : (BitVec.ofNat 64 (table.addressOf index)).toNat =
      table.base + index * stubSize table.machine := by
    rw [BitVec.toNat_ofNat, StubTable.addressOf, Nat.mod_eq_of_lt]
    exact Nat.lt_of_lt_of_le (by lia) bounded
  constructor
  · rw [address, ← Memory.slice_read _ _ inside, stands.bytes, bytes]
  · rw [address]
    exact Nat.le_add_right _ _
  · rw [address, Nat.add_assoc]
    exact Nat.add_le_add_left room _
  · exact bounded
  · rw [address]
    exact StubTable.addressOf_mod_eight aligned index

theorem StubAt.reaches {machine : Machine} {memory : Memory} {page : Range} {target stub : Word}
    (at_ : StubAt machine memory page target stub)
    (even : machine = .riscv → target.toNat % 2 = 0) {cpu : Cpu} (here : cpu.pc = stub) :
    Reaches machine memory page target cpu := by
  cases machine with
  | x86_64 => exact at_.reaches_x86_64 here
  | aarch64 => exact at_.reaches_aarch64 here
  | riscv => exact at_.reaches_riscv (even rfl) here

/-! ## One call -/

/-- A displacement that was found leads to its destination or to a stub. -/
theorem Displacement.landing {jumps : Word → Word → Prop} {fits : Word → Bool}
    {destination bias place value : Word}
    (reaching : Displacement jumps fits destination bias place value) :
    ∃ landing, value = landing + bias - place ∧ fits value = true ∧
      (fits (destination + bias - place) = true → landing = destination) ∧
      (fits (destination + bias - place) = false → jumps destination landing) := by
  cases reaching with
  | direct fitting =>
      exact ⟨destination, rfl, fitting, fun _ => rfl, fun far => absurd fitting (by simp [far])⟩
  | detour stub far leading fitting =>
      exact ⟨stub, rfl, fitting, fun near => absurd near (by simp [far]), fun _ => leading⟩

theorem Displacement.landing_unbiased {jumps : Word → Word → Prop} {fits : Word → Bool}
    {destination place value : Word}
    (reaching : Displacement jumps fits destination 0 place value) :
    ∃ landing, value = landing - place ∧ fits value = true ∧
      (fits (destination - place) = true → landing = destination) ∧
      (fits (destination - place) = false → jumps destination landing) := by
  have unbiased (address : Word) : address + 0 - place = address - place := by grind
  simpa only [unbiased] using reaching.landing

section Calling

variable {memory before : Memory} {page : Range} {fixup : Fixup} {field : Field}
variable {leads upper : Word → Word → Prop}

/-- The checks that are made of displacements are those of the instructions' range. -/
theorem spans_x86_64_iff (displacement : Word) :
    Spans .x86_64 displacement ↔ fitsSigned 32 displacement = true :=
  (fitsSigned_iff 32 displacement).symm

theorem spans_aarch64_iff (displacement : Word) :
    Spans .aarch64 displacement ↔ fitsSigned 28 displacement = true :=
  (fitsSigned_iff 28 displacement).symm

theorem spans_riscv_iff (displacement : Word) :
    Spans .riscv displacement ↔ fitsHighLow displacement = true :=
  (fitsSigned_iff 32 (displacement + 0x800#64)).symm

/-- What is found for a displacement is where the call is to land. -/
theorem lands_of_landing {machine : Machine} {displacement target landing : Word}
    {fits : Word → Bool} (spans : Spans machine displacement ↔ fits displacement = true)
    (stubs : ∀ target stub, leads target stub → StubAt machine memory page target stub)
    (even : machine = .riscv → target.toNat % 2 = 0)
    (near : fits displacement = true → landing = target)
    (far : fits displacement = false → leads target landing) :
    Lands machine memory page displacement target landing := by
  refine ⟨fun within => near (spans.mp within), fun beyond => ?_, fun cpu here => ?_⟩
  · exact stubs _ _ (far (Bool.eq_false_iff.mpr (mt spans.mpr beyond)))
  · cases fitting : fits displacement with
    | true => exact .arrived cpu (here.trans (near fitting))
    | false => exact (stubs _ _ (far fitting)).reaches even here

theorem transfers_x86_64
    (prescribes : Prescribes leads upper fixup.symbol fixup.addend fixup.place .call32 field)
    (holds : field.Holds (before.read fixup.place.toNat 4) (memory.read fixup.place.toNat 4))
    (stubs : ∀ target stub, leads target stub → StubAt .x86_64 memory page target stub) :
    Transfers memory page fixup .x86_64 := by
  cases prescribes with
  | call32 value reaching =>
      rcases reaching.landing with ⟨landing, rfl, fits, near, far⟩
      have written : fetch memory fixup.place =
          (landing + fixup.addend - fixup.place).setWidth 32 := by
        apply BitVec.eq_of_toNat_eq
        rw [fetch, BitVec.toNat_ofNat, holds.2, BitVec.toNat_setWidth]
        exact Nat.mod_mod _ _
      refine ⟨landing, written, (spans_x86_64_iff _).mpr fits,
        lands_of_landing (spans_x86_64_iff _) stubs (by simp) near far, ?_⟩
      intro addend cpu here calls
      rcases steps?_call calls with ⟨landed, steps, lands⟩
      have field : cpu.pc + 1 = fixup.place := by
        rw [here]
        exact BitVec.sub_add_cancel _ _
      rw [field, written, signExtend_setWidth (by decide) (by decide) fits, here, addend] at lands
      exact ⟨landed, steps, lands.trans (by grind)⟩

theorem transfers_aarch64
    (prescribes : Prescribes leads upper fixup.symbol fixup.addend fixup.place .branch26 field)
    (holds : field.Holds (before.read fixup.place.toNat 4) (memory.read fixup.place.toNat 4))
    (stubs : ∀ target stub, leads target stub → StubAt .aarch64 memory page target stub)
    (site : CallSite before fixup .aarch64) : Transfers memory page fixup .aarch64 := by
  rcases site with ⟨aligned, targetAligned, link, offset, branches⟩
  cases prescribes with
  | branch26 value reaching =>
      rcases reaching.landing_unbiased with ⟨landing, rfl, fits, near, far⟩
      have lands := lands_of_landing (spans_aarch64_iff _) stubs (by simp) near far
      have landingAligned := lands.aligned (show 4 ∣ 8 by decide) targetAligned
      have decoded := decodeAArch64?_of_encodes holds branches fits (by bv_omega)
      intro cpu here
      rw [← here] at decoded aligned
      rcases steps?_branch aligned decoded with ⟨landed, steps, goes⟩
      have arrived : landed.pc = landing := goes.trans (by grind)
      exact ⟨landed, steps, arrived ▸ lands⟩

theorem transfers_riscv
    (prescribes : Prescribes leads upper fixup.symbol fixup.addend fixup.place .callPair field)
    (holds : field.Holds (before.read fixup.place.toNat 8) (memory.read fixup.place.toNat 8))
    (bounded : fixup.place.toNat + 8 ≤ addressLimit)
    (stubs : ∀ target stub, leads target stub → StubAt .riscv memory page target stub)
    (site : CallSite before fixup .riscv) : Transfers memory page fixup .riscv := by
  rcases site with ⟨even, register, destination, high, low, written, adds, jumps⟩
  cases prescribes with
  | callPair value reaching =>
      rcases reaching.landing_unbiased with ⟨landing, rfl, fits, near, far⟩
      have lands := lands_of_landing (spans_riscv_iff _) stubs (fun _ => even) near far
      have landingEven := lands.aligned (show 2 ∣ 8 by decide) even
      have second : (fixup.place + 4#64).toNat = fixup.place.toNat + 4 := by
        simp only [addressLimit] at bounded
        bv_omega
      have front (memory : Memory) :
          instructionOf ((memory.read fixup.place.toNat 8).take 4) = fetch memory fixup.place := by
        rw [show 8 = 4 + 4 from rfl, Memory.read_add, List.take_left' (Memory.length_read _ _ _)]
        rfl
      have back (memory : Memory) : instructionOf ((memory.read fixup.place.toNat 8).drop 4) =
          fetch memory (fixup.place + 4#64) := by
        rw [show 8 = 4 + 4 from rfl, Memory.read_add, List.drop_left' (Memory.length_read _ _ _),
          fetch, second]
        rfl
      rw [Field.Holds, front, front, back, back] at holds
      have added := decodeRiscv?_of_encodes_high holds.1 adds
      have jumped := decodeRiscv?_of_encodes_low holds.2 jumps
      intro cpu here
      rw [← here] at added jumped fits
      rcases steps?_callPair written added jumped with ⟨landed, steps, goes⟩
      have arrived : landed.pc = landing := by
        have there : cpu.pc + (landing - cpu.pc) = landing := by
          rw [BitVec.add_comm, BitVec.sub_add_cancel]
        rw [goes, BitVec.add_assoc, high_add_low fits, there, and_not_one_eq_self landingEven]
      exact ⟨landed, steps, arrived ▸ lands⟩

/-- The calls of a machine, in one form each. -/
theorem callForm_of_isCall {machine : Machine} {kind : UInt32}
    (call : isCall machine kind = true) :
    Form.ofKind? machine kind = some (callForm machine) := by
  have listed : ∀ entry ∈ Form.table machine,
      entry.2.isCall = true → entry.2 = callForm machine := by
    cases machine <;> decide
  unfold isCall at call
  cases known : Form.ofKind? machine kind with
  | none =>
      rw [known] at call
      cases call
  | some form =>
      rw [known] at call
      rcases Option.map_eq_some_iff.mp known with ⟨entry, found, rfl⟩
      rw [listed entry (List.mem_of_find?_eq_some found) call]

/-- A call's place holds the field of the machine's call. -/
theorem transfers_of_prescribes {machine : Machine}
    (prescribes : Prescribes leads upper fixup.symbol fixup.addend fixup.place
      (callForm machine) field)
    (holds : field.Holds (before.read fixup.place.toNat (callForm machine).width)
      (memory.read fixup.place.toNat (callForm machine).width))
    (bounded : fixup.place.toNat + (callForm machine).width ≤ addressLimit)
    (stubs : ∀ target stub, leads target stub → StubAt machine memory page target stub)
    (site : CallSite before fixup machine) : Transfers memory page fixup machine := by
  cases machine with
  | x86_64 => exact transfers_x86_64 prescribes holds stubs
  | aarch64 => exact transfers_aarch64 prescribes holds stubs site
  | riscv => exact transfers_riscv prescribes holds bounded stubs site

end Calling

/-! ## Calls in memory -/

section InMemory

variable {table : StubTable} {setting : Setting} {request : Request} {later : List Request}

/-- The place of a call holds its field, until something covers it. -/
theorem Setting.Stands.field_of_call (stands : Setting.Stands table setting)
    (misses : ∀ other ∈ request :: later, Misses other.area table.range)
    (call : isCall request.machine request.fixup.kind = true)
    (located : request.fixup.place.toNat = request.area.start + request.fixup.offset)
    (succeeds : (setting.apply request).2 = .ok ())
    (spared : Setting.Spares request.covered (setting.apply request).1 later) :
    ∃ field, request.fixup.offset + (callForm request.machine).width ≤ request.area.size ∧
      Prescribes (setting.apply request).1.linkage.Leads (setting.apply request).1.linkage.Upper
        request.fixup.symbol request.fixup.addend request.fixup.place
        (callForm request.machine) field ∧
      field.Holds
        (setting.memory.read request.fixup.place.toNat (callForm request.machine).width)
        (((setting.apply request).1.run later).memory.read request.fixup.place.toNat
          (callForm request.machine).width) := by
  have form := callForm_of_isCall call
  have missesHere := misses request List.mem_cons_self
  rcases Setting.applied_of_apply succeeds with ⟨linkage, contents, applied, after⟩
  rcases apply_eq_ok applied with ⟨length, -, held, -⟩
  rcases held.of_form form with ⟨field, inside, prescribes, holds⟩
  rw [Memory.length_read] at inside length
  have within : request.fixup.offset + (callForm request.machine).width ≤ request.area.size := by
    refine inside.resolve_left ?_
    cases request.machine <;> decide
  refine ⟨field, within, by rw [after]; exact prescribes, ?_⟩
  rw [Memory.slice_read _ _ within] at holds
  have width : kindWidth request.machine request.fixup.kind = (callForm request.machine).width :=
    kindWidth_of_form form
  have left : ((setting.apply request).1.run later).memory.read request.fixup.place.toNat
      (callForm request.machine).width =
        Endian.slice contents request.fixup.offset (callForm request.machine).width := by
    rcases (stands.apply missesHere).stands with ⟨targets, stands'⟩
    have kept : ((setting.apply request).1.run later).memory.read request.fixup.place.toNat
        (callForm request.machine).width =
          (setting.apply request).1.memory.read request.fixup.place.toNat
            (callForm request.machine).width := by
      apply Memory.read_congr
      intro offset small
      have covered : request.covered.Has (request.fixup.place.toNat + offset) := by
        rw [located]
        refine ⟨Nat.le_add_right _ _, ?_⟩
        rw [Request.covered, width]
        exact Nat.add_lt_add_left small _
      refine Setting.byteAt_run stands' (fun other listed => ?_) spared covered ?_
      · exact misses other (List.mem_cons_of_mem _ listed)
      · refine missesHere _ ⟨?_, ?_⟩
        · rw [located, Nat.add_assoc]
          exact Nat.le_add_right _ _
        · rw [located]
          lia
    rw [kept, after, located]
    exact Memory.read_write _ _ _ (length ▸ within)
  rw [left, located]
  exact holds

/-- Whatever fixups were applied before a call, and whatever fixups are applied after it that
spare it, control gets from the call to its target.  No section contains a byte of the page
of stubs. -/
theorem call_transfers (memory : Memory) (base : Address) (earlier later : List Request)
    (request : Request) (before : Setting)
    (ran : (Setting.start request.machine base memory).run earlier = before)
    (aligned : base % pageSize = 0) (bounded : base + pageSize ≤ addressLimit)
    (misses : ∀ other ∈ earlier ++ request :: later, Misses other.area ⟨base, pageSize⟩)
    (ending : request.area.start + request.area.size ≤ addressLimit)
    (located : request.fixup.place.toNat = request.area.start + request.fixup.offset)
    (call : isCall request.machine request.fixup.kind = true)
    (site : CallSite before.memory request.fixup request.machine)
    (succeeds : (before.apply request).2 = .ok ())
    (spared : Setting.Spares request.covered (before.apply request).1 later) :
    Transfers ((before.apply request).1.run later).memory ⟨base, pageSize⟩ request.fixup
      request.machine := by
  rcases (Setting.stands_start request.machine base memory).run
    (fun other listed => misses other (List.mem_append_left _ listed)) with ⟨targets, stands, -⟩
  rw [ran] at stands
  have onward : ∀ other ∈ request :: later, Misses other.area ⟨base, pageSize⟩ :=
    fun other listed => misses other (List.mem_append_right _ listed)
  rcases stands.field_of_call onward call located succeeds spared
    with ⟨field, within, prescribes, holds⟩
  rcases (stands.apply (onward request List.mem_cons_self)).stands with ⟨added, stands'⟩
  rcases stands'.run (fun other listed => onward other (List.mem_cons_of_mem _ listed))
    with ⟨more, stands'', extension⟩
  refine transfers_of_prescribes prescribes holds ?_ (fun target stub leading => ?_) site
  · rw [located]
    lia
  · exact stands''.stubAt aligned bounded (extension.leads target stub leading)

/-- A far call, before and after which the branch behind it is patched. -/
theorem call_transfers_far :
    let request (offset : Nat) (place symbol : Word) : Request :=
      ⟨.aarch64, ⟨0x10000, 8⟩, { kind := 283, offset, place, symbol, addend := 0 }⟩
    let memory := (Memory.filled 0).write 0x10000 [0, 0, 0, 0x94, 0, 0, 0, 0x14]
    let before :=
      (Setting.start .aarch64 0x20000 memory).run [request 4 0x10004 0x7f0000000000]
    let after := (before.apply (request 0 0x10000 0x7f0000001000)).1.run
      [request 4 0x10004 0x7f0000002000]
    Transfers after.memory ⟨0x20000, pageSize⟩ (request 0 0x10000 0x7f0000001000).fixup
      .aarch64 := by
  intro request memory before after
  have apart (offset : Nat) (place symbol : Word) :
      Misses (request offset place symbol).area ⟨0x20000, pageSize⟩ :=
    fun address inside =>
      Range.Apart.not_has (Or.inl (show 0x10000 + 8 ≤ 0x20000 by decide)) inside
  have other : Misses (request 0 0x10000 0x7f0000001000).covered
      (request 4 0x10004 0x7f0000002000).covered :=
    fun address inside => Range.Apart.not_has (Or.inl (by decide)) inside
  refine call_transfers memory 0x20000 _ _ (request 0 0x10000 0x7f0000001000) before rfl
    (by decide) (by decide) ?_ (by decide) (by decide) (by decide)
    ⟨by decide, by decide, true, 0, by decide +kernel⟩ (by decide +kernel) ⟨Or.inl other, trivial⟩
  intro candidate listed
  simp only [List.cons_append, List.nil_append, List.mem_cons, List.not_mem_nil,
    or_false] at listed
  rcases listed with rfl | rfl | rfl <;> exact apart _ _ _

end InMemory

end Fixup
end ModuleHost
