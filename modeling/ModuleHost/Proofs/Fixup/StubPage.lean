import Mathlib.Data.List.Induction
import Mathlib.Data.List.Nodup
import ModuleHost.Host.Linking
import ModuleHost.Proofs.Endian
import ModuleHost.Proofs.Fixup.Stub
import ModuleHost.Proofs.Memory

namespace ModuleHost
namespace Fixup

/-!
# Stubs put into memory one by one

A table of stubs keeps nothing but their targets: where a stub stands and what bytes it has
follow from its position, and the bytes are written when the module has been linked.  Here
each stub is written to its page as soon as it is asked for, and its address is kept.  The
two never differ, in what they answer or in what they leave in memory.
-/

/-- A page of stubs and the memory that it lies in. -/
structure StubPage (machine : Machine) (base : Address) where
  /-- The targets with the addresses of their stubs, in the order in which these were made. -/
  entries : List (Word × Address) := []
  memory : Memory

namespace StubTable

/-- The table after it has been asked for a stub, whatever came of it. -/
def asked (table : StubTable) (target : Word) : StubTable :=
  match table.stubFor target with
  | .ok (after, _) => after
  | .error _ => table

def askedAll (table : StubTable) (calls : List Word) : StubTable :=
  calls.foldl asked table

end StubTable

namespace StubPage

variable {machine : Machine} {base : Address}

/-- The targets that have stubs. -/
def targets (page : StubPage machine base) : List Word :=
  page.entries.map Prod.fst

/-- What a table keeps of the page. -/
def table (page : StubPage machine base) : StubTable where
  machine := machine
  base := base
  targets := page.targets

/-- The page with one more stub. -/
def withStub (page : StubPage machine base) (target : Word) (address : Address) :
    StubPage machine base where
  entries := page.entries ++ [(target, address)]
  memory := page.memory.write address (stubBytes machine target)

/-- Ask for the stub of a target: the one that stands in the page, or else a new one behind
the others, if there is room for it. -/
def ask (page : StubPage machine base) (target : Word) :
    StubPage machine base × Except FixupError Address :=
  match page.entries.find? fun entry => entry.1 = target with
  | some entry => (page, .ok entry.2)
  | none =>
    if pageSize / stubSize machine ≤ page.entries.length then (page, .error .stubsExhausted)
    else
      let address := base + page.entries.length * stubSize machine
      (page.withStub target address, .ok address)

/-- Ask for one stub after another, whatever comes of it. -/
def askAll (page : StubPage machine base) (calls : List Word) : StubPage machine base :=
  calls.foldl (fun page target => (page.ask target).1) page

theorem length_targets (page : StubPage machine base) :
    page.targets.length = page.entries.length :=
  List.length_map _

theorem targets_withStub (page : StubPage machine base) (target : Word) (address : Address) :
    (page.withStub target address).targets = page.targets ++ [target] :=
  List.map_append

theorem table_withStub (page : StubPage machine base) (target : Word) (address : Address) :
    (page.withStub target address).table = page.table.withMore [target] := by
  rw [table, targets_withStub]
  rfl

/-! ## One stub -/

section Asking

variable {page : StubPage machine base} {target : Word}

theorem ask_of_listed (listed : target ∈ page.targets) :
    ∃ address, (target, address) ∈ page.entries ∧ page.ask target = (page, .ok address) := by
  cases found : page.entries.find? fun entry => entry.1 = target with
  | none =>
      rcases List.mem_map.mp listed with ⟨entry, known, same⟩
      exact absurd (decide_eq_true same) (List.find?_eq_none.mp found entry known)
  | some entry =>
      have same : entry.1 = target := by simpa using List.find?_some found
      refine ⟨entry.2, same ▸ List.mem_of_find?_eq_some found, ?_⟩
      rw [ask, found]

theorem find?_of_new (new : target ∉ page.targets) :
    (page.entries.find? fun entry => entry.1 = target) = none := by
  refine List.find?_eq_none.mpr fun entry known same => new ?_
  exact List.mem_map.mpr ⟨entry, known, of_decide_eq_true same⟩

theorem ask_of_new (new : target ∉ page.targets)
    (room : page.entries.length < pageSize / stubSize machine) :
    page.ask target = (page.withStub target (page.table.addressOf page.entries.length),
      .ok (page.table.addressOf page.entries.length)) := by
  rw [ask, find?_of_new new]
  exact if_neg (Nat.not_le_of_lt room)

theorem ask_of_full (new : target ∉ page.targets)
    (full : pageSize / stubSize machine ≤ page.entries.length) :
    page.ask target = (page, .error .stubsExhausted) := by
  rw [ask, find?_of_new new]
  exact if_pos full

/-- What comes of asking for a stub. -/
inductive Answers (page : StubPage machine base) (target : Word) :
    StubPage machine base × Except FixupError Address → Prop
  | found {address : Address} (known : (target, address) ∈ page.entries) :
      Answers page target (page, .ok address)
  | added (new : target ∉ page.targets)
      (room : page.entries.length < pageSize / stubSize machine) :
      Answers page target (page.withStub target (page.table.addressOf page.entries.length),
        .ok (page.table.addressOf page.entries.length))
  | refused (new : target ∉ page.targets)
      (full : pageSize / stubSize machine ≤ page.entries.length) :
      Answers page target (page, .error .stubsExhausted)

theorem answers_ask (page : StubPage machine base) (target : Word) :
    page.Answers target (page.ask target) := by
  by_cases listed : target ∈ page.targets
  · rcases ask_of_listed listed with ⟨address, known, asked⟩
    rw [asked]
    exact .found known
  · rcases Nat.lt_or_ge page.entries.length (pageSize / stubSize machine) with room | full
    · rw [ask_of_new listed room]
      exact .added listed room
    · rw [ask_of_full listed full]
      exact .refused listed full

theorem of_ask_error {error : FixupError} (failed : (page.ask target).2 = .error error) :
    error = .stubsExhausted ∧ target ∉ page.targets ∧
      pageSize / stubSize machine ≤ page.entries.length := by
  have answers := page.answers_ask target
  generalize page.ask target = answer at answers failed
  cases answers with
  | found known => cases failed
  | added new room => cases failed
  | refused new full =>
      cases failed
      exact ⟨rfl, new, full⟩

end Asking

/-! ## The stubs of a page -/

/-- The stubs of the page, where `before` was the memory that they were written to: each at
its position, no two for one target, no more than the page holds, and nothing else. -/
structure Sound (before : Memory) (page : StubPage machine base) : Prop where
  placed : page.entries =
    page.targets.mapIdx fun index target => (target, page.table.addressOf index)
  nodup : page.targets.Nodup
  fits : page.table.Fits
  memory_eq : page.memory = before.write base page.table.bytes

variable {before : Memory} {page : StubPage machine base}

theorem sound_empty (memory : Memory) : Sound memory ({ memory } : StubPage machine base) where
  placed := rfl
  nodup := List.nodup_nil
  fits := Nat.zero_le _
  memory_eq := (memory.write_nil base).symm

theorem Sound.withStub (sound : page.Sound before) {target : Word}
    (new : target ∉ page.targets) (room : page.entries.length < pageSize / stubSize machine) :
    (page.withStub target (page.table.addressOf page.entries.length)).Sound before := by
  refine ⟨?_, ?_, ?_, ?_⟩
  · rw [targets_withStub, List.mapIdx_concat, length_targets]
    exact congrArg (· ++ [_]) sound.placed
  · rw [targets_withStub]
    exact sound.nodup.append (List.nodup_singleton _) (List.disjoint_singleton.mpr new)
  · rw [table_withStub]
    exact StubTable.fits_withMore (page.length_targets ▸ room)
  -- The new stub begins where the bytes of the others end.
  · have behind : page.table.addressOf page.entries.length = base + page.table.bytes.length := by
      rw [StubTable.length_bytes, ← page.length_targets]
      rfl
    rw [table_withStub, StubTable.bytes_withMore, Memory.write_append, ← sound.memory_eq, ← behind,
      List.flatMap_singleton]
    rfl

theorem Sound.ask (sound : page.Sound before) (target : Word) :
    (page.ask target).1.Sound before := by
  have answers := page.answers_ask target
  generalize page.ask target = answer at answers
  cases answers with
  | found known => exact sound
  | added new room => exact sound.withStub new room
  | refused new full => exact sound

/-- Whatever is asked for. -/
theorem Sound.askAll (sound : page.Sound before) (calls : List Word) :
    (page.askAll calls).Sound before := by
  induction calls generalizing page with
  | nil => exact sound
  | cons target rest later => exact later (sound.ask target)

/-! ## The order of the stubs -/

/-- Putting a value behind the first different ones, unless there are enough of them. -/
theorem take_eraseDups_concat {α : Type} [DecidableEq α] (count : Nat) (values : List α)
    (value : α) : (values ++ [value]).eraseDups.take count =
      if value ∈ values.eraseDups.take count ∨ count ≤ (values.eraseDups.take count).length then
        values.eraseDups.take count
      else values.eraseDups.take count ++ [value] := by
  rw [List.eraseDups_append, List.length_take]
  by_cases seen : value ∈ values
  · have nothing : [value].removeAll values = [] := by simp [List.removeAll, seen]
    have settled : value ∈ values.eraseDups.take count ∨
        count ≤ min count values.eraseDups.length := by
      rw [← List.mem_eraseDups, ← List.take_append_drop count values.eraseDups,
        List.mem_append] at seen
      refine seen.imp_right fun late => ?_
      have further := List.length_pos_of_mem late
      rw [List.length_drop] at further
      omega
    rw [nothing, List.eraseDups_nil, List.append_nil, if_pos settled]
  · have single : ([value].removeAll values).eraseDups = [value] := by
      have kept : [value].removeAll values = [value] := by simp [List.removeAll, seen]
      rw [kept, List.eraseDups_cons, List.filter_nil, List.eraseDups_nil]
    have new : value ∉ values.eraseDups.take count := fun early =>
      seen (List.mem_eraseDups.mp (List.mem_of_mem_take early))
    rw [single]
    by_cases full : count ≤ values.eraseDups.length
    · rw [List.take_append_of_le_length full, if_pos (.inr (by omega))]
    · have short : values.eraseDups.length < count := Nat.lt_of_not_le full
      rw [if_neg (not_or.mpr ⟨new, by omega⟩), List.take_of_length_le (Nat.le_of_lt short),
        List.take_of_length_le (by simpa using Nat.succ_le_of_lt short)]

theorem targets_ask (page : StubPage machine base) (target : Word) :
    (page.ask target).1.targets =
      if target ∈ page.targets ∨ pageSize / stubSize machine ≤ page.targets.length then
        page.targets
      else page.targets ++ [target] := by
  have answers := page.answers_ask target
  generalize page.ask target = answer at answers
  rw [length_targets]
  cases answers with
  | found known => rw [if_pos (.inl (List.mem_map_of_mem known))]
  | added new room =>
      rw [if_neg (not_or.mpr ⟨new, Nat.not_le_of_lt room⟩)]
      exact page.targets_withStub target _
  | refused new full => rw [if_pos (.inr full)]

/-- One stub for each target, in the order in which the targets were first asked for, and no
more of them than the page holds. -/
theorem targets_askAll (memory : Memory) (calls : List Word) :
    (({ memory } : StubPage machine base).askAll calls).targets =
      calls.eraseDups.take (pageSize / stubSize machine) := by
  induction calls using List.reverseRecOn with
  | nil => rw [List.eraseDups_nil, List.take_nil]; rfl
  | append_singleton calls target earlier =>
      rw [take_eraseDups_concat, ← earlier, ← targets_ask, askAll, List.foldl_append]
      rfl

/-! ## What stands in memory -/

/-- The stub of a target has a place of its own in the page. -/
theorem Sound.stands (sound : page.Sound before) {index : Nat} {target : Word} {address : Address}
    (found : page.entries[index]? = some (target, address)) :
    page.targets[index]? = some target ∧ address = page.table.addressOf index ∧
      address + stubSize machine ≤ base + pageSize := by
  rw [sound.placed, List.getElem?_mapIdx, Option.map_eq_some_iff] at found
  rcases found with ⟨listed, found, same⟩
  rcases Prod.mk.inj same with ⟨rfl, rfl⟩
  have bounded := (List.getElem?_eq_some_iff.mp found).1
  exact ⟨found, rfl, StubTable.addressOf_add_le (Nat.lt_of_lt_of_le bounded sound.fits)⟩

theorem Sound.read_stub (sound : page.Sound before) {index : Nat} {target : Word}
    {address : Address} (found : page.entries[index]? = some (target, address)) :
    page.memory.read address (stubSize machine) = stubBytes machine target := by
  rcases sound.stands found with ⟨listed, rfl, _⟩
  have placed : page.table.targets[index]? = some target := listed
  rcases StubTable.slice_bytes placed with ⟨within, bytes⟩
  rw [sound.memory_eq]
  exact (Memory.read_write before base page.table.bytes within).trans bytes

theorem Sound.read_literal (sound : page.Sound before) {index : Nat} {target : Word}
    {address : Address} (found : page.entries[index]? = some (target, address)) :
    Endian.value (page.memory.read (address + literalOffset machine) 8) = target.toNat := by
  have within : literalOffset machine + 8 ≤ stubSize machine := by cases machine <;> decide
  rw [← Memory.slice_read _ _ within, sound.read_stub found, slice_literal,
    Endian.value_bytes, Nat.mod_eq_of_lt (show target.toNat < 256 ^ 8 from target.isLt)]

/-- A table that is asked answers alike. -/
theorem Sound.stubFor_eq (sound : page.Sound before) (target : Word) :
    page.table.stubFor target =
      (page.ask target).2.map fun address => ((page.ask target).1.table, address) := by
  have answers := page.answers_ask target
  generalize page.ask target = answer at answers
  cases answers with
  | found known =>
      rcases List.getElem?_of_mem known with ⟨index, found⟩
      rcases sound.stands found with ⟨listed, same, _⟩
      rw [StubTable.stubFor_of_known sound.nodup listed, ← same]
      rfl
  | added new room =>
      rw [← page.length_targets] at room
      rw [StubTable.stubFor_of_new new room, ← page.length_targets, Except.map, table_withStub]
      rfl
  | refused new full =>
      rw [← page.length_targets] at full
      exact StubTable.stubFor_of_full new full

theorem Sound.asked_eq (sound : page.Sound before) (target : Word) :
    page.table.asked target = (page.ask target).1.table := by
  have answers := page.answers_ask target
  rw [StubTable.asked, sound.stubFor_eq]
  generalize page.ask target = answer at answers
  cases answers with
  | found known => rfl
  | added new room => rfl
  | refused new full => rfl

theorem Sound.askedAll_eq (sound : page.Sound before) (calls : List Word) :
    page.table.askedAll calls = (page.askAll calls).table := by
  induction calls generalizing page with
  | nil => rfl
  | cons target rest later =>
      rw [StubTable.askedAll, List.foldl_cons, sound.asked_eq]
      exact later (sound.ask target)

/-- A target has one stub. -/
theorem Sound.ask_of_known (sound : page.Sound before) {target : Word} {address : Address}
    (known : (target, address) ∈ page.entries) : page.ask target = (page, .ok address) := by
  rcases ask_of_listed (List.mem_map_of_mem known) with ⟨other, known', asked⟩
  have same := List.inj_on_of_nodup_map sound.nodup known known' rfl
  rw [asked, (Prod.mk.inj same).2]

/-! ## Pages at any time -/

/-- A page at any time: `calls` are the targets that it has been asked for, and `before` is
the memory that its stubs were written to. -/
structure LaidOut (before : Memory) (calls : List Word) (page : StubPage machine base) :
    Prop where
  /-- There is one stub for each target, in the order in which the targets were first asked
  for, as far as there is room. -/
  targets_eq : page.targets = calls.eraseDups.take (pageSize / stubSize machine)
  distinct : page.targets.Nodup
  length_le : page.entries.length ≤ pageSize / stubSize machine
  /-- The stubs lie one behind the other, wholly in the page. -/
  placed : ∀ index target address, page.entries[index]? = some (target, address) →
    address = base + index * stubSize machine ∧ address + stubSize machine ≤ base + pageSize
  /-- They are what was written, and their literals are their targets. -/
  stubs : ∀ target address, (target, address) ∈ page.entries →
    page.memory.read address (stubSize machine) = stubBytes machine target ∧
    Endian.value (page.memory.read (address + literalOffset machine) 8) = target.toNat ∧
    (machine ≠ .x86_64 → (address + literalOffset machine) % 8 = 0)
  /-- No other byte was written. -/
  untouched : ∀ address,
    address < base ∨ base + page.entries.length * stubSize machine ≤ address →
    page.memory.byteAt address = before.byteAt address
  /-- A target that has a stub is given that one, whether there is room or not. -/
  known : ∀ target address, (target, address) ∈ page.entries →
    page.ask target = (page, .ok address)
  /-- A new target is given the next stub, if there is room. -/
  new : ∀ target, target ∉ page.targets → page.entries.length < pageSize / stubSize machine →
    page.ask target =
      (page.withStub target (base + page.entries.length * stubSize machine),
        .ok (base + page.entries.length * stubSize machine))
  /-- A new target is refused if there is none, and nothing changes. -/
  refuses : ∀ target error, (page.ask target).2 = .error error ↔
    error = .stubsExhausted ∧ target ∉ page.targets ∧
      page.entries.length = pageSize / stubSize machine
  refused : ∀ target error, (page.ask target).2 = .error error → (page.ask target).1 = page
  /-- A table that keeps nothing but the targets comes to the same targets and answers, -/
  table_eq : ({ machine, base } : StubTable).askedAll calls = page.table
  answers : ∀ target, page.table.stubFor target =
    (page.ask target).2.map fun address => ((page.ask target).1.table, address)
  /-- and when its stubs are written at the end, that leaves the same memory. -/
  linked : ∀ host : Host, host.memory = before →
    (Linking.writeStubs ⟨host, { stubs := some page.table }⟩).memory = page.memory

theorem Sound.laidOut (sound : page.Sound before) {calls : List Word}
    (targets_eq : page.targets = calls.eraseDups.take (pageSize / stubSize machine))
    (table_eq : ({ machine, base } : StubTable).askedAll calls = page.table)
    (aligned : base % pageSize = 0) : page.LaidOut before calls where
  targets_eq := targets_eq
  distinct := sound.nodup
  length_le := page.length_targets ▸ sound.fits
  placed index target address found := (sound.stands found).2
  stubs target address known := by
    rcases List.getElem?_of_mem known with ⟨index, found⟩
    refine ⟨sound.read_stub found, sound.read_literal found, fun rounded => ?_⟩
    have whole : literalOffset machine % 8 = 0 := by
      cases machine with
      | x86_64 => exact absurd rfl rounded
      | aarch64 => rfl
      | riscv => rfl
    have aligned : page.table.base % pageSize = 0 := aligned
    rw [(sound.stands found).2.1, Nat.add_mod, whole, StubTable.addressOf_mod_eight aligned]
  untouched address outside := by
    have length : page.table.bytes.length = page.entries.length * stubSize machine := by
      rw [StubTable.length_bytes, ← length_targets]
      rfl
    rw [sound.memory_eq, Memory.byteAt_write, length, if_neg]
    lia
  known target address known := sound.ask_of_known known
  new target new room := ask_of_new new room
  refuses target error := by
    constructor
    · intro failed
      rcases of_ask_error failed with ⟨same, new, full⟩
      exact ⟨same, new, Nat.le_antisymm (page.length_targets ▸ sound.fits) full⟩
    · rintro ⟨rfl, new, full⟩
      rw [ask_of_full new (Nat.le_of_eq full.symm)]
  refused target error failed := by
    rcases of_ask_error failed with ⟨_, new, full⟩
    rw [ask_of_full new full]
  table_eq := table_eq
  answers := sound.stubFor_eq
  linked host same := by
    rw [sound.memory_eq, ← same]
    rfl

/-- Whatever stubs are asked for, a page holds one for each target, as many as fit, one behind
the other and each as it was written, and goes on giving them out. -/
theorem stubs_laid_out (machine : Machine) {base : Address} (aligned : base % pageSize = 0)
    (memory : Memory) (calls : List Word) :
    (({ memory } : StubPage machine base).askAll calls).LaidOut memory calls := by
  have sound : Sound memory ({ memory } : StubPage machine base) := sound_empty memory
  exact (sound.askAll calls).laidOut (targets_askAll memory calls) (sound.askedAll_eq calls)
    aligned

/-- A target that is asked for twice, and another one in between. -/
theorem stubs_laid_out_again :
    0xFFFFFFFFA0005000 % pageSize = 0 ∧
    (({ memory := .filled 0xcc } : StubPage .riscv 0xFFFFFFFFA0005000).askAll
      [0xFFFFFFFF80001000, 0xFFFFFFFF80002000, 0xFFFFFFFF80001000]).LaidOut (.filled 0xcc)
        [0xFFFFFFFF80001000, 0xFFFFFFFF80002000, 0xFFFFFFFF80001000] ∧
    (({ memory := .filled 0xcc } : StubPage .riscv 0xFFFFFFFFA0005000).askAll
      [0xFFFFFFFF80001000, 0xFFFFFFFF80002000, 0xFFFFFFFF80001000]).entries =
        [(0xFFFFFFFF80001000, 0xFFFFFFFFA0005000), (0xFFFFFFFF80002000, 0xFFFFFFFFA0005018)] :=
  ⟨by decide, stubs_laid_out .riscv (by decide) _ _, by decide⟩

end StubPage

end Fixup
end ModuleHost
