import Mathlib.Algebra.GroupWithZero.Nat
import Mathlib.Data.List.Perm.Basic
import ModuleHost.Arena
import ModuleHost.Proofs.Page

namespace ModuleHost

/-!
# Leases on the arena

A lease is a range that a window has handed out and not taken back.  The arena itself
remembers only its cursors and what came back; `Leased` relates it to the list of all
leases there are: they lie below the cursor of their window, no two of them share a
page, none has been released, and in each window the pages handed out are those
released and those on lease.

Allocation adds a lease, and the end of any lease is accepted.
-/

namespace Range

/-- Two ranges have no address in common. -/
def Apart (left right : Range) : Prop :=
  left.start + left.size ≤ right.start ∨ right.start + right.size ≤ left.start

theorem Apart.symm {left right : Range} (apart : Apart left right) : Apart right left :=
  Or.symm apart

theorem meets_eq_false_iff (left right : Range) : left.meets right = false ↔ Apart left right := by
  unfold meets Apart
  rw [Bool.and_eq_false_iff, decide_eq_false_iff_not, decide_eq_false_iff_not]
  lia

theorem any_meets_eq_false_iff {range : Range} {others : List Range} :
    others.any range.meets = false ↔ ∀ other ∈ others, Apart range other := by
  simp only [List.any_eq_false, Bool.not_eq_true, meets_eq_false_iff]

/-- The whole pages that a range is rounded up to. -/
def pages (range : Range) : Range :=
  ⟨range.start, wholePages range.size⟩

end Range

namespace Window

/-- A window inside the address space whose released ranges lie among the pages it has
handed out. -/
structure Sound (window : Window) : Prop where
  base_aligned : window.base % pageSize = 0
  size_aligned : window.size % pageSize = 0
  bounded : window.base + window.size < addressLimit
  cursor_aligned : window.cursor % pageSize = 0
  cursor_le : window.cursor ≤ window.size
  released_inside : ∀ range ∈ window.released, range.start % pageSize = 0 ∧
    range.size % pageSize = 0 ∧ window.base ≤ range.start ∧
    range.start + range.size ≤ window.base + window.cursor
  released_apart : window.released.Pairwise Range.Apart
  released_total : window.releasedBytes = (window.released.map Range.size).sum

/-- Where a window lies. -/
def spec (window : Window) : WindowSpec :=
  ⟨window.base, window.size⟩

/-- Pages among those that a window has handed out. -/
structure Handed (window : Window) (pages : Range) : Prop where
  aligned : pages.start % pageSize = 0
  above : window.base ≤ pages.start
  below : pages.start + pages.size ≤ window.base + window.cursor

theorem Handed.advance {window : Window} {pages : Range} (handed : window.Handed pages)
    (count : Nat) : Handed { window with cursor := window.cursor + count } pages :=
  ⟨handed.aligned, handed.above,
    Nat.le_trans handed.below (Nat.add_le_add_left (Nat.le_add_right _ _) _)⟩

theorem Handed.within {window : Window} {pages : Range} (handed : window.Handed pages)
    (sound : window.Sound) : pages.start + pages.size ≤ window.base + window.size :=
  Nat.le_trans handed.below (Nat.add_le_add_left sound.cursor_le _)

theorem Handed.handedOut {window : Window} {pages : Range} (handed : window.Handed pages)
    (sound : window.Sound) : window.handedOut pages = true := by
  simp only [Window.handedOut, Bool.and_eq_true, decide_eq_true_eq]
  exact ⟨⟨handed.aligned, Nat.lt_of_le_of_lt (handed.within sound) sound.bounded⟩, handed.below⟩

/-- A window hands out the pages at its cursor. -/
theorem allocate?_eq_some {window after : Window} {size : Nat} {address : Address}
    (given : window.allocate? size = some (address, after)) :
    ∃ rounded, pagesFor? size = some rounded ∧ rounded ≤ window.remaining ∧
      address = window.base + window.cursor ∧
      after = { window with cursor := window.cursor + rounded } := by
  cases rounds : pagesFor? size with
  | none => simp [allocate?, rounds] at given
  | some rounded =>
      simp only [allocate?, rounds, Option.bind_eq_bind, Option.bind_some] at given
      split at given
      · next fits =>
          simp only [Option.some.injEq, Prod.mk.injEq] at given
          exact ⟨rounded, rfl, fits, given.1.symm, given.2.symm⟩
      · cases given

theorem Sound.advance {window : Window} (sound : window.Sound) {rounded : Nat}
    (whole : rounded % pageSize = 0) (fits : rounded ≤ window.remaining) :
    Sound { window with cursor := window.cursor + rounded } where
  base_aligned := sound.base_aligned
  size_aligned := sound.size_aligned
  bounded := sound.bounded
  cursor_aligned := by
    show (window.cursor + rounded) % pageSize = 0
    rw [Nat.add_mod, sound.cursor_aligned, whole]
    rfl
  cursor_le := by
    have within := sound.cursor_le
    simp only [remaining] at fits
    show window.cursor + rounded ≤ window.size
    omega
  released_inside range released := by
    have inside := sound.released_inside range released
    refine ⟨inside.1, inside.2.1, inside.2.2.1, Nat.le_trans inside.2.2.2 ?_⟩
    exact Nat.add_le_add_left (Nat.le_add_right _ _) window.base
  released_apart := sound.released_apart
  released_total := sound.released_total

theorem Sound.release {window : Window} (sound : window.Sound) {pages : Range}
    (whole : pages.size % pageSize = 0) (handed : window.Handed pages)
    (fresh : ∀ range ∈ window.released, Range.Apart pages range) :
    (window.release pages).Sound where
  base_aligned := sound.base_aligned
  size_aligned := sound.size_aligned
  bounded := sound.bounded
  cursor_aligned := sound.cursor_aligned
  cursor_le := sound.cursor_le
  released_inside range released := by
    rcases List.mem_cons.mp released with rfl | earlier
    · exact ⟨handed.aligned, whole, handed.above, handed.below⟩
    · exact sound.released_inside range earlier
  released_apart := List.pairwise_cons.mpr ⟨fresh, sound.released_apart⟩
  released_total := by
    simp only [Window.release, List.map_cons, List.sum_cons, sound.released_total]
    omega

theorem sound_ofSpec {spec : WindowSpec} (accepted : Arena.acceptable spec = true) :
    (ofSpec spec).Sound := by
  simp only [Arena.acceptable, Bool.and_eq_true, decide_eq_true_eq] at accepted
  rcases accepted with ⟨⟨⟨_, base⟩, size⟩, limit⟩
  exact ⟨base, size, limit, rfl, Nat.zero_le _, fun _ released => absurd released List.not_mem_nil,
    List.Pairwise.nil, rfl⟩

end Window

namespace Arena

/-! ## The two windows -/

@[simp] theorem window_setWindow_self (arena : Arena) (kind : WindowKind) (window : Window) :
    (arena.setWindow kind window).window kind = window := by
  cases kind <;> rfl

theorem window_setWindow_of_ne (arena : Arena) {kind other : WindowKind} (window : Window)
    (different : other ≠ kind) :
    (arena.setWindow kind window).window other = arena.window other := by
  cases kind <;> cases other <;> first | rfl | exact absurd rfl different

/-- What holds of the new window and of the other one holds of the windows of the arena
with the new window in place. -/
theorem forall_setWindow {motive : WindowKind → Window → Prop} (arena : Arena)
    {kind : WindowKind} {window : Window} (here : motive kind window)
    (others : ∀ other, other ≠ kind → motive other (arena.window other)) (other : WindowKind) :
    motive other ((arena.setWindow kind window).window other) := by
  by_cases same : other = kind
  · subst same
    rw [window_setWindow_self]
    exact here
  · rw [window_setWindow_of_ne arena window same]
    exact others other same

/-- Windows that are sound and have no address in common. -/
structure Sound (arena : Arena) : Prop where
  windows : ∀ kind, (arena.window kind).Sound
  apart : Range.Apart ⟨arena.text.base, arena.text.size⟩ ⟨arena.data.base, arena.data.size⟩

/-- Ranges in different windows have no address in common. -/
theorem Sound.apart_of_ne {arena : Arena} (sound : arena.Sound) {kind other : WindowKind}
    (different : kind ≠ other) {first second : Range}
    (above : (arena.window kind).base ≤ first.start)
    (below : first.start + first.size ≤ (arena.window kind).base + (arena.window kind).size)
    (above' : (arena.window other).base ≤ second.start)
    (below' : second.start + second.size ≤ (arena.window other).base + (arena.window other).size) :
    Range.Apart first second := by
  have windows := sound.apart
  unfold Range.Apart at windows ⊢
  simp only [] at windows
  cases kind <;> cases other
  · exact absurd rfl different
  · simp only [window] at above below above' below'
    lia
  · simp only [window] at above below above' below'
    lia
  · exact absurd rfl different

theorem Sound.windowAt? {arena : Arena} (sound : arena.Sound) {kind : WindowKind}
    {address : Address} (above : (arena.window kind).base ≤ address)
    (below : address < (arena.window kind).base + (arena.window kind).size) :
    arena.windowAt? address = some kind := by
  have windows := sound.apart
  unfold Range.Apart at windows
  cases kind with
  | text =>
      have inside : arena.text.contains address = true := by
        simp only [Window.contains, Bool.and_eq_true, decide_eq_true_eq]
        exact ⟨above, below⟩
      simp [Arena.windowAt?, window, inside]
  | data =>
      have inside : arena.data.contains address = true := by
        simp only [Window.contains, Bool.and_eq_true, decide_eq_true_eq]
        exact ⟨above, below⟩
      have outside : arena.text.contains address = false := by
        simp only [window] at above below
        simp only [Window.contains, Bool.and_eq_false_iff, decide_eq_false_iff_not]
        lia
      simp [Arena.windowAt?, window, inside, outside]

theorem sound_ofSpecs {text data : WindowSpec} {arena : Arena}
    (made : ofSpecs text data = .ok arena) :
    arena = ⟨.ofSpec text, .ofSpec data⟩ ∧ arena.Sound := by
  unfold ofSpecs at made
  cases first : acceptable text with
  | false => simp [first] at made
  | true =>
      cases second : acceptable data with
      | false => simp [first, second] at made
      | true =>
          cases meeting : (Range.mk text.base text.size).meets ⟨data.base, data.size⟩ with
          | true => simp [first, second, meeting] at made
          | false =>
              simp only [first, second, meeting, Bool.not_true, Bool.false_eq_true, if_false,
                Except.ok.injEq] at made
              subst made
              refine ⟨rfl, fun kind => ?_, (Range.meets_eq_false_iff _ _).mp meeting⟩
              cases kind
              · exact Window.sound_ofSpec first
              · exact Window.sound_ofSpec second

theorem Sound.setWindow {arena : Arena} (sound : arena.Sound) {kind : WindowKind} {window : Window}
    (here : window.Sound) (same : window.spec = (arena.window kind).spec) :
    (arena.setWindow kind window).Sound where
  windows := forall_setWindow (motive := fun _ window => window.Sound) arena here
    fun other _ => sound.windows other
  apart := by
    rw [Window.spec, Window.spec, WindowSpec.mk.injEq] at same
    cases kind
    · show Range.Apart ⟨window.base, window.size⟩ _
      rw [same.1, same.2]
      exact sound.apart
    · show Range.Apart _ ⟨window.base, window.size⟩
      rw [same.1, same.2]
      exact sound.apart

variable {arena after : Arena}

/-- A window hands out pages exactly when the rounded size is a word and fits. -/
theorem allocate_eq_ok_iff {size : Nat} {kind : WindowKind} {address : Address} :
    arena.allocate size kind = .ok (address, after) ↔
      (wholePages size < addressLimit ∧ wholePages size ≤ (arena.window kind).remaining) ∧
        address = (arena.window kind).base + (arena.window kind).cursor ∧
        after = arena.setWindow kind { arena.window kind with
          cursor := (arena.window kind).cursor + wholePages size } := by
  constructor
  · intro given
    unfold allocate at given
    cases handed : (arena.window kind).allocate? size with
    | none =>
        rw [handed] at given
        cases given
    | some result =>
        rcases Window.allocate?_eq_some handed with ⟨rounded, rounds, fits, start, window⟩
        rcases pagesFor?_eq_some_iff.mp rounds with ⟨rfl, word⟩
        rw [handed] at given
        simp only [Except.ok.injEq, Prod.mk.injEq] at given
        exact ⟨⟨word, fits⟩, given.1.symm.trans start, given.2.symm.trans (window ▸ rfl)⟩
  · intro given
    have rounds := pagesFor?_eq_some_iff.mpr ⟨rfl, given.1.1⟩
    have handed : (arena.window kind).allocate? size =
        some ((arena.window kind).base + (arena.window kind).cursor, { arena.window kind with
          cursor := (arena.window kind).cursor + wholePages size }) := by
      simp only [Window.allocate?, rounds, Option.bind_eq_bind, Option.bind_some, if_pos given.1.2]
    unfold allocate
    rw [handed, given.2.1, given.2.2]

theorem base_le_of_windowAt? {address : Address} {kind : WindowKind}
    (found : arena.windowAt? address = some kind) : (arena.window kind).base ≤ address := by
  have inside := List.find?_some found
  simp only [Window.contains, Bool.and_eq_true, decide_eq_true_eq] at inside
  exact inside.1

/-- A range is taken back exactly when its pages were handed out by one window and none of
them has come back to it. -/
theorem Sound.free_eq_ok_iff (sound : arena.Sound) {range : Range} :
    arena.free range = .ok after ↔
      ∃ kind, (arena.window kind).Handed range.pages ∧
        (∀ released ∈ (arena.window kind).released, Range.Apart range.pages released) ∧
        after = arena.setWindow kind ((arena.window kind).release range.pages) := by
  constructor
  · intro freed
    unfold free at freed
    split at freed
    · next kind rounded found rounds =>
        rcases pagesFor?_eq_some_iff.mp rounds with ⟨rfl, word⟩
        simp only at freed
        split at freed
        · cases freed
        · next handed =>
            split at freed
            · cases freed
            · next fresh =>
                simp only [Bool.not_eq_true', Bool.not_eq_false, Window.handedOut,
                  Bool.and_eq_true, decide_eq_true_eq] at handed
                exact ⟨kind, ⟨handed.1.1, base_le_of_windowAt? found, handed.2⟩,
                  Range.any_meets_eq_false_iff.mp (Bool.eq_false_iff.mpr fresh),
                  (Except.ok.inj freed).symm⟩
    · cases freed
  · rintro ⟨kind, handed, apart, rfl⟩
    have within := handed.within (sound.windows kind)
    have positive : 0 < wholePages range.size :=
      Nat.lt_of_lt_of_le (by decide) (pageSize_le_wholePages range.size)
    have found : arena.windowAt? range.start = some kind :=
      sound.windowAt? handed.above
        (Nat.lt_of_lt_of_le (Nat.lt_add_of_pos_right positive) within)
    have word : wholePages range.size < addressLimit :=
      Nat.lt_of_le_of_lt (Nat.le_trans (Nat.le_add_left _ _) within) (sound.windows kind).bounded
    have given : (arena.window kind).handedOut ⟨range.start, wholePages range.size⟩ = true :=
      handed.handedOut (sound.windows kind)
    have fresh : (arena.window kind).released.any
        (Range.meets ⟨range.start, wholePages range.size⟩) = false :=
      Range.any_meets_eq_false_iff.mpr apart
    simp only [free, found, pagesFor?_eq_some_iff.mpr ⟨rfl, word⟩, given, fresh, Bool.not_true,
      Bool.false_eq_true, if_false, Range.pages]

/-- A range that is taken back joins the released ones, and the cursors stay. -/
theorem Sound.free_adds (sound : arena.Sound) {range : Range}
    (freed : arena.free range = .ok after) :
    (after.text.released ++ after.data.released).Perm
      (range.pages :: (arena.text.released ++ arena.data.released)) ∧
    ∀ kind, (after.window kind).cursor = (arena.window kind).cursor := by
  rcases sound.free_eq_ok_iff.mp freed with ⟨kind, _, _, rfl⟩
  refine ⟨?_, forall_setWindow (motive := fun other window =>
    window.cursor = (arena.window other).cursor) arena rfl fun _ _ => rfl⟩
  cases kind with
  | text => exact .refl _
  | data => exact List.perm_middle

/-- Handing out pages releases none. -/
theorem released_allocate {size : Nat} {kind : WindowKind} {address : Address}
    (given : arena.allocate size kind = .ok (address, after)) :
    after.text.released ++ after.data.released =
      arena.text.released ++ arena.data.released := by
  rcases allocate_eq_ok_iff.mp given with ⟨_, _, rfl⟩
  cases kind <;> rfl

/-- Pages beyond the cursor of a window are apart from all pages handed out. -/
theorem Sound.behind (sound : arena.Sound) {kind other : WindowKind} {pages : Range}
    (handed : (arena.window other).Handed pages) {rounded : Nat}
    (fits : rounded ≤ (arena.window kind).remaining) :
    Range.Apart ⟨(arena.window kind).base + (arena.window kind).cursor, rounded⟩ pages := by
  by_cases same : other = kind
  · rw [same] at handed
    exact Or.inr handed.below
  · have bounded := (sound.windows kind).cursor_le
    refine sound.apart_of_ne (Ne.symm same) (Nat.le_add_right _ _) ?_ handed.above
      (handed.within (sound.windows other))
    simp only [Window.remaining] at fits
    rw [Nat.add_assoc]
    exact Nat.add_le_add_left (show (arena.window kind).cursor + rounded ≤ _ by omega) _

end Arena

/-! ## The lease book -/

/-- A range on loan from a window. -/
structure Lease where
  window : WindowKind
  range : Range
  deriving DecidableEq, Repr

namespace Lease

/-- The whole pages of a lease. -/
@[irreducible] def pages (lease : Lease) : Range :=
  ⟨lease.range.start, (pagesFor? lease.range.size).getD 0⟩

theorem pages_start (lease : Lease) : lease.pages.start = lease.range.start := by
  simp only [pages]

theorem mk_pages_size (lease : Lease) :
    (⟨lease.range.start, lease.pages.size⟩ : Range) = lease.pages := by
  simp only [pages]

theorem pages_eq {lease : Lease} (rounds : pagesFor? lease.range.size = some lease.pages.size) :
    lease.pages = lease.range.pages := by
  rw [Range.pages, ← eq_wholePages rounds, mk_pages_size]

/-- The pages of a lease were handed out by its window and have not come back. -/
structure Inside (window : Window) (lease : Lease) : Prop where
  rounds : pagesFor? lease.range.size = some lease.pages.size
  aligned : lease.pages.start % pageSize = 0
  above : window.base ≤ lease.pages.start
  below : lease.pages.start + lease.pages.size ≤ window.base + window.cursor
  unreleased : ∀ range ∈ window.released, Range.Apart lease.pages range

theorem Inside.handed {window : Window} {lease : Lease} (inside : Inside window lease) :
    window.Handed lease.pages :=
  ⟨inside.aligned, inside.above, inside.below⟩

theorem Inside.advance {window : Window} {lease : Lease} (inside : Inside window lease)
    (count : Nat) : Inside { window with cursor := window.cursor + count } lease where
  rounds := inside.rounds
  aligned := inside.aligned
  above := inside.above
  below := Nat.le_trans inside.below (Nat.add_le_add_left (Nat.le_add_right _ _) _)
  unreleased := inside.unreleased

theorem Inside.release {window : Window} {lease : Lease} (inside : Inside window lease)
    {pages : Range} (apart : Range.Apart lease.pages pages) :
    Inside (window.release pages) lease where
  rounds := inside.rounds
  aligned := inside.aligned
  above := inside.above
  below := inside.below
  unreleased range released := by
    rcases List.mem_cons.mp released with rfl | earlier
    · exact apart
    · exact inside.unreleased range earlier

end Lease

namespace Arena

/-- The pages of the leases from one window. -/
def leasedBytes (leases : List Lease) (kind : WindowKind) : Nat :=
  ((leases.filter fun lease => lease.window = kind).map fun lease => lease.pages.size).sum

/-- The given leases are exactly those on the arena. -/
structure Leased (arena : Arena) (leases : List Lease) : Prop where
  sound : ∀ kind, (arena.window kind).Sound
  windows_apart : Range.Apart ⟨arena.text.base, arena.text.size⟩ ⟨arena.data.base, arena.data.size⟩
  inside : ∀ lease ∈ leases, lease.Inside (arena.window lease.window)
  apart : leases.Pairwise fun first second => Range.Apart first.pages second.pages
  total : ∀ kind, (arena.window kind).cursor =
    (arena.window kind).releasedBytes + leasedBytes leases kind

theorem Leased.arena_sound {arena : Arena} {leases : List Lease} (leased : arena.Leased leases) :
    arena.Sound :=
  ⟨leased.sound, leased.windows_apart⟩

/-- An untouched arena has no leases. -/
theorem leased_ofSpecs {text data : WindowSpec} {arena : Arena}
    (made : ofSpecs text data = .ok arena) : arena.Leased [] := by
  rcases sound_ofSpecs made with ⟨rfl, sound⟩
  refine ⟨sound.windows, sound.apart, fun _ listed => absurd listed List.not_mem_nil,
    List.Pairwise.nil, fun kind => ?_⟩
  cases kind <;> rfl

/-- What happens to an arena in use: cursors advance and releases stay recorded. -/
structure Grows (before after : Arena) : Prop where
  base_eq : ∀ kind, (after.window kind).base = (before.window kind).base
  size_eq : ∀ kind, (after.window kind).size = (before.window kind).size
  cursor_le : ∀ kind, (before.window kind).cursor ≤ (after.window kind).cursor
  released : ∀ kind, ∀ range ∈ (before.window kind).released, range ∈ (after.window kind).released

theorem Grows.refl (arena : Arena) : Grows arena arena :=
  ⟨fun _ => rfl, fun _ => rfl, fun _ => Nat.le_refl _, fun _ _ released => released⟩

theorem Grows.trans {first second third : Arena} (grows : Grows first second)
    (grows' : Grows second third) : Grows first third where
  base_eq kind := (grows'.base_eq kind).trans (grows.base_eq kind)
  size_eq kind := (grows'.size_eq kind).trans (grows.size_eq kind)
  cursor_le kind := Nat.le_trans (grows.cursor_le kind) (grows'.cursor_le kind)
  released kind range released := grows'.released kind range (grows.released kind range released)

/-- Putting a window that was used further in its place. -/
theorem grows_setWindow (arena : Arena) (kind : WindowKind) {window : Window}
    (base : window.base = (arena.window kind).base) (size : window.size = (arena.window kind).size)
    (cursor : (arena.window kind).cursor ≤ window.cursor)
    (released : ∀ range ∈ (arena.window kind).released, range ∈ window.released) :
    Grows arena (arena.setWindow kind window) where
  base_eq := forall_setWindow (motive := fun other window =>
    window.base = (arena.window other).base) arena base fun _ _ => rfl
  size_eq := forall_setWindow (motive := fun other window =>
    window.size = (arena.window other).size) arena size fun _ _ => rfl
  cursor_le := forall_setWindow (motive := fun other window =>
    (arena.window other).cursor ≤ window.cursor) arena cursor fun _ _ => Nat.le_refl _
  released := forall_setWindow (motive := fun other window =>
    ∀ range ∈ (arena.window other).released, range ∈ window.released) arena released
      fun _ _ _ listed => listed

variable {arena after : Arena} {leases : List Lease}

theorem leasedBytes_cons (lease : Lease) (leases : List Lease) (kind : WindowKind) :
    leasedBytes (lease :: leases) kind =
      (if lease.window = kind then lease.pages.size else 0) + leasedBytes leases kind := by
  by_cases here : lease.window = kind <;> simp [leasedBytes, here]

theorem Leased.perm {leases' : List Lease} (leased : arena.Leased leases)
    (same : leases.Perm leases') : arena.Leased leases' where
  sound := leased.sound
  windows_apart := leased.windows_apart
  inside lease listed := leased.inside lease (same.mem_iff.mpr listed)
  apart := same.pairwise leased.apart Range.Apart.symm
  total kind := by
    rw [leased.total kind]
    exact congrArg (_ + ·) ((same.filter _).map _).sum_nat

/-- The whole of a lease lies in its window. -/
theorem Leased.within (leased : arena.Leased leases) {lease : Lease} (listed : lease ∈ leases) :
    (arena.window lease.window).base ≤ lease.pages.start ∧
      lease.pages.start + lease.pages.size ≤
        (arena.window lease.window).base + (arena.window lease.window).size := by
  have inside := leased.inside lease listed
  exact ⟨inside.above, inside.handed.within (leased.sound lease.window)⟩

theorem pagesFor?_of_allocate {size : Nat} {kind : WindowKind} {address : Address}
    (given : arena.allocate size kind = .ok (address, after)) :
    pagesFor? size = some (Lease.pages ⟨kind, ⟨address, size⟩⟩).size := by
  have rounds := pagesFor?_eq_some_iff.mpr ⟨rfl, (allocate_eq_ok_iff.mp given).1.1⟩
  simp only [Lease.pages, rounds, Option.getD_some]

/-- Allocation adds a lease. -/
theorem Leased.allocate (leased : arena.Leased leases) {size : Nat} {kind : WindowKind}
    {address : Address} (given : arena.allocate size kind = .ok (address, after)) :
    after.Leased (⟨kind, ⟨address, size⟩⟩ :: leases) ∧ Grows arena after := by
  have rounds := pagesFor?_of_allocate given
  have pages : Lease.pages ⟨kind, ⟨address, size⟩⟩ = ⟨address, wholePages size⟩ :=
    Lease.pages_eq rounds
  rcases allocate_eq_ok_iff.mp given with ⟨⟨_, fits⟩, start, window⟩
  have sound := leased.sound kind
  have whole := leased.arena_sound.setWindow (sound.advance (wholePages_mod size) fits) rfl
  subst window
  refine ⟨⟨whole.windows, whole.apart, ?_, ?_, ?_⟩, ?_⟩
  · intro lease listed
    rcases List.mem_cons.mp listed with rfl | earlier
    · rw [window_setWindow_self]
      refine ⟨rounds, ?_, ?_, ?_, fun range released => ?_⟩ <;> rw [pages, start]
      · rw [Nat.add_mod, sound.base_aligned, sound.cursor_aligned]
        rfl
      · exact Nat.le_add_right _ _
      · exact Nat.le_of_eq (Nat.add_assoc _ _ _)
      · exact Or.inr (sound.released_inside range released).2.2.2
    · exact forall_setWindow
        (motive := fun other window => lease.window = other → lease.Inside window) arena
        (fun same => (same ▸ leased.inside lease earlier).advance _)
        (fun _ _ same => same ▸ leased.inside lease earlier) lease.window rfl
  · refine List.pairwise_cons.mpr ⟨fun lease listed => ?_, leased.apart⟩
    rw [pages, start]
    exact leased.arena_sound.behind (leased.inside lease listed).handed fits
  · refine forall_setWindow (motive := fun other window =>
      window.cursor = window.releasedBytes + leasedBytes (_ :: leases) other) arena ?_ ?_
    · rw [leasedBytes_cons, pages, if_pos rfl]
      simp only [leased.total kind]
      omega
    · intro other different
      rw [leasedBytes_cons, if_neg (Ne.symm different), Nat.zero_add]
      exact leased.total other
  · exact grows_setWindow arena kind rfl rfl (Nat.le_add_right _ _) fun _ listed => listed

/-- The end of any lease is accepted. -/
theorem Leased.free {lease : Lease} (leased : arena.Leased (lease :: leases)) :
    ∃ after, arena.free lease.range = .ok after ∧ after.Leased leases ∧ Grows arena after ∧
      ∀ kind, (after.window kind).cursor = (arena.window kind).cursor := by
  have inside := leased.inside lease List.mem_cons_self
  have pages := Lease.pages_eq inside.rounds
  have apart := List.pairwise_cons.mp leased.apart
  have released : ((arena.window lease.window).release lease.pages).Sound :=
    (leased.sound lease.window).release (pagesFor?_eq_some inside.rounds).1 inside.handed
      inside.unreleased
  have whole := leased.arena_sound.setWindow released rfl
  refine ⟨arena.setWindow lease.window ((arena.window lease.window).release lease.pages),
    ?_, ⟨whole.windows, whole.apart, ?_, apart.2, ?_⟩, ?_, ?_⟩
  · refine leased.arena_sound.free_eq_ok_iff.mpr ⟨lease.window, ?_⟩
    rw [← pages]
    exact ⟨inside.handed, inside.unreleased, rfl⟩
  · intro other listed
    have inside' := leased.inside other (List.mem_cons_of_mem _ listed)
    exact forall_setWindow
      (motive := fun kind window => other.window = kind → other.Inside window) arena
      (fun same => (same ▸ inside').release (apart.1 other listed).symm)
      (fun _ _ same => same ▸ inside') other.window rfl
  · refine forall_setWindow (motive := fun other window =>
      window.cursor = window.releasedBytes + leasedBytes leases other) arena ?_ ?_
    · have total := leased.total lease.window
      rw [leasedBytes_cons, if_pos rfl] at total
      simp only [Window.release, total]
      omega
    · intro other different
      have total := leased.total other
      rw [leasedBytes_cons, if_neg (Ne.symm different), Nat.zero_add] at total
      exact total
  · exact grows_setWindow arena lease.window rfl rfl (Nat.le_refl _)
      fun _ listed => List.mem_cons_of_mem _ listed
  · exact forall_setWindow (motive := fun other window =>
      window.cursor = (arena.window other).cursor) arena rfl fun _ _ => rfl

end Arena
end ModuleHost
