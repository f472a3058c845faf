import ModuleHost.Proofs.Arena.Series
import ModuleHost.Proofs.Host.Staging

namespace ModuleHost

/-!
# Where sections are put

Exactly the sections that are to be loaded and are not empty are put into memory: code into the
text window, small sections of zeros that are only read onto the shared page, and everything
else into the data window.  What is put into a window has pages that nobody had before, apart
from all other memory of this and of other modules.

A failure leaves the sections in front of the one that fails in their places, and the ranges
that the staging remembers are the pages of those.
-/

/-- The addresses of a window. -/
def Window.extent (window : Window) : Range :=
  ⟨window.base, window.size⟩

/-- The whole pages that a section lies on. -/
def Placement.pages (placement : Placement) : Range :=
  ⟨placement.address, wholePages placement.size⟩

/-- What memory the modules of a host have: pages that their windows have handed out, and the
front of the shared page, which is a page outside the windows. -/
structure Host.Housed (host : Host) : Prop where
  arena : host.arena.Sound
  zeroPage_aligned : host.zeroPage % pageSize = 0
  zeroPage_apart : ∀ kind,
    Range.Apart ⟨host.zeroPage, pageSize⟩ (host.arena.window kind).extent
  handed : ∀ lease ∈ host.registry.leases,
    (host.arena.window lease.window).Handed lease.range.pages
  shared : ∀ entry ∈ host.registry.entries, ∀ placement ∈ entry.2.placements,
    placement.kind = .zeroPage → placement.address = host.zeroPage ∧ placement.size ≤ pageSize

namespace Staging

/-- A section has the memory that it asks for: code and nothing else is in the text window. -/
structure Suits (host : Host) (header : Object.Section) (placement : Placement) : Prop where
  size_eq : placement.size = header.size.toNat
  executable : header.isExecutable = true → placement.pages.Within host.arena.text.extent
  not_executable : header.isExecutable = false →
    Range.Apart placement.pages host.arena.text.extent
  alignment_le : header.alignment.toNat ≤ pageSize
  aligned : ∀ bits, header.alignment.toNat = 2 ^ bits →
    header.alignment.toNat ∣ placement.address

/-- A section is put where its marks and its size say. -/
structure Regular (host : Host) (header : Object.Section) (placement : Placement) : Prop where
  placed_iff : placement.kind ≠ .unplaced ↔ header.isAllocated = true ∧ header.size ≠ 0
  shares_iff : placement.kind = .zeroPage ↔
    placement.kind ≠ .unplaced ∧ header.isNoBits = true ∧ header.isWritable = false ∧
      header.isExecutable = false ∧ header.size.toNat ≤ pageSize
  address_eq : placement.kind = .zeroPage → placement.address = host.zeroPage
  suits : placement.kind ≠ .unplaced → Suits host header placement

/-- Sections have been put into memory one after the other, beginning with a host, and this is
the staging afterwards. -/
structure Segregated (host : Host) (headers : List Object.Section)
    (placements : List Placement) (after : Staging) : Prop where
  length_eq : placements.length = headers.length
  regular : ∀ entry ∈ headers.zip placements, Regular host entry.1 entry.2
  /-- Two sections are apart unless both are on the shared page. -/
  apart : placements.Pairwise fun first second => first.kind ≠ .unplaced →
    second.kind ≠ .unplaced → (first.ownsPages = true ∨ second.ownsPages = true) →
      Range.Apart first.pages second.pages
  /-- What a section has of its own is apart from the memory of other modules, -/
  others : ∀ placement ∈ placements, placement.ownsPages = true →
    ∀ entry ∈ host.registry.entries,
      (∀ other ∈ entry.2.placements, other.kind ≠ .unplaced →
        Range.Apart placement.pages other.pages) ∧
      ∀ page, entry.2.stubPage = some page → Range.Apart placement.pages ⟨page, pageSize⟩
  /-- and from all that was ever handed out before. -/
  unspent : ∀ placement ∈ placements, placement.ownsPages = true →
    ∀ address, placement.pages.Has address → ¬host.arena.Spent address
  /-- The staging remembers what the sections have of their own, in their order. -/
  ranges_eq : after.ranges = (placements.filter Placement.ownsPages).map fun placement =>
    ⟨placement.address, placement.size⟩
  /-- What the sections have of their own is what the arena has handed out meanwhile. -/
  handsOut : host.arena.HandsOut (placements.filterMap Placement.lease?) after.host.arena
  givesOut_iff : ∀ address, host.arena.GivesOut after.host.arena address ↔
    ∃ range ∈ after.ranges, range.pages.Has address

/-- Why a section cannot be put into memory: it asks for more than pages give, or its window
does. -/
inductive Refused (arena : Arena) (header : Object.Section) : ModuleError → Prop
  | misaligned (beyond : pageSize < header.alignment.toNat) :
      Refused arena header (.unsupportedAlignment header.alignment.toNat)
  | exhausted (reason : ArenaError)
      (refusal : arena.allocate header.size.toNat (windowFor header) = .error reason) :
      Refused arena header (.allocation reason)

variable {host : Host} {staging after : Staging} {object : Object} {header : Object.Section}
variable {headers : List Object.Section} {placement : Placement} {placements : List Placement}

/-! ## What the marks say -/

theorem isOmitted_eq_false_iff (header : Object.Section) :
    header.isOmitted = false ↔ header.isAllocated = true ∧ header.size ≠ 0 := by
  rw [Object.Section.isOmitted, Bool.or_eq_false_iff, Bool.not_eq_false', decide_eq_false_iff_not,
    ← UInt64.toNat_zero, UInt64.toNat_inj]

theorem sharesZeroPage_iff (header : Object.Section) :
    sharesZeroPage header = true ↔ header.isNoBits = true ∧ header.isWritable = false ∧
      header.isExecutable = false ∧ header.size.toNat ≤ pageSize := by
  simp only [sharesZeroPage, Bool.and_eq_true, Bool.not_eq_true', decide_eq_true_eq, and_assoc]

theorem placementIn_ne_unplaced (window : WindowKind) : placementIn window ≠ .unplaced := by
  cases window <;> nofun

theorem placementIn_ne_zeroPage (window : WindowKind) : placementIn window ≠ .zeroPage := by
  cases window <;> nofun

/-- Every page begins at a multiple of the alignments that are allowed. -/
theorem dvd_of_pageSize_dvd {alignment bits : Nat} {address : Address}
    (power : alignment = 2 ^ bits) (within : alignment ≤ pageSize)
    (aligned : address % pageSize = 0) : alignment ∣ address := by
  rw [power] at within ⊢
  have few : bits ≤ 12 := (Nat.pow_le_pow_iff_right Nat.one_lt_two).mp within
  calc 2 ^ bits ∣ 2 ^ 12 := Nat.pow_dvd_pow 2 few
    _ ∣ address := Nat.dvd_of_mod_eq_zero aligned

/-! ## One section -/

/-- What a section has come to, as far as it does not depend on the arena. -/
inductive Put (zeroPage : Address) (header : Object.Section) : Placement → Prop
  | omitted (absent : header.isOmitted = true) : Put zeroPage header .unplaced
  | shared (present : header.isOmitted = false) (within : header.alignment.toNat ≤ pageSize)
      (shares : sharesZeroPage header = true) :
      Put zeroPage header ⟨zeroPage, header.size.toNat, .zeroPage⟩
  | own (address : Address) (present : header.isOmitted = false)
      (within : header.alignment.toNat ≤ pageSize) (own : sharesZeroPage header = false) :
      Put zeroPage header ⟨address, header.size.toNat, placementIn (windowFor header)⟩

theorem Put.of_zeroPage {zeroPage : Address} (put : Put zeroPage header placement)
    (shared : placement.kind = .zeroPage) :
    placement.address = zeroPage ∧ placement.size ≤ pageSize := by
  cases put with
  | omitted => cases shared
  | shared _ _ shares => exact ⟨rfl, ((sharesZeroPage_iff header).mp shares).2.2.2⟩
  | own => exact absurd shared (placementIn_ne_zeroPage _)

/-- The entries are the sections put so far, each with what it has come to. -/
structure Progress (host : Host) (done : List (Object.Section × Placement))
    (staging : Staging) : Prop where
  zeroPage_eq : staging.host.zeroPage = host.zeroPage
  handsOut : host.arena.HandsOut ((done.map Prod.snd).filterMap Placement.lease?)
    staging.host.arena
  ranges_eq : staging.ranges =
    ((done.map Prod.snd).filterMap Placement.lease?).map Lease.range
  put : ∀ entry ∈ done, Put host.zeroPage entry.1 entry.2

theorem progress_start (host : Host) : Progress host [] { host } :=
  ⟨rfl, .nothing, rfl, fun _ listed => absurd listed List.not_mem_nil⟩

variable {done : List (Object.Section × Placement)}

theorem Progress.extend (progress : Progress host done staging)
    (zeroPage : after.host.zeroPage = staging.host.zeroPage)
    (handsOut : host.arena.HandsOut ((done.map Prod.snd).filterMap Placement.lease? ++
      placement.lease?.toList) after.host.arena)
    (ranges : after.ranges = staging.ranges ++ placement.lease?.toList.map Lease.range)
    (put : Put host.zeroPage header placement) :
    Progress host (done ++ [(header, placement)]) after := by
  have last : [placement].filterMap Placement.lease? = placement.lease?.toList := by
    cases own : placement.lease? <;> simp [own]
  have leases : ((done ++ [(header, placement)]).map Prod.snd).filterMap Placement.lease? =
      (done.map Prod.snd).filterMap Placement.lease? ++ placement.lease?.toList := by
    rw [List.map_append, List.filterMap_append, List.map_singleton, last]
  refine ⟨zeroPage.trans progress.zeroPage_eq, leases ▸ handsOut, ?_, fun entry listed => ?_⟩
  · rw [leases, List.map_append, ranges, progress.ranges_eq]
  · rcases List.mem_append.mp listed with earlier | new
    · exact progress.put entry earlier
    · exact List.mem_singleton.mp new ▸ put

theorem Progress.next (progress : Progress host done staging)
    (placed : Staging.place object staging header = (after, .ok placement)) :
    Progress host (done ++ [(header, placement)]) after := by
  have same : staging.host.zeroPage = host.zeroPage := progress.zeroPage_eq
  cases place_cases placed with
  | omitted absent =>
      refine progress.extend rfl ?_ (List.append_nil _).symm (.omitted absent)
      exact (List.append_nil _).symm ▸ progress.handsOut
  | shared present within shares =>
      refine progress.extend rfl ?_ (List.append_nil _).symm (same ▸ .shared present within shares)
      exact (List.append_nil _).symm ▸ progress.handsOut
  | given present within own address state taken text =>
      rcases takePages_eq_ok taken with ⟨arena, given, rfl⟩
      refine progress.extend rfl ?_ ?_ (.own address present within own)
      · rw [lease?_placementIn]
        exact progress.handsOut.next given
      · rw [lease?_placementIn]
        rfl

/-- Every placement is that of a section. -/
theorem exists_section (lengths : placements.length = headers.length)
    (listed : placement ∈ placements) : ∃ header, (header, placement) ∈ headers.zip placements := by
  rw [← List.map_snd_zip (Nat.le_of_eq lengths)] at listed
  rcases List.mem_map.mp listed with ⟨⟨header, _⟩, member, rfl⟩
  exact ⟨header, member⟩

theorem progress_of_mapList
    (placed : Stepwise.mapList (place object) { host } headers = (after, .ok placements)) :
    placements.length = headers.length ∧ Progress host (headers.zip placements) after :=
  Stepwise.mapList_ok (motive := Progress host)
    (fun _ _ _ _ _ progress step => progress.next step) (progress_start host) placed

theorem Put.regular (housed : host.Housed) (put : Put host.zeroPage header placement)
    (own : ∀ lease, placement.lease? = some lease →
      lease.range.pages.Within (host.arena.window lease.window).extent ∧
        lease.range.start % pageSize = 0) : Regular host header placement := by
  cases put with
  | omitted absent =>
      refine ⟨iff_of_false (not_not_intro rfl) ?_, iff_of_false nofun fun shares => shares.1 rfl,
        nofun, fun placed => absurd rfl placed⟩
      rw [← isOmitted_eq_false_iff, absent]
      nofun
  | shared present within shares =>
      rcases (sharesZeroPage_iff header).mp shares with ⟨noBits, readOnly, noCode, small⟩
      have page : Placement.pages ⟨host.zeroPage, header.size.toNat, .zeroPage⟩ =
          ⟨host.zeroPage, pageSize⟩ := by
        rw [Placement.pages, wholePages_of_le small]
      exact {
        placed_iff := iff_of_true nofun ((isOmitted_eq_false_iff header).mp present)
        shares_iff := iff_of_true rfl ⟨nofun, noBits, readOnly, noCode, small⟩
        address_eq := fun _ => rfl
        suits := fun _ => {
          size_eq := rfl
          executable := fun code => absurd (noCode.symm.trans code) Bool.false_ne_true
          not_executable := fun _ => page ▸ housed.zeroPage_apart .text
          alignment_le := within
          aligned := fun _ power => dvd_of_pageSize_dvd power within housed.zeroPage_aligned } }
  | own address present within unshared =>
      rcases own _ (lease?_placementIn _ _ _) with ⟨inside, aligned⟩
      refine ⟨iff_of_true (placementIn_ne_unplaced _) ((isOmitted_eq_false_iff header).mp present),
        iff_of_false (placementIn_ne_zeroPage _) fun shares => ?_,
        fun shared => absurd shared (placementIn_ne_zeroPage _),
        fun _ => ⟨rfl, fun code => ?_, fun noCode => ?_, within,
          fun _ power => dvd_of_pageSize_dvd power within aligned⟩⟩
      · rw [(sharesZeroPage_iff header).mpr shares.2] at unshared
        cases unshared
      · rw [windowFor, if_pos code] at inside
        exact inside
      · rw [windowFor, if_neg (Bool.eq_false_iff.mp noCode)] at inside
        exact (housed.arena.apart.mono (.refl _) inside).symm

/-! ## All sections -/

theorem Regular.pages_shared (regular : Regular host header placement)
    (shared : placement.kind = .zeroPage) : placement.pages = ⟨host.zeroPage, pageSize⟩ := by
  rcases regular.shares_iff.mp shared with ⟨placed, _, _, _, small⟩
  rw [Placement.pages, regular.address_eq shared, (regular.suits placed).size_eq,
    wholePages_of_le small]

end Staging

theorem Placement.pages_of_lease? {placement : Placement} {lease : Lease}
    (own : placement.lease? = some lease) : placement.pages = lease.range.pages := by
  rw [Placement.range_of_lease? own]
  rfl

/-- A section with pages of its own has them by a lease. -/
theorem Placement.exists_lease {placement : Placement} {placements : List Placement}
    (listed : placement ∈ placements) (owns : placement.ownsPages = true) :
    ∃ lease ∈ placements.filterMap lease?, placement.pages = lease.range.pages := by
  rcases placement.ownsPages_iff.mp owns with ⟨lease, own⟩
  exact ⟨lease, List.mem_filterMap.mpr ⟨placement, listed, own⟩, pages_of_lease? own⟩

theorem Placement.shared_of_not_owns {placement : Placement} (placed : placement.kind ≠ .unplaced)
    (unowned : ¬placement.ownsPages = true) : placement.kind = .zeroPage := by
  rcases placement with ⟨address, size, kind⟩
  cases kind
  · exact absurd rfl placed
  · exact absurd rfl unowned
  · exact absurd rfl unowned
  · rfl

namespace Host.Housed

variable {host : Host} {leases : List Lease} {arena : Arena} {lease : Lease}

/-- Pages that are handed out lie in their window and begin at a multiple of the page size. -/
theorem within (housed : host.Housed) (handsOut : host.arena.HandsOut leases arena)
    (listed : lease ∈ leases) :
    lease.range.pages.Within (host.arena.window lease.window).extent ∧
      lease.range.start % pageSize = 0 := by
  have handed := handsOut.handed housed.arena listed
  have inside := handed.within ((handsOut.sound housed.arena).windows lease.window)
  have above := handed.above
  rw [handsOut.grows.base_eq] at inside above
  rw [handsOut.grows.size_eq] at inside
  exact ⟨⟨above, inside⟩, handed.aligned⟩

/-- They are not the shared page. -/
theorem apart_zeroPage (housed : host.Housed) (handsOut : host.arena.HandsOut leases arena)
    (listed : lease ∈ leases) : Range.Apart lease.range.pages ⟨host.zeroPage, pageSize⟩ :=
  ((housed.zeroPage_apart lease.window).mono (.refl _) (housed.within handsOut listed).1).symm

/-- They are apart from the memory of a registered module. -/
theorem apart_module (housed : host.Housed) (handsOut : host.arena.HandsOut leases arena)
    (listed : lease ∈ leases) {entry : Handle × LoadedModule}
    (registered : entry ∈ host.registry.entries) :
    (∀ other ∈ entry.2.placements, other.kind ≠ .unplaced →
      Range.Apart lease.range.pages other.pages) ∧
    ∀ page, entry.2.stubPage = some page → Range.Apart lease.range.pages ⟨page, pageSize⟩ := by
  have known (lease' : Lease) (member : lease' ∈ entry.2.leases) :
      Range.Apart lease.range.pages lease'.range.pages :=
    handsOut.apart_of_handed housed.arena listed
      (housed.handed lease' (List.mem_flatMap.mpr ⟨entry, registered, member⟩))
  constructor
  · intro other member placed
    by_cases owned : other.ownsPages = true
    · rcases other.ownsPages_iff.mp owned with ⟨lease', own⟩
      rw [Placement.pages_of_lease? own]
      exact known lease' (List.mem_append_left _ (List.mem_filterMap.mpr ⟨other, member, own⟩))
    · have shared := Placement.shared_of_not_owns placed owned
      rcases housed.shared entry registered other member shared with ⟨start, small⟩
      rw [Placement.pages, start, wholePages_of_le small]
      exact housed.apart_zeroPage handsOut listed
  · intro page stubbed
    have whole : (stubLease page).range.pages = ⟨page, pageSize⟩ := by
      rw [stubLease, Range.pages, wholePages_of_le (Nat.le_refl _)]
    exact whole ▸ known (stubLease page) (List.mem_append_right _ (by simp [stubbed]))

end Host.Housed

namespace Staging

variable {host : Host} {before after : Staging} {object : Object} {header : Object.Section}
variable {headers : List Object.Section} {placements : List Placement}

theorem Progress.handsOut_placements (lengths : placements.length = headers.length)
    (progress : Progress host (headers.zip placements) after) :
    host.arena.HandsOut (placements.filterMap Placement.lease?) after.host.arena ∧
      after.ranges = (placements.filterMap Placement.lease?).map Lease.range := by
  have handsOut := progress.handsOut
  have ranges := progress.ranges_eq
  rw [List.map_snd_zip (Nat.le_of_eq lengths)] at handsOut ranges
  exact ⟨handsOut, ranges⟩

theorem Progress.regular (housed : host.Housed) (lengths : placements.length = headers.length)
    (progress : Progress host (headers.zip placements) after) :
    ∀ entry ∈ headers.zip placements, Regular host entry.1 entry.2 := by
  intro entry member
  refine (progress.put entry member).regular housed fun lease own => ?_
  refine housed.within (progress.handsOut_placements lengths).1 (List.mem_filterMap.mpr ?_)
  exact ⟨entry.2, (List.of_mem_zip member).2, own⟩

/-- The pages of a series and the shared page are all apart. -/
theorem pairwise_apart (housed : host.Housed) {arena : Arena}
    (handsOut : host.arena.HandsOut (placements.filterMap Placement.lease?) arena)
    (shared : ∀ placement ∈ placements, placement.kind = .zeroPage →
      placement.pages = ⟨host.zeroPage, pageSize⟩) :
    placements.Pairwise fun first second => first.kind ≠ .unplaced → second.kind ≠ .unplaced →
      (first.ownsPages = true ∨ second.ownsPages = true) →
        Range.Apart first.pages second.pages := by
  refine (List.pairwise_filterMap.mp (handsOut.apart housed.arena)).imp_of_mem ?_
  intro first second member member' apart placed placed' either
  by_cases owns : first.ownsPages = true
  · by_cases owns' : second.ownsPages = true
    · rcases first.ownsPages_iff.mp owns with ⟨lease, own⟩
      rcases second.ownsPages_iff.mp owns' with ⟨lease', own'⟩
      rw [Placement.pages_of_lease? own, Placement.pages_of_lease? own']
      exact apart lease own lease' own'
    · rcases Placement.exists_lease member owns with ⟨lease, listed, pages⟩
      rw [pages, shared second member' (Placement.shared_of_not_owns placed' owns')]
      exact housed.apart_zeroPage handsOut listed
  · rcases Placement.exists_lease member' (either.resolve_left owns) with ⟨lease, listed, pages⟩
    rw [shared first member (Placement.shared_of_not_owns placed owns), pages]
    exact (housed.apart_zeroPage handsOut listed).symm

theorem Progress.segregated (housed : host.Housed) (lengths : placements.length = headers.length)
    (progress : Progress host (headers.zip placements) after) :
    Segregated host headers placements after := by
  rcases progress.handsOut_placements lengths with ⟨handsOut, ranges⟩
  have regular := progress.regular housed lengths
  have shared : ∀ placement ∈ placements, placement.kind = .zeroPage →
      placement.pages = ⟨host.zeroPage, pageSize⟩ := by
    intro placement listed kind
    rcases exists_section lengths listed with ⟨header, member⟩
    exact (regular (header, placement) member).pages_shared kind
  refine ⟨lengths, regular, pairwise_apart housed handsOut shared, ?_, ?_, ?_, handsOut, ?_⟩
  · intro placement member owns entry registered
    rcases Placement.exists_lease member owns with ⟨lease, listed, pages⟩
    rw [pages]
    exact housed.apart_module handsOut listed registered
  · intro placement member owns address inside spent
    rcases Placement.exists_lease member owns with ⟨lease, listed, pages⟩
    rw [pages] at inside
    exact spent.not_givesOut handsOut.grows (handsOut.sound housed.arena)
      (handsOut.givesOut_iff.mpr ⟨lease, listed, inside⟩)
  · rw [ranges, Placement.ranges_eq]
  · intro address
    simp only [handsOut.givesOut_iff, ranges, List.mem_map, exists_exists_and_eq_and]

theorem segregated_of_mapList (housed : host.Housed)
    (placed : Stepwise.mapList (place object) { host } headers = (after, .ok placements)) :
    Segregated host headers placements after := by
  rcases progress_of_mapList placed with ⟨lengths, progress⟩
  exact progress.segregated housed lengths

theorem Segregated.aside (segregated : Segregated host headers placements before)
    (arena : after.host.arena = before.host.arena) (ranges : after.ranges = before.ranges) :
    Segregated host headers placements after :=
  { segregated with
    ranges_eq := ranges.trans segregated.ranges_eq
    handsOut := arena ▸ segregated.handsOut
    givesOut_iff := arena ▸ ranges ▸ segregated.givesOut_iff }

/-- A section that is refused has taken nothing. -/
theorem refused_of_place {error : ModuleError}
    (failed : Staging.place object before header = (after, .error error)) :
    after.host.arena = before.host.arena ∧ after.ranges = before.ranges ∧
      header.isOmitted = false ∧ Refused before.host.arena header error := by
  cases place_cases failed with
  | misaligned present beyond _ => exact ⟨rfl, rfl, present, .misaligned beyond⟩
  | refused present _ _ reason _ refusal => exact ⟨rfl, rfl, present, .exhausted reason refusal⟩

/-- If a section is refused, those in front of it are in their places. -/
theorem refused_of_placeAll (housed : host.Housed) {error : ModuleError}
    (failed : placeAll object { host } = (after, .error error)) :
    ∃ done failing rest placements, object.sections = done ++ failing :: rest ∧
      Segregated host done placements after ∧ failing.isAllocated = true ∧ failing.size ≠ 0 ∧
      Refused after.host.arena failing error := by
  rcases Stepwise.mapList_error failed with
    ⟨done, failing, rest, placements, before, sections, placed, refused⟩
  rcases refused_of_place refused with ⟨arena, ranges, present, reason⟩
  rcases (isOmitted_eq_false_iff failing).mp present with ⟨allocated, filled⟩
  have segregated := (segregated_of_mapList housed placed).aside arena ranges
  exact ⟨done, failing, rest, placements, sections, segregated, allocated, filled,
    arena ▸ reason⟩

end Staging
end ModuleHost
