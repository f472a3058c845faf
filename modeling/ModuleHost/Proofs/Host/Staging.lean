import ModuleHost.Proofs.Host.Holdings
import ModuleHost.Proofs.Stepwise

namespace ModuleHost

/-!
# What a staging holds

Whatever step a staging has come to, and whether that step failed or not, the ranges it
remembers are the pages it has on lease and the handles it remembers are the references
it holds; nothing else of the host has changed but memory and journal.  So rolling back
returns the host to what it was, but for the pages used up.

After a success the leases are moreover those that the placements and the page of stubs
tell of, which is what a registered module accounts for.
-/

/-- The section is given no memory. -/
def Object.Section.isOmitted (header : Object.Section) : Bool :=
  !header.isAllocated || header.size.toNat = 0

namespace Staging

/-- A staging on top of a host, with the leases it has taken. -/
structure Sound (origin : Host) (holders : List Handle) (staging : Staging)
    (loose : List Lease) : Prop where
  accounted : staging.host.Accounted (staging.held ++ holders) loose
  ranges : staging.ranges = loose.map Lease.range
  continues : origin.Continues staging.host

variable {origin : Host} {holders : List Handle} {staging after : Staging} {loose : List Lease}

theorem sound_start (accounted : origin.Accounted holders []) :
    Sound origin holders { host := origin } [] :=
  ⟨accounted, rfl, Host.Continues.refl origin⟩

/-- Memory and journal do not matter. -/
theorem Sound.aside (sound : Sound origin holders staging loose) (memory : Memory)
    (journal : List Notice) :
    Sound origin holders { staging with host := { staging.host with memory, journal } } loose :=
  ⟨sound.accounted.aside memory journal, sound.ranges,
    sound.continues.trans (Host.Continues.aside _ memory journal)⟩

theorem Sound.report (sound : Sound origin holders staging loose) (severity : Severity)
    (text : String) : Sound origin holders (staging.report severity text) loose :=
  sound.aside _ _

/-- No two leases share a page. -/
theorem Sound.apart {front back : List Lease}
    (sound : Sound origin holders staging (front ++ back)) {lease lease' : Lease}
    (listed : lease ∈ front) (listed' : lease' ∈ back) :
    Range.Apart lease.pages lease'.pages := by
  have apart := (List.pairwise_append.mp sound.accounted.leased.apart).1
  exact (List.pairwise_append.mp apart).2.2 lease listed lease' listed'

/-! ## Taking pages -/

theorem takePages_eq_ok {size : Nat} {window : WindowKind} {address : Address}
    (taken : staging.takePages size window = (after, .ok address)) :
    ∃ arena, staging.host.arena.allocate size window = .ok (address, arena) ∧
      after = { staging with
        host := { staging.host with arena }
        ranges := staging.ranges ++ [⟨address, size⟩] } := by
  unfold takePages Host.takePages at taken
  cases given : staging.host.arena.allocate size window with
  | error error => rw [given] at taken; cases taken
  | ok result =>
      rcases result with ⟨start, arena⟩
      rw [given] at taken
      simp only [Prod.mk.injEq, Except.ok.injEq] at taken
      rcases taken with ⟨rfl, rfl⟩
      exact ⟨arena, rfl, rfl⟩

theorem takePages_eq_error {size : Nat} {window : WindowKind} {error : ModuleError}
    (refused : staging.takePages size window = (after, .error error)) :
    ∃ reason notices, error = .allocation reason ∧
      after = { staging with host := staging.host.report notices } ∧
      staging.host.arena.allocate size window = .error reason := by
  unfold takePages Host.takePages at refused
  cases given : staging.host.arena.allocate size window with
  | error reason =>
      rw [given] at refused
      simp only [Prod.mk.injEq, Except.error.injEq] at refused
      exact ⟨reason, _, refused.2.symm, refused.1.symm, rfl⟩
  | ok result => rw [given] at refused; cases refused

theorem Sound.takePages (sound : Sound origin holders staging loose) {size : Nat}
    {window : WindowKind} {address : Address}
    (taken : staging.takePages size window = (after, .ok address)) :
    Sound origin holders after (loose ++ [⟨window, ⟨address, size⟩⟩]) := by
  rcases takePages_eq_ok taken with ⟨arena, given, rfl⟩
  rcases sound.accounted.leased.allocate given with ⟨leased, grows⟩
  refine ⟨⟨sound.accounted.consistent, sound.accounted.balanced, leased.perm ?_,
    sound.accounted.recorded.allocate given⟩, ?_, sound.continues.trans
      (Host.continues_of_grows _ grows List.suffix_rfl _ _)⟩
  · exact List.perm_middle.symm.trans (by simp)
  · simp [sound.ranges]

theorem Sound.takePages_error (sound : Sound origin holders staging loose) {size : Nat}
    {window : WindowKind} {error : ModuleError}
    (refused : staging.takePages size window = (after, .error error)) :
    Sound origin holders after loose := by
  rcases takePages_eq_error refused with ⟨_, notices, _, rfl, _⟩
  exact sound.aside _ _

/-! ## Placing sections -/

theorem lease?_placementIn (address : Address) (size : Nat) (window : WindowKind) :
    (Placement.mk address size (placementIn window)).lease? = some ⟨window, ⟨address, size⟩⟩ := by
  cases window <;> rfl

/-- What placing a section comes to.  A section with memory is put on the shared page or on
pages of its own, unless it asks for too much. -/
inductive Placing (object : Object) (staging : Staging) (header : Object.Section) :
    Staging → Except ModuleError Placement → Prop
  | omitted (absent : header.isOmitted = true) :
      Placing object staging header staging (.ok .unplaced)
  | misaligned (present : header.isOmitted = false)
      (beyond : pageSize < header.alignment.toNat) (text : String) :
      Placing object staging header (staging.report .warn text)
        (.error (.unsupportedAlignment header.alignment.toNat))
  | shared (present : header.isOmitted = false) (within : header.alignment.toNat ≤ pageSize)
      (shares : sharesZeroPage header = true) :
      Placing object staging header staging
        (.ok ⟨staging.host.zeroPage, header.size.toNat, .zeroPage⟩)
  | refused (present : header.isOmitted = false) (within : header.alignment.toNat ≤ pageSize)
      (own : sharesZeroPage header = false) (error : ArenaError) (notices : List Notice)
      (refusal : staging.host.arena.allocate header.size.toNat (windowFor header) =
        .error error) :
      Placing object staging header { staging with host := staging.host.report notices }
        (.error (.allocation error))
  | given (present : header.isOmitted = false) (within : header.alignment.toNat ≤ pageSize)
      (own : sharesZeroPage header = false) (address : Address) (state : Staging)
      (taken : staging.takePages header.size.toNat (windowFor header) = (state, .ok address))
      (text : String) :
      Placing object staging header
        ({ state with host := { state.host with
          memory := fillPages state.host.memory address header.size.toNat
            (object.contents header) } }.report .debug text)
        (.ok ⟨address, header.size.toNat, placementIn (windowFor header)⟩)

theorem place_cases {object : Object} {header : Object.Section}
    {result : Except ModuleError Placement}
    (placed : Staging.place object staging header = (after, result)) :
    Placing object staging header after result := by
  unfold Staging.place at placed
  simp only at placed
  split at placed
  · next absent =>
      cases placed
      exact .omitted absent
  · next here =>
      have present : header.isOmitted = false := Bool.eq_false_iff.mpr here
      split at placed
      · next beyond =>
          cases placed
          exact .misaligned present beyond _
      · next within =>
          have within' : header.alignment.toNat ≤ pageSize := Nat.le_of_not_lt within
          split at placed
          · next shares =>
              cases placed
              exact .shared present within' shares
          · next other =>
              have own : sharesZeroPage header = false := Bool.eq_false_iff.mpr other
              split at placed
              · next state error refused =>
                  cases placed
                  rcases takePages_eq_error refused with ⟨reason, notices, rfl, rfl, refusal⟩
                  exact .refused present within' own reason notices refusal
              · next state address taken =>
                  cases placed
                  exact .given present within' own address state taken _

/-- A placed section has the lease that its placement tells of; a failure takes nothing. -/
theorem Sound.place (sound : Sound origin holders staging loose) {object : Object}
    {header : Object.Section} {result : Except ModuleError Placement}
    (placed : Staging.place object staging header = (after, result)) :
    Sound origin holders after
      (loose ++ (result.toOption.bind Placement.lease?).toList) := by
  cases place_cases placed with
  | omitted => simpa [Except.toOption, Placement.lease?, Placement.unplaced] using sound
  | misaligned _ _ text => simpa [Except.toOption] using sound.report .warn text
  | shared => simpa [Except.toOption, Placement.lease?] using sound
  | refused _ _ _ error notices _ =>
      have reported := sound.aside staging.host.memory (staging.host.journal ++ notices)
      simpa [Except.toOption, Host.report] using reported
  | given _ _ _ address state taken text =>
      simp only [Except.toOption, Option.bind_some, lease?_placementIn, Option.toList_some]
      exact (sound.takePages taken).aside _ _

/-- One more section, behind those placed before. -/
theorem Sound.place_next {done : List Placement}
    (sound : Sound origin holders staging (loose ++ done.filterMap Placement.lease?))
    {object : Object} {header : Object.Section} {placement : Placement}
    (placed : Staging.place object staging header = (after, .ok placement)) :
    Sound origin holders after (loose ++ (done ++ [placement]).filterMap Placement.lease?) := by
  have last : [placement].filterMap Placement.lease? = placement.lease?.toList := by
    cases own : placement.lease? <;> simp [own]
  have next := sound.place placed
  rw [List.filterMap_append, ← List.append_assoc, last]
  exact next

theorem Sound.placeAll (sound : Sound origin holders staging loose) {object : Object}
    {placements : List Placement}
    (placed : Staging.placeAll object staging = (after, .ok placements)) :
    Sound origin holders after (loose ++ placements.filterMap Placement.lease?) := by
  have run := Stepwise.mapList_ok
    (motive := fun done staging => Sound origin holders staging
      (loose ++ (done.map Prod.snd).filterMap Placement.lease?))
    (fun done state header after placement here step => by
      rw [List.map_append]
      exact here.place_next step)
    (by simpa using sound) placed
  rcases run with ⟨lengths, here⟩
  rw [List.map_snd_zip (Nat.le_of_eq lengths)] at here
  exact here

theorem Sound.placeAll_keeps (sound : Sound origin holders staging loose) (object : Object) :
    ∃ loose', Sound origin holders (Staging.placeAll object staging).1 loose' := by
  refine Stepwise.mapList_keeps (Staging.place object)
    (fun staging => ∃ loose', Sound origin holders staging loose') ?_ object.sections staging
    ⟨loose, sound⟩
  rintro state header ⟨loose', here⟩
  exact ⟨_, here.place rfl⟩

/-! ## Resolving symbols -/

/-- The provider of a symbol, if there is one, gets one more reference. -/
theorem Sound.importSymbol (sound : Sound origin holders staging loose) (name : String)
    (isWeak : Bool) : Sound origin holders (staging.importSymbol name isWeak).1 loose := by
  unfold Staging.importSymbol
  split
  · exact sound
  · split
    · next provider address found =>
        split
        · exact sound
        · next registry references taken =>
            rcases sound.accounted.takeReference taken with ⟨accounted, continues⟩
            have sound' : Sound origin holders { staging with
                host := { staging.host with registry }
                held := staging.held ++ [provider] } loose := by
              refine ⟨accounted.perm ?_ (List.Perm.refl _), sound.ranges,
                sound.continues.trans continues⟩
              rw [← List.cons_append]
              exact (List.perm_append_singleton provider staging.held).symm.append_right _
            exact sound'.report _ _
    · split
      · exact sound.report _ _
      · exact sound.report _ _

theorem Sound.assignAddress (sound : Sound origin holders staging loose) (object : Object)
    (placements : List Placement) (entry : Object.Symbol × Nat) :
    Sound origin holders (Staging.assignAddress object placements staging entry).1 loose := by
  unfold Staging.assignAddress
  simp only
  split
  · split
    · exact sound
    · exact sound.importSymbol _ _
  · exact sound
  · exact sound.report _ _
  · exact sound

theorem Sound.assignAddresses (sound : Sound origin holders staging loose) (object : Object)
    (placements : List Placement) :
    Sound origin holders (Staging.assignAddresses object placements staging).1 loose :=
  Stepwise.mapList_keeps (Staging.assignAddress object placements)
    (fun staging => Sound origin holders staging loose)
    (fun _ entry here => here.assignAddress object placements entry) object.symbols.zipIdx
    staging sound

end Staging
end ModuleHost
