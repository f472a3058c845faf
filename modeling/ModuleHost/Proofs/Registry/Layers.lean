import Mathlib.Logic.Relation
import ModuleHost.Proofs.Host.Quiet
import ModuleHost.Proofs.Registry.Alike

namespace ModuleHost
namespace Registry

/-!
# The order of dependence

A module is bound to others when it is staged, so it depends only on modules that were
registered before it, and nobody depends on it when it is registered.  An order of the
registered modules, the latest first, in which nobody depends on a later one is therefore
kept by every operation: a new module is put in front, and one that goes is left out.

Such an order excludes circles, and nothing depends on the module in front.
-/

/-- The module of one handle holds a reference on that of another. -/
def DependsOn (registry : Registry) (dependent provider : Handle) : Prop :=
  ∃ module, registry.get? dependent = some module ∧ provider ∈ module.dependencies

/-- An order of all registered modules in which none depends on itself or on one before. -/
structure Layered (registry : Registry) (order : List Handle) : Prop where
  nodup : order.Nodup
  mem_iff : ∀ handle, handle ∈ order ↔ (registry.get? handle).isSome = true
  irreflexive : ∀ handle, ¬registry.DependsOn handle handle
  descends : order.Pairwise fun newer older => ¬registry.DependsOn older newer

variable {before after registry : Registry} {handle dependent provider : Handle}
variable {order : List Handle}

theorem bound_eq_zero_iff :
    registry.bound handle = 0 ↔ ∀ dependent, ¬registry.DependsOn dependent handle := by
  constructor
  · rintro zero dependent ⟨module, found, depends⟩
    have listed := (get?_eq_some_iff registry dependent module).mp found
    exact absurd zero (Nat.pos_iff_ne_zero.mp (bound_pos listed depends))
  · intro free
    refine List.sum_eq_zero_iff_forall_eq_nat.mpr fun count listed => ?_
    rcases List.mem_map.mp listed with ⟨⟨dependent, module⟩, registered, rfl⟩
    refine List.count_eq_zero.mpr fun depends => free dependent ⟨module, ?_, depends⟩
    exact (get?_eq_some_iff registry dependent module).mpr registered

theorem dependsOn_of_uncounted (same : (before.get? dependent).map LoadedModule.uncounted =
    (after.get? dependent).map LoadedModule.uncounted) :
    after.DependsOn dependent provider ↔ before.DependsOn dependent provider := by
  have through (registry : Registry) : registry.DependsOn dependent provider ↔
      ∃ module, (registry.get? dependent).map LoadedModule.uncounted = some module ∧
        provider ∈ module.dependencies := by
    constructor
    · rintro ⟨module, found, depends⟩
      exact ⟨module.uncounted, congrArg (Option.map _) found, depends⟩
    · rintro ⟨module, found, depends⟩
      rcases Option.map_eq_some_iff.mp found with ⟨held, found', rfl⟩
      exact ⟨held, found', depends⟩
  rw [through, through, same]

theorem Persists.dependsOn (persists : Persists before after)
    (depends : after.DependsOn dependent provider) : before.DependsOn dependent provider := by
  rcases depends with ⟨module, found, depends⟩
  rcases persists dependent module found with ⟨earlier, found', same⟩
  have kept : provider ∈ module.lasting.dependencies := depends
  rw [same] at kept
  exact ⟨earlier, found', kept⟩

namespace Layered

theorem empty : Layered {} [] where
  nodup := List.nodup_nil
  mem_iff := by simp [get?]
  irreflexive := by simp [DependsOn, get?]
  descends := List.Pairwise.nil

/-- Modules that stay keep their order. -/
theorem persists (layered : before.Layered order) (persists : Persists before after) :
    after.Layered (order.filter fun handle => (after.get? handle).isSome) where
  nodup := layered.nodup.filter _
  mem_iff handle := by
    rw [List.mem_filter, layered.mem_iff, and_iff_right_iff_imp]
    intro registered
    rcases Option.isSome_iff_exists.mp registered with ⟨module, found⟩
    rcases persists handle module found with ⟨earlier, found', _⟩
    rw [found']
    rfl
  irreflexive handle depends := layered.irreflexive handle (persists.dependsOn depends)
  descends := (layered.descends.filter _).imp fun {newer older} free depends =>
    free (persists.dependsOn depends)

/-- A new module that nobody depends on comes first. -/
theorem cons (layered : before.Layered order) (fresh : before.get? handle = none)
    (others : AlikeExcept handle before after) (registered : (after.get? handle).isSome = true)
    (unbound : after.bound handle = 0) : after.Layered (handle :: order) where
  nodup := by
    refine List.nodup_cons.mpr ⟨fun listed => ?_, layered.nodup⟩
    rw [layered.mem_iff, fresh] at listed
    cases listed
  mem_iff other := by
    by_cases same : other = handle
    · exact iff_of_true (same ▸ List.mem_cons_self) (same ▸ registered)
    · have alike := congrArg Option.isSome (others other same)
      rw [Option.isSome_map, Option.isSome_map] at alike
      rw [List.mem_cons, or_iff_right same, layered.mem_iff, alike]
  irreflexive other depends := by
    by_cases same : other = handle
    · exact bound_eq_zero_iff.mp unbound other (same ▸ depends)
    · exact layered.irreflexive other ((dependsOn_of_uncounted (others other same)).mp depends)
  descends := by
    refine List.pairwise_cons.mpr ⟨fun older _ => bound_eq_zero_iff.mp unbound older, ?_⟩
    refine layered.descends.imp_of_mem fun {newer older} _ listed free depends => ?_
    have different : older ≠ handle := by
      rintro rfl
      rw [layered.mem_iff, fresh] at listed
      cases listed
    exact free ((dependsOn_of_uncounted (others older different)).mp depends)

/-- When the first module goes, the others keep their order. -/
theorem tail (layered : before.Layered (handle :: order))
    (others : AlikeExcept handle before after) (gone : after.get? handle = none) :
    after.Layered order where
  nodup := (List.nodup_cons.mp layered.nodup).2
  mem_iff other := by
    by_cases same : other = handle
    · rw [same, gone]
      exact iff_of_false (List.nodup_cons.mp layered.nodup).1 nofun
    · have alike := congrArg Option.isSome (others other same)
      rw [Option.isSome_map, Option.isSome_map] at alike
      rw [← alike, ← layered.mem_iff, List.mem_cons, or_iff_right same]
  irreflexive other depends := by
    by_cases same : other = handle
    · rcases depends with ⟨module, found, _⟩
      rw [same, gone] at found
      cases found
    · exact layered.irreflexive other ((dependsOn_of_uncounted (others other same)).mp depends)
  descends := by
    rcases List.pairwise_cons.mp layered.descends with ⟨_, later⟩
    refine later.imp_of_mem fun {newer older} _ listed free depends => ?_
    have different : older ≠ handle := by
      rintro rfl
      exact (List.nodup_cons.mp layered.nodup).1 listed
    exact free ((dependsOn_of_uncounted (others older different)).mp depends)

theorem entries_eq_nil (layered : registry.Layered []) : registry.entries = [] := by
  refine List.eq_nil_iff_forall_not_mem.mpr fun ⟨handle, module⟩ listed => ?_
  have found := (get?_eq_some_iff registry handle module).mpr listed
  have registered := (layered.mem_iff handle).mpr (Option.isSome_of_eq_some found)
  exact List.not_mem_nil registered

/-- Nothing depends on the first module. -/
theorem bound_head (layered : registry.Layered (handle :: order)) : registry.bound handle = 0 := by
  refine bound_eq_zero_iff.mpr fun dependent depends => ?_
  have registered : dependent ∈ handle :: order := by
    rcases depends with ⟨module, found, _⟩
    rw [layered.mem_iff, found]
    rfl
  rcases List.mem_cons.mp registered with rfl | listed
  · exact layered.irreflexive dependent depends
  · exact (List.pairwise_cons.mp layered.descends).1 dependent listed depends

variable {holders : List Handle}

/-- Whatever a module depends on comes later in the order. -/
theorem idxOf_lt (layered : registry.Layered order) (balanced : registry.Balanced holders)
    (depends : registry.DependsOn dependent provider) :
    order.idxOf dependent < order.idxOf provider := by
  have registered : dependent ∈ order := by
    rcases depends with ⟨module, found, _⟩
    rw [layered.mem_iff, found]
    rfl
  have registered' : provider ∈ order := by
    rcases depends with ⟨module, found, held⟩
    rcases balanced.exists_of_bound ((get?_eq_some_iff _ _ _).mp found) held with ⟨_, found', _⟩
    rw [layered.mem_iff, found']
    rfl
  have inside := List.idxOf_lt_length_of_mem registered
  have inside' := List.idxOf_lt_length_of_mem registered'
  rcases Nat.lt_trichotomy (order.idxOf dependent) (order.idxOf provider) with less | same | more
  · exact less
  · have one : dependent = provider := List.idxOf_inj registered |>.mp same
    exact absurd (one ▸ depends) (layered.irreflexive provider)
  · have free := List.pairwise_iff_getElem.mp layered.descends _ _ inside' inside more
    rw [List.getElem_idxOf, List.getElem_idxOf] at free
    exact absurd depends free

/-- No module depends on itself, however indirectly. -/
theorem acyclic (layered : registry.Layered order) (balanced : registry.Balanced holders)
    (handle : Handle) : ¬Relation.TransGen registry.DependsOn handle handle := by
  have later {dependent provider : Handle}
      (path : Relation.TransGen registry.DependsOn dependent provider) :
      order.idxOf dependent < order.idxOf provider := by
    induction path with
    | single depends => exact layered.idxOf_lt balanced depends
    | tail _ depends earlier => exact Nat.lt_trans earlier (layered.idxOf_lt balanced depends)
  exact fun circle => Nat.lt_irrefl _ (later circle)

end Layered
end Registry
end ModuleHost
