import ModuleHost.Proofs.Arena.Leases
import ModuleHost.Proofs.Program

namespace ModuleHost
namespace Arena

/-!
# The arena in place

An arena is one pair of windows that is changed where it is.  Here are allocation and release as
programs, field by field: a window moves its cursor, or it adds a range to those that came back
and then counts its bytes.  All checks come in front of the first store, so a request that is
refused leaves both windows as they were.
-/

open Program

/-- A program that changes the windows where they are, and may fail. -/
abbrev InPlace := Program Arena ArenaError

namespace InPlace

/-- Change one window. -/
def modifyWindow (kind : WindowKind) (change : Window → Window) : InPlace Unit :=
  modify fun arena => arena.setWindow kind (change (arena.window kind))

def allocate (size : Nat) (kind : WindowKind) : InPlace Address := do
  let window := (← get).window kind
  match (pagesFor? size).filter (· ≤ window.remaining) with
  | none => throw (.exhausted kind size window.remaining)
  | some rounded =>
    let address := window.base + window.cursor
    modifyWindow kind fun window => { window with cursor := window.cursor + rounded }
    return address

def free (range : Range) : InPlace Unit := do
  match (← get).windowAt? range.start with
  | none => throw (.notOwned range)
  | some kind =>
    match pagesFor? range.size with
    | none => throw (.notOwned range)
    | some rounded =>
      let window := (← get).window kind
      if !window.handedOut ⟨range.start, rounded⟩ then throw (.notOwned range)
      if window.released.any (Range.meets ⟨range.start, rounded⟩) then
        throw (.alreadyReleased kind range)
      modifyWindow kind fun window =>
        { window with released := ⟨range.start, rounded⟩ :: window.released }
      modifyWindow kind fun window =>
        { window with releasedBytes := window.releasedBytes + rounded }

end InPlace

variable {arena after : Arena}

theorem setWindow_setWindow (arena : Arena) (kind : WindowKind) (first second : Window) :
    (arena.setWindow kind first).setWindow kind second = arena.setWindow kind second := by
  cases kind <;> rfl

theorem exec_modifyWindow (arena : Arena) (kind : WindowKind) (change : Window → Window) :
    exec (InPlace.modifyWindow kind change) arena =
      (.ok (), arena.setWindow kind (change (arena.window kind))) :=
  exec_modify _

theorem exec_allocate (arena : Arena) (size : Nat) (kind : WindowKind) :
    exec (InPlace.allocate size kind) arena = settle arena (arena.allocate size kind) := by
  unfold InPlace.allocate Arena.allocate Window.allocate?
  generalize pagesFor? size = pages
  rw [exec_bind, exec_get]
  cases pages with
  | none => rfl
  | some rounded =>
      simp only [Option.bind_eq_bind, Option.bind_some, Option.filter_some]
      by_cases fits : rounded ≤ (arena.window kind).remaining
      · simp only [fits, decide_true, ↓reduceIte]
        rfl
      · simp only [fits, decide_false, Bool.false_eq_true, ↓reduceIte]
        rfl

theorem exec_free (arena : Arena) (range : Range) :
    exec (InPlace.free range) arena =
      settle arena ((arena.free range).map fun after => ((), after)) := by
  simp only [InPlace.free, Arena.free, exec_bind, exec_get]
  cases arena.windowAt? range.start with
  | none => rfl
  | some kind =>
      cases pagesFor? range.size with
      | none => rfl
      | some rounded =>
          simp only [exec_bind, exec_get]
          by_cases foreign : (!(arena.window kind).handedOut ⟨range.start, rounded⟩) = true
          · rw [if_pos foreign, if_pos foreign]
            rfl
          · rw [if_neg foreign, if_neg foreign]
            by_cases again : (arena.window kind).released.any
                (Range.meets ⟨range.start, rounded⟩) = true
            · rw [if_pos again, if_pos again]
              rfl
            · rw [if_neg again, if_neg again]
              simp only [exec_bind, exec_modifyWindow, window_setWindow_self, setWindow_setWindow]
              rfl

end Arena
end ModuleHost
