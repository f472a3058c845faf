import ModuleHost.Arena
import ModuleHost.Fixup.Error
import ModuleHost.Object.Error

namespace ModuleHost

/-!
# Errors of the module host
-/

/-- Why a request about a module failed. -/
inductive ModuleError
  | malformedImage (cause : ObjectError)
  | unsupportedAlignment (alignment : Nat)
  | zeroPageRelocation (sectionIndex : Nat)
  | unresolvedSymbol (name : String)
  | fixup (cause : FixupError)
  | allocation (cause : ArenaError)
  | duplicateName (name : String)
  | inUse (name : String) (references : Nat)
  | notFound (name : String)
  | unloading (name : String)
  | initFailed (code : Int)
  deriving DecidableEq, Repr

namespace ModuleError

open Text (hex)

def message : ModuleError → String
  | malformedImage cause => s!"malformed module image: {cause.message}"
  | unsupportedAlignment alignment => s!"section alignment {hex alignment} exceeds page size"
  | zeroPageRelocation index => s!"relocation targets zero-stub section {index}"
  | unresolvedSymbol name => s!"unresolved symbol '{name}'"
  | fixup cause => s!"relocation failed: {cause.message}"
  | allocation cause => s!"module memory: {cause.message}"
  | duplicateName name => s!"module '{name}' is already loaded"
  | inUse name references => s!"module '{name}' is in use (refcount {references})"
  | notFound name => s!"module '{name}' not found"
  | unloading name => s!"module '{name}' is unloading"
  | initFailed code => s!"module_init returned {code}"

/-- The error of a handle whose module is gone. -/
def staleHandle : ModuleError :=
  .notFound "<stale handle>"

end ModuleError

end ModuleHost
