import ModuleHost.Memory

namespace ModuleHost
namespace Heap

/-!
# Sources of pages

The heap does not manage its region itself: it takes blocks of whole pages from an
allocator below it and gives them back.  What the heap uses of that allocator is the
interface here.  The allocator keeps notes of its own in the memory that it has not
handed out, so both ways the memory is part of the exchange.
-/

/-- An allocator of the blocks of one region. -/
class PageSource (Pages : Type) where
  /-- The source before it has a region. -/
  empty : Pages
  /-- Take over the `size` bytes from `start` on. -/
  manage (memory : Memory) (start : Address) (size : Nat) : Pages × Memory
  /-- Hand out a block. -/
  allocate? (pages : Pages) (memory : Memory) (size align : Nat) :
    Option (Address × Pages × Memory)
  /-- Take a block back. -/
  release (pages : Pages) (memory : Memory) (start : Address) (size : Nat) : Pages × Memory
  /-- The bytes in blocks handed out. -/
  used (pages : Pages) : Nat
  /-- The bytes that are left. -/
  free (pages : Pages) : Nat

end Heap
end ModuleHost
