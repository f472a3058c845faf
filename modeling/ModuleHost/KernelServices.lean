import ModuleHost.Heap
import ModuleHost.Text.Utf8

namespace ModuleHost
namespace KernelServices

/-!
# Services for modules

What the kernel offers to module code besides its own symbols: printing, and
memory from the kernel heap.  These services speak of addresses only, with zero for
no memory, since module code has no other way to say it.

Giving damaged memory back is not an error that a caller could handle: it ends the
kernel with a fault.
-/

/-- The report of a kernel heap that has just been given its region. -/
def heapOpened (heap : Heap) : Notice :=
  let span := s!"{Text.hex heap.start} - {Text.hex heap.stop}"
  ⟨.info, s!"[heap] Initialized: {span} ({Text.kilobytes heap.size} KB)"⟩

/-- The usage report of the kernel heap. -/
def heapUsage (heap : Heap) : List Notice :=
  if heap.initialized then heap.usageNotices else [⟨.info, "[heap] Not initialized"⟩]

/-- The kernel stops because the heap is damaged. -/
structure CorruptionFault where
  cause : HeapError
  deriving DecidableEq, Repr

namespace CorruptionFault

def message (fault : CorruptionFault) : String :=
  s!"heap corruption fault: {fault.cause.message}"

/-- The last report before the kernel stops. -/
def notice (fault : CorruptionFault) : Notice :=
  ⟨.error, s!"[heap] Corruption fault: {fault.cause.message}"⟩

/-- The last report when module code gave the memory back. -/
def moduleNotice (fault : CorruptionFault) (address : Address) : Notice :=
  ⟨.error, s!"[kmod] kfree({Text.hex address}): {fault.cause.message}"⟩

end CorruptionFault

/-- Memory for a layout, if there is any. -/
def allocate? (heap : Heap) (layout : Heap.Layout) : Option (Address × Heap) :=
  (heap.allocate layout).toOption

/-- Give memory back; the zero address is no memory. -/
def deallocate (heap : Heap) (address : Address) : Except CorruptionFault Heap :=
  if address = 0 then .ok heap
  else
    match heap.free address with
    | .ok heap => .ok heap
    | .error cause => .error ⟨cause⟩

/-- The alignment of memory for modules. -/
def moduleAlign : Nat := 16

/-- Memory for a module; a request for nothing gets one byte. -/
def moduleAllocate? (heap : Heap) (size : Nat) : Option (Address × Heap) := do
  let layout ← Heap.Layout.ofSizeAlign? (max size 1) moduleAlign
  allocate? heap layout

/-- Print the first `count` of the bytes that a module points at; without an address
or a byte nothing is printed. -/
def print (bytes : Option (List UInt8)) (count : Nat) : List Notice :=
  match bytes with
  | none => []
  | some bytes =>
    if count = 0 then []
    else
      match Text.decode? (bytes.take count) with
      | some text =>
        let trimmed := (text.toList.reverse.dropWhile (· = '\n')).reverse
        [⟨.info, s!"[kmod] {String.ofList trimmed}"⟩]
      | none => [⟨.warn, s!"[kmod] kernel_print: {count} bytes of invalid UTF-8"⟩]

end KernelServices
end ModuleHost
