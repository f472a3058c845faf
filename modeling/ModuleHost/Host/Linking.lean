import ModuleHost.Fixup
import ModuleHost.Host.Staging

namespace ModuleHost

/-!
# Linking a module

Once its sections are placed and its symbols have addresses, the relocations of a
module are applied to its sections in memory.  A module that calls symbols of other
objects gets a page of call stubs first.  Stubs and patches made before a failure
stay in the pages, which are then returned and never handed out again.
-/

/-- The patching of one section. -/
structure Patching where
  linkage : Fixup.Linkage
  contents : List UInt8
  notices : List Notice := []

namespace Patching

/-- Apply one fixup. -/
def step (machine : Machine) (patching : Patching) (fixup : Fixup) :
    Patching × Except FixupError Unit :=
  let applied := fixup.apply machine patching.linkage patching.contents
  let notices := patching.notices ++ Fixup.notices patching.linkage applied
  match applied with
  | (linkage, .ok contents) => ({ linkage, contents, notices }, .ok ())
  | (linkage, .error error) => ({ patching with linkage, notices }, .error error)

end Patching

/-- The linking of a module: the host with its memory, and what fixups share. -/
structure Linking where
  host : Host
  linkage : Fixup.Linkage := {}

namespace Linking

/-- The fixup for a relocation of a section at an address. -/
def fixupFor (addresses : List Address) (base : Address) (relocation : Object.Relocation) :
    Fixup where
  kind := relocation.kind
  offset := relocation.offset.toNat
  place := BitVec.ofNat 64 (base + relocation.offset.toNat)
  symbol := BitVec.ofNat 64 (addresses.getD relocation.symbolIndex 0)
  addend := relocation.addend.toBitVec

/-- Apply the relocations of one section.  Sections without memory are skipped; the
shared page of zeros must not be written. -/
def applyGroup (machine : Machine) (placements : List Placement) (addresses : List Address)
    (linking : Linking) (group : Object.RelocationGroup) : Linking × Except ModuleError Unit :=
  match placements[group.target]? with
  | none => (linking, .ok ())
  | some placement =>
    match placement.kind with
    | .unplaced => (linking, .ok ())
    | .zeroPage =>
      if group.relocations.isEmpty then (linking, .ok ())
      else (linking, .error (.zeroPageRelocation group.target))
    | .text | .data =>
      let contents := linking.host.memory.read placement.address placement.size
      let fixups := group.relocations.map (fixupFor addresses placement.address)
      let (patching, result) :=
        Stepwise.forList (Patching.step machine) ⟨linking.linkage, contents, []⟩ fixups
      let memory := linking.host.memory.write placement.address patching.contents
      (⟨{ linking.host with memory }.report patching.notices, patching.linkage⟩,
        result.mapError .fixup)

/-- Put the stubs into their page. -/
def writeStubs (linking : Linking) : Host :=
  match linking.linkage.stubs with
  | some table =>
    { linking.host with memory := linking.host.memory.write table.base table.bytes }
  | none => linking.host

end Linking

namespace Staging

open Text (hex)

/-- Whether a section with memory of its own calls a symbol of another object. -/
def needsStubs (object : Object) (placements : List Placement) : Bool :=
  object.relocationGroups.any fun group =>
    (placements[group.target]?.any Placement.ownsPages) &&
      group.relocations.any fun relocation =>
        Fixup.isCall object.machine relocation.kind &&
          (object.symbols[relocation.symbolIndex]?.any Object.Symbol.isUndefined)

/-- The stubs of an object, on a page of their own, if it needs any. -/
def openStubs (object : Object) (placements : List Placement) (staging : Staging) :
    Staging × Except ModuleError (Option Fixup.StubTable) :=
  if needsStubs object placements then
    match staging.takePages pageSize .text with
    | (staging, .error error) => (staging, .error error)
    | (staging, .ok base) => (staging, .ok (some { machine := object.machine, base }))
  else (staging, .ok none)

/-- Apply the relocations of an object; yields the page of its stubs. -/
def link (object : Object) (placements : List Placement) (addresses : List Address)
    (staging : Staging) : Staging × Except ModuleError (Option Address) :=
  match staging.openStubs object placements with
  | (staging, .error error) => (staging, .error error)
  | (staging, .ok stubs) =>
    let (linking, result) :=
      Stepwise.forList (Linking.applyGroup object.machine placements addresses)
        ⟨staging.host, { stubs }⟩ object.relocationGroups
    let linked := { staging with host := linking.writeStubs }
    match result with
    | .error error => (linked, .error error)
    | .ok () =>
      match linking.linkage.stubs with
      | none => (linked, .ok none)
      | some table =>
        let count := table.targets.length
        (linked.report .debug s!"[module] PLT page {hex table.base}: {count} stubs",
          .ok (some table.base))

end Staging

end ModuleHost
