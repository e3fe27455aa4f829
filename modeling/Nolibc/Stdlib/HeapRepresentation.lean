import Nolibc.Stdlib.HeapCalls

/-!
# The map from pointers to bytes

To its user the heap is a finite map from pointers to the bytes of the blocks
they point to.  `BlockStep` states what each call does to that map, with the
contents of fresh memory left open.  The steps of the real heap run the code
against a kernel which may refuse any `mmap`, for a user who keeps to the
rules; a call that faults is a step of its own, which the map has no answer
to.

`Represents` ties a machine to such a map.  Three things can be done to it:
a fresh region is granted, the bytes of a block change, a block is released.
-/

set_option autoImplicit false

namespace Nolibc.Stdlib.HeapRefinement

open Nolibc.Machine
open Nolibc.Foundation
open Nolibc.Stdlib.Heap

/-! ## Calls -/

/-- What the user of the heap does. -/
inductive Call where
  | malloc (len : Nat)
  | calloc (size nmemb : Nat)
  | realloc (oldPtr newSize : Nat)
  | free (ptr : Nat)
  | write (ptr offset : Nat) (bytes : List Byte)
  | read (ptr offset count : Nat)
  deriving DecidableEq, Repr

/-- What the user gets. -/
inductive Outcome where
  | pointer (ptr : Nat)
  | bytes (values : List Byte)
  | done
  deriving DecidableEq, Repr

/-- Run a call on the machine. -/
def Call.run (layout : Layout) (kernel : Kernel) (system : System) :
    Call → Except Fault (Outcome × System)
  | malloc len => do
      let (ptr, next) ← Heap.malloc layout kernel len system
      pure (.pointer ptr, next)
  | calloc size nmemb => do
      let (ptr, next) ← Heap.calloc layout kernel size nmemb system
      pure (.pointer ptr, next)
  | realloc oldPtr newSize => do
      let (ptr, next) ← Heap.realloc layout kernel oldPtr newSize system
      pure (.pointer ptr, next)
  | free ptr => do
      let next ← Heap.free layout ptr system
      pure (.done, next)
  | write ptr offset bytes => do
      let next ← storeBytes layout (ptr + offset) bytes system
      pure (.done, next)
  | read ptr offset count => do
      let values ← loadBytes (ptr + offset) count system
      pure (.bytes values, system)

/-- What can be seen of a step. -/
inductive Event where
  | returned (call : Call) (outcome : Outcome)
  | crashed (call : Call)

/-! ## The map from pointers to bytes -/

/-- The bytes of every live block. -/
abbrev Blocks : Type :=
  Nat → Option (List Byte)

/-- What the calls do to the live blocks. -/
inductive BlockStep : Blocks → Event → Blocks → Prop where
  | mallocFailed (blocks : Blocks) (len : Nat) :
      BlockStep blocks (.returned (.malloc len) (.pointer 0)) blocks
  | malloc
      {blocks : Blocks} {ptr : Nat} (contents : List Byte)
      (nonnull : ptr ≠ 0) (fresh : blocks ptr = none) :
      BlockStep blocks
        (.returned (.malloc contents.length) (.pointer ptr))
        (Function.update blocks ptr (some contents))
  | callocFailed (blocks : Blocks) (size nmemb : Nat) :
      BlockStep blocks (.returned (.calloc size nmemb) (.pointer 0)) blocks
  | calloc
      {blocks : Blocks} {size nmemb ptr : Nat}
      (nonnull : ptr ≠ 0) (fresh : blocks ptr = none) :
      BlockStep blocks
        (.returned (.calloc size nmemb) (.pointer ptr))
        (Function.update blocks ptr
          (some (List.replicate (size * nmemb) 0)))
  | reallocFailed (blocks : Blocks) (oldPtr newSize : Nat) :
      BlockStep blocks
        (.returned (.realloc oldPtr newSize) (.pointer 0)) blocks
  | reallocNull
      {blocks : Blocks} {ptr : Nat} (contents : List Byte)
      (nonnull : ptr ≠ 0) (fresh : blocks ptr = none) :
      BlockStep blocks
        (.returned (.realloc 0 contents.length) (.pointer ptr))
        (Function.update blocks ptr (some contents))
  | realloc
      {blocks : Blocks} {oldPtr ptr : Nat} {before : List Byte}
      (after : List Byte) (live : blocks oldPtr = some before)
      (nonnull : ptr ≠ 0)
      (fresh : ptr = oldPtr ∨ blocks ptr = none)
      (kept :
        after.take (min before.length after.length) =
          before.take (min before.length after.length)) :
      BlockStep blocks
        (.returned (.realloc oldPtr after.length) (.pointer ptr))
        (Function.update (Function.update blocks oldPtr none) ptr
          (some after))
  | freeNull (blocks : Blocks) :
      BlockStep blocks (.returned (.free 0) .done) blocks
  | free
      {blocks : Blocks} {ptr : Nat} {contents : List Byte}
      (live : blocks ptr = some contents) :
      BlockStep blocks (.returned (.free ptr) .done)
        (Function.update blocks ptr none)
  | write
      {blocks : Blocks} {ptr offset : Nat} {contents bytes : List Byte}
      (live : blocks ptr = some contents)
      (inside : offset + bytes.length ≤ contents.length) :
      BlockStep blocks (.returned (.write ptr offset bytes) .done)
        (Function.update blocks ptr
          (some (Memory.overwrite contents offset bytes)))
  | read
      {blocks : Blocks} {ptr offset count : Nat} {contents : List Byte}
      (live : blocks ptr = some contents)
      (inside : offset + count ≤ contents.length) :
      BlockStep blocks
        (.returned (.read ptr offset count)
          (.bytes ((contents.drop offset).take count)))
        blocks

/-! ## The user and the kernel -/

/-- The sizes the user asked for, by live pointer. -/
abbrev Book : Type :=
  Nat → Option Nat

/-- The book behind a call and what it returned. -/
def Book.after (book : Book) : Call → Outcome → Book
  | .malloc len, .pointer ptr =>
      if ptr = 0 then book else Function.update book ptr (some len)
  | .calloc size nmemb, .pointer ptr =>
      if ptr = 0 then
        book
      else
        Function.update book ptr (some (size * nmemb))
  | .realloc oldPtr newSize, .pointer ptr =>
      if ptr = 0 then
        book
      else if oldPtr = 0 then
        Function.update book ptr (some newSize)
      else
        Function.update (Function.update book oldPtr none) ptr
          (some newSize)
  | .free ptr, .done =>
      if ptr = 0 then book else Function.update book ptr none
  | _, _ => book

/-- A request whose sum with the header and the rounding does not wrap. -/
def Fits (layout : Layout) (len : Nat) : Prop :=
  layout.header + len + 4095 < layout.modulus

/--
The rules for the user: requests that do not wrap, live pointers or `NULL`,
and accesses inside the bytes asked for.  A product that is not a `size_t` is
no request at all, and `calloc` may be asked for it.
-/
def Allowed (layout : Layout) (book : Book) : Call → Prop
  | .malloc len => Fits layout len
  | .calloc size nmemb =>
      size * nmemb < layout.modulus → Fits layout (size * nmemb)
  | .realloc oldPtr newSize =>
      (oldPtr = 0 ∨ (book oldPtr).isSome) ∧ Fits layout newSize
  | .free ptr => ptr = 0 ∨ (book ptr).isSome
  | .write ptr offset bytes =>
      ∃ size, book ptr = some size ∧ offset + bytes.length ≤ size
  | .read ptr offset count =>
      ∃ size, book ptr = some size ∧ offset + count ≤ size

/-- A kernel that maps, if it maps, a fresh range of the length it is given. -/
structure Honest (layout : Layout) (kernel : Kernel) : Prop where
  exact : kernel.Exact layout
  fresh : ∀ length system start,
    kernel length system = .mapped start →
      ∀ region ∈ system.mappings, region.Disjoint ⟨start, length⟩

/-- The machine, and what its user keeps in mind. -/
structure Client where
  system : System
  book : Book

/-- The steps of the heap, with any kernel at each of them. -/
inductive HeapStep (layout : Layout) : Client → Event → Client → Prop where
  | returned
      {client : Client} {call : Call} {outcome : Outcome} {next : System}
      (kernel : Kernel) (honest : Honest layout kernel)
      (allowed : Allowed layout client.book call)
      (ran : call.run layout kernel client.system = .ok (outcome, next)) :
      HeapStep layout client (.returned call outcome)
        ⟨next, client.book.after call outcome⟩
  | crashed
      {client : Client} {call : Call} {fault : Fault}
      (kernel : Kernel) (honest : Honest layout kernel)
      (allowed : Allowed layout client.book call)
      (ran : call.run layout kernel client.system = .error fault) :
      HeapStep layout client (.crashed call) client

/-! ## The representation -/

/--
The heap's mappings as its calls to the kernel leave them: each unmapped
region is exactly one that is mapped.
-/
def replay : List MapCall → Option (List Region)
  | [] => some []
  | .mapped region :: earlier =>
      (replay earlier).map fun live => region :: live
  | .unmapped region :: earlier =>
      (replay earlier).bind fun live =>
        if region ∈ live then some (live.erase region) else none

/--
The machine represents the live blocks: `heap` is the list of the mappings of
the heap, `foreign` of those that were there before, and `initial` the memory
at the start.
-/
structure Represents (layout : Layout) (foreign : List Region)
    (initial : Nat → Byte) (heap : List Region) (blocks : Blocks)
    (system : System) : Prop where
  /-- The mappings of the kernel are those of the heap and the foreign ones. -/
  mappings : system.mappings.Perm (heap ++ foreign)
  /-- They are pairwise disjoint. -/
  apart : (heap ++ foreign).Pairwise Region.Disjoint
  /-- Every heap mapping holds its exact length in its header. -/
  headers : ∀ region ∈ heap, Block layout system region
  /-- Every heap mapping is that of a live block. -/
  live : ∀ region ∈ heap,
    ∃ contents, blocks (region.start + layout.header) = some contents
  /-- Every live block lies behind the header of a heap mapping. -/
  placed : ∀ {ptr : Nat} {contents : List Byte},
    blocks ptr = some contents →
      ∃ region ∈ heap, ptr = region.start + layout.header ∧
        layout.header + contents.length ≤ region.length ∧
        Memory.block system.memory ptr contents.length = contents
  /-- What the kernel was asked for adds up to the heap mappings. -/
  history : replay system.calls = some heap
  /-- The foreign mappings keep their bytes. -/
  untouched : ∀ region ∈ foreign, ∀ address, region.Contains address →
    system.memory address = initial address

namespace Represents

variable {layout : Layout} {foreign : List Region}
  {initial : Nat → Byte} {heap : List Region} {blocks : Blocks}
  {system : System}

/-- Nothing is mapped by the heap at the start. -/
theorem start
    {system : System} (apart : system.mappings.Pairwise Region.Disjoint)
    (noCalls : system.calls = []) :
    Represents layout system.mappings system.memory []
      (fun _ => none) system where
  mappings := List.Perm.refl _
  apart := apart
  headers := by simp
  live := by simp
  placed := by simp
  history := by rw [noCalls]; rfl
  untouched := fun _ _ _ _ => rfl

variable (represents :
  Represents layout foreign initial heap blocks system)

include represents

/-- `errno` is not represented. -/
theorem withErrnum (errnum : Errno) :
    Represents layout foreign initial heap blocks
      { system with errnum } where
  mappings := represents.mappings
  apart := represents.apart
  headers := fun region member =>
    let block := represents.headers region member
    ⟨block.member, block.inside, block.page, block.len⟩
  live := represents.live
  placed := represents.placed
  history := represents.history
  untouched := represents.untouched

theorem mappings_apart :
    system.mappings.Pairwise Region.Disjoint :=
  (represents.mappings.pairwise_iff Region.Disjoint.symm).mpr
    represents.apart

/-- Two heap mappings are the same or disjoint. -/
theorem eq_or_disjoint
    {left right : Region} (leftMember : left ∈ heap)
    (rightMember : right ∈ heap) :
    left = right ∨ left.Disjoint right := by
  by_cases equal : left = right
  · exact Or.inl equal
  · have apart := (List.pairwise_append.mp represents.apart).1
    exact Or.inr (apart.forall leftMember rightMember equal)

/-- A heap mapping is not empty. -/
theorem length_pos {region : Region} (member : region ∈ heap) :
    0 < region.length :=
  lt_of_lt_of_le (by decide) (represents.headers region member).page

/-- A pointer belongs to one heap mapping. -/
theorem eq_of_pointer
    {left right : Region} (leftMember : left ∈ heap)
    (rightMember : right ∈ heap)
    (same : left.start + layout.header = right.start + layout.header) :
    left = right := by
  rcases represents.eq_or_disjoint leftMember rightMember with equal | apart
  · exact equal
  · have leftLength := represents.length_pos leftMember
    have rightLength := represents.length_pos rightMember
    have contained : left.Contains right.start :=
      ⟨by omega, by unfold Region.stop; omega⟩
    have inside : right.Contains right.start :=
      ⟨Nat.le_refl _, by unfold Region.stop; omega⟩
    exact absurd inside (apart.not_contains contained)

/-- A heap mapping is disjoint from the foreign ones. -/
theorem foreign_disjoint
    {region other : Region} (member : region ∈ heap)
    (otherMember : other ∈ foreign) : region.Disjoint other :=
  (List.pairwise_append.mp represents.apart).2.2 region member other
    otherMember

/-- A block keeps its bytes in a memory that agrees on its mapping. -/
theorem placed_congr
    {ptr : Nat} {contents : List Byte} (found : blocks ptr = some contents)
    {memory : Nat → Byte}
    (same : ∀ region ∈ heap, ptr = region.start + layout.header →
      ∀ address, region.Contains address →
        memory address = system.memory address) :
    ∃ region ∈ heap, ptr = region.start + layout.header ∧
      layout.header + contents.length ≤ region.length ∧
      Memory.block memory ptr contents.length = contents := by
  rcases represents.placed found with
    ⟨region, member, address, room, holds⟩
  refine ⟨region, member, address, room, ?_⟩
  rw [← holds, Memory.block_length]
  apply Memory.block_congr
  intro index inContents
  exact same region member address _
    ⟨by omega, by unfold Region.stop; omega⟩

/-! ### Granting -/

/-- No block is behind the header of a region that no mapping touches. -/
theorem fresh_pointer
    {region : Region} (fresh : ∀ other ∈ heap, other.Disjoint region)
    (room : layout.header < region.length) :
    blocks (region.start + layout.header) = none := by
  have inside : region.Contains (region.start + layout.header) :=
    ⟨Nat.le_add_right _ _, by unfold Region.stop; omega⟩
  cases found : blocks (region.start + layout.header) with
  | none => rfl
  | some contents =>
      rcases represents.placed found with ⟨other, member, same, _, _⟩
      have page := (represents.headers other member).page
      have small := layout.small
      have contained : other.Contains (region.start + layout.header) :=
        ⟨by omega, by unfold Region.stop; omega⟩
      exact absurd inside ((fresh other member).not_contains contained)

/-- A fresh region behind whose header some zeros are handed out. -/
theorem grant
    {region : Region} (grantable : Grantable layout region)
    (fresh : ∀ other ∈ system.mappings, other.Disjoint region)
    {size : Nat} (roomy : layout.header + size ≤ region.length) :
    blocks (region.start + layout.header) = none ∧
      Represents layout foreign initial (region :: heap)
        (Function.update blocks (region.start + layout.header)
          (some (List.replicate size 0)))
        (granted layout system region) := by
  have freshHeap : ∀ other ∈ heap, other.Disjoint region :=
    fun other member =>
      fresh other (represents.mappings.mem_iff.mpr (by simp [member]))
  have freshForeign : ∀ other ∈ foreign, other.Disjoint region :=
    fun other member =>
      fresh other (represents.mappings.mem_iff.mpr (by simp [member]))
  have page := grantable.page
  have small := layout.small
  have unchanged {other : Region} (apart : other.Disjoint region)
      {address : Nat} (contained : other.Contains address) :
      (granted layout system region).memory address =
        system.memory address :=
    grantable.granted_frame system (apart.not_contains contained)
  have newPointer := represents.fresh_pointer freshHeap
    (by omega : layout.header < region.length)
  refine ⟨newPointer, ?_⟩
  constructor
  case mappings => exact represents.mappings.cons region
  case apart =>
    rw [List.cons_append, List.pairwise_cons]
    refine ⟨?_, represents.apart⟩
    intro other member
    rcases List.mem_append.mp member with inHeap | inForeign
    · exact (freshHeap other inHeap).symm
    · exact (freshForeign other inForeign).symm
  case headers =>
    intro other member
    rcases List.mem_cons.mp member with rfl | inHeap
    · exact grantable.block_granted system
    · have block := represents.headers other inHeap
      apply block.congr (List.mem_cons_of_mem _ block.member)
      intro address low high
      have holds := block.holdsHeader
      exact unchanged (freshHeap other inHeap)
        ⟨low, by unfold Region.stop; omega⟩
  case live =>
    intro other member
    rcases List.mem_cons.mp member with rfl | inHeap
    · exact ⟨_, Function.update_self _ _ _⟩
    · rcases represents.live other inHeap with ⟨contents, found⟩
      refine ⟨contents, ?_⟩
      rw [Function.update_of_ne]
      · exact found
      · intro same
        rw [same, newPointer] at found
        exact absurd found (by simp)
  case placed =>
    intro ptr contents found
    by_cases same : ptr = region.start + layout.header
    · rw [same, Function.update_self, Option.some.injEq] at found
      subst found
      refine ⟨region, List.mem_cons_self, same, by simpa using roomy, ?_⟩
      rw [List.length_replicate, same]
      exact grantable.granted_zeros system roomy
    · rw [Function.update_of_ne same] at found
      rcases represents.placed_congr found
          (fun other inHeap _ _ =>
            unchanged (freshHeap other inHeap)) with
        ⟨other, inHeap, address, room, holds⟩
      exact ⟨other, List.mem_cons_of_mem _ inHeap, address, room, holds⟩
  case history =>
    change (replay system.calls).map (region :: ·) = _
    rw [represents.history]
    rfl
  case untouched =>
    intro other member address contained
    rw [unchanged (freshForeign other member) contained]
    exact represents.untouched other member address contained

/-! ### Changing the bytes of a block -/

/--
A change of the memory behind one header changes the contents of that block
and nothing else.
-/
theorem retouch
    {region : Region} (member : region ∈ heap)
    {memory : Nat → Byte}
    (frame : ∀ address,
      address < region.start + layout.header ∨ region.stop ≤ address →
        memory address = system.memory address)
    {contents : List Byte}
    (roomy : layout.header + contents.length ≤ region.length)
    (holds :
      Memory.block memory (region.start + layout.header)
        contents.length = contents) :
    Represents layout foreign initial heap
      (Function.update blocks (region.start + layout.header)
        (some contents))
      { system with memory } := by
  have unchanged {other : Region} (apart : other.Disjoint region)
      {address : Nat} (contained : other.Contains address) :
      memory address = system.memory address := by
    apply frame
    by_contra within
    exact apart.not_contains contained ⟨by omega, by omega⟩
  constructor
  case mappings => exact represents.mappings
  case apart => exact represents.apart
  case headers =>
    intro other inHeap
    have block := represents.headers other inHeap
    have holdsHeader := block.holdsHeader
    have mapped : other ∈ { system with memory }.mappings := block.member
    apply block.congr mapped
    intro address low high
    rcases represents.eq_or_disjoint inHeap member with rfl | apart
    · exact frame address (Or.inl high)
    · exact unchanged apart ⟨low, by unfold Region.stop; omega⟩
  case live =>
    intro other inHeap
    by_cases same :
        other.start + layout.header = region.start + layout.header
    · rw [same]
      exact ⟨contents, Function.update_self _ _ _⟩
    · rw [Function.update_of_ne same]
      exact represents.live other inHeap
  case placed =>
    intro ptr found bytes
    by_cases same : ptr = region.start + layout.header
    · subst same
      rw [Function.update_self, Option.some.injEq] at bytes
      subst bytes
      exact ⟨region, member, rfl, roomy, holds⟩
    · rw [Function.update_of_ne same] at bytes
      refine represents.placed_congr bytes ?_
      intro other inHeap pointer address contained
      rcases represents.eq_or_disjoint inHeap member with rfl | apart
      · exact absurd pointer same
      · exact unchanged apart contained
  case history => exact represents.history
  case untouched =>
    intro other inForeign address contained
    have apart := (represents.foreign_disjoint member inForeign).symm
    exact (unchanged apart contained).trans
      (represents.untouched other inForeign address contained)

/-! ### Releasing -/

/-- Giving back the mapping of a block removes that block. -/
theorem release
    {region : Region} (member : region ∈ heap) :
    Represents layout foreign initial (heap.erase region)
      (Function.update blocks (region.start + layout.header) none)
      (system.unmap region) := by
  have block := represents.headers region member
  have heapApart := (List.pairwise_append.mp represents.apart).1
  have nodup := Region.nodup_of_disjoint heapApart
    fun other inHeap => represents.length_pos inHeap
  have cut : region.cut system.mappings = system.mappings.erase region :=
    Region.cut_eq_erase represents.mappings_apart block.member
      (represents.length_pos member)
  have erased : (heap ++ foreign).erase region =
      heap.erase region ++ foreign :=
    List.erase_append_left foreign member
  constructor
  case mappings =>
    change (region.cut system.mappings).Perm _
    rw [cut, ← erased]
    exact represents.mappings.erase region
  case apart =>
    exact represents.apart.sublist
      (List.Sublist.append List.erase_sublist (List.Sublist.refl foreign))
  case headers =>
    intro other inErased
    rcases nodup.mem_erase_iff.mp inErased with ⟨different, inHeap⟩
    have block := represents.headers other inHeap
    refine ⟨?_, block.inside, block.page, block.len⟩
    change other ∈ region.cut system.mappings
    rw [cut]
    exact (List.mem_erase_of_ne different).mpr block.member
  case live =>
    intro other inErased
    rcases nodup.mem_erase_iff.mp inErased with ⟨different, inHeap⟩
    rw [Function.update_of_ne fun same =>
      different (represents.eq_of_pointer inHeap member same)]
    exact represents.live other inHeap
  case placed =>
    intro ptr contents found
    have different : ptr ≠ region.start + layout.header := by
      rintro rfl
      rw [Function.update_self] at found
      exact absurd found (by simp)
    rw [Function.update_of_ne different] at found
    rcases represents.placed found with
      ⟨other, inHeap, address, room, holds⟩
    refine ⟨other, ?_, address, room, holds⟩
    rw [nodup.mem_erase_iff]
    refine ⟨?_, inHeap⟩
    rintro rfl
    exact different address
  case history =>
    change (replay system.calls).bind _ = _
    rw [represents.history]
    exact if_pos member
  case untouched => exact represents.untouched

end Represents

end Nolibc.Stdlib.HeapRefinement
