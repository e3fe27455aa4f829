import Nolibc.Stdlib.HeapCalls

/-!
# Capacity of the blocks handed out

A block must hold as many bytes as were asked for.  The request goes through
an addition of the header and a rounding up to pages, both modulo the size of
the address space, and `requests_sufficient_iff` says exactly which requests
survive this.  Those that do not are the ones whose sum with the header wraps:
they are given a single page.
-/

set_option autoImplicit false

namespace Nolibc.Stdlib.HeapCapacity

open Nolibc.Machine
open Nolibc.Foundation
open Nolibc.Stdlib.Heap

variable {layout : Layout}

/-! ## Requests -/

/-- A call that may return a block. -/
inductive Request where
  | malloc (len : Nat)
  | calloc (size nmemb : Nat)
  | realloc (ptr newSize : Nat)
  deriving DecidableEq, Repr

namespace Request

/-- The call that a request is about. -/
def run (layout : Layout) (kernel : Kernel) (system : System) :
    Request → Except Fault (Nat × System)
  | malloc len => Heap.malloc layout kernel len system
  | calloc size nmemb => Heap.calloc layout kernel size nmemb system
  | realloc ptr newSize => Heap.realloc layout kernel ptr newSize system

/-- The number of bytes asked for, as a number. -/
def bytes : Request → Nat
  | malloc len => len
  | calloc size nmemb => size * nmemb
  | realloc _ newSize => newSize

/-- The sizes are `size_t`, and a pointer is that of a block or `NULL`. -/
def Valid (layout : Layout) (system : System) : Request → Prop
  | malloc len => len < layout.modulus
  | calloc size nmemb => size < layout.modulus ∧ nmemb < layout.modulus
  | realloc ptr newSize =>
      newSize < layout.modulus ∧
        (ptr = 0 ∨
          ∃ region, Block layout system region ∧
            ptr = region.start + layout.header)

end Request

/-- `heap->len - sizeof(struct nolibc_heap)` for a pointer. -/
def capacity (layout : Layout) (memory : Nat → Byte) (ptr : Nat) : Nat :=
  lenAt layout memory (containerOf layout ptr) - layout.header

/-- Whatever the kernel does, a returned block holds what was asked for. -/
def Sufficient (layout : Layout) (system : System) (request : Request) :
    Prop :=
  ∀ kernel : Kernel, kernel.Exact layout → ∀ ptr next,
    request.run layout kernel system = .ok (ptr, next) → ptr ≠ 0 →
      request.bytes ≤ capacity layout next.memory ptr

/--
The request and the header do not wrap; or `calloc` refuses the product; or
the old block of `realloc` has room enough.
-/
def NoWrap (layout : Layout) (system : System) : Request → Prop
  | .malloc len => layout.header + len ≤ layout.modulus
  | .calloc size nmemb =>
      layout.modulus ≤ size * nmemb ∨
        layout.header + size * nmemb ≤ layout.modulus
  | .realloc ptr newSize =>
      ptr ≠ 0 ∧ newSize ≤ capacity layout system.memory ptr ∨
        layout.header + newSize ≤ layout.modulus

/-! ## `malloc` -/

theorem capacity_of_len
    {memory : Nat → Byte} {region : Region}
    (address : region.start + layout.header < layout.modulus)
    (len : lenAt layout memory region.start = region.length) :
    capacity layout memory (region.start + layout.header) =
      region.length - layout.header := by
  rw [capacity, containerOf_add layout address, len]

theorem capacity_of_block
    {system : System} {region : Region}
    (block : Block layout system region) :
    capacity layout system.memory (region.start + layout.header) =
      region.length - layout.header :=
  capacity_of_len block.userP_lt block.len

/-- A sum that does not wrap is granted in full, when it is granted. -/
theorem mappingLength_of_noWrap
    {len : Nat} (noWrap : layout.header + len ≤ layout.modulus)
    (positive : 4096 ≤ mappingLength layout len) :
    layout.header + len ≤ mappingLength layout len := by
  by_cases fits : layout.header + len + 4095 < layout.modulus
  · exact mappingLength_of_fits layout fits
  · have zero := mappingLength_of_edge layout noWrap (Nat.le_of_not_lt fits)
    omega

theorem malloc_sufficient
    {system : System} {len : Nat}
    (noWrap : layout.header + len ≤ layout.modulus) :
    Sufficient layout system (.malloc len) := by
  intro kernel exact ptr next called nonnull
  rw [Request.run] at called
  rcases malloc_cases exact len system with
    ⟨errnum, failed⟩ | ⟨start, _, grantable, succeeded⟩
  · rw [failed, Except.ok.injEq, Prod.mk.injEq] at called
    exact absurd called.1.symm nonnull
  · rw [succeeded, Except.ok.injEq, Prod.mk.injEq] at called
    rcases called with ⟨rfl, rfl⟩
    have holds := mappingLength_of_noWrap noWrap grantable.page
    rw [capacity_of_block (grantable.block_granted system), Request.bytes]
    exact Nat.le_sub_of_add_le (by rwa [Nat.add_comm])

/-- A kernel that maps at one address whenever there is room behind it. -/
def mapsAt (layout : Layout) (start : Nat) : Kernel :=
  fun length _ =>
    if 0 < length ∧ start + length ≤ layout.modulus then
      .mapped start
    else
      .refused 12

theorem mapsAt_exact (start : Nat) :
    (mapsAt layout start).Exact layout := by
  intro length system
  unfold mapsAt
  split_ifs with room
  · exact room
  · exact ⟨by decide, by decide⟩

variable (layout) in
/-- A sum that wraps can be granted a single page. -/
theorem malloc_wraps
    (len start : Nat) (isSize : len < layout.modulus)
    (wraps : layout.modulus < layout.header + len)
    (room : start + 4096 ≤ layout.modulus) (system : System) :
    Grantable layout ⟨start, 4096⟩ ∧
      malloc layout (mapsAt layout start) len system =
        .ok (start + layout.header,
          granted layout system ⟨start, 4096⟩) := by
  have page := mappingLength_of_wraps layout isSize wraps
  have reply :
      mapsAt layout start (mappingLength layout len) system =
        .mapped start := by
    rw [page, mapsAt, if_pos ⟨by decide, room⟩]
  have called := malloc_mapped (mapsAt_exact start) reply
  rwa [page] at called

theorem page_le_modulus (layout : Layout) : 4096 ≤ layout.modulus := by
  rcases modulus_cases layout with modulus | modulus <;>
    rw [modulus] <;> decide

theorem malloc_insufficient
    {system : System} {len : Nat} (isSize : len < layout.modulus)
    (wraps : layout.modulus < layout.header + len) :
    ¬ Sufficient layout system (.malloc len) := by
  intro sufficient
  have room := page_le_modulus layout
  have small := layout.small
  rcases malloc_wraps _ _ _ isSize wraps (by omega) system with
    ⟨grantable, called⟩
  have enough := sufficient (mapsAt layout 0) (mapsAt_exact 0) _ _ called
    (userP_ne_zero layout 0)
  rw [capacity_of_block (grantable.block_granted system),
    Request.bytes] at enough
  simp only at enough
  omega

theorem malloc_sufficient_iff
    {system : System} {len : Nat} (isSize : len < layout.modulus) :
    Sufficient layout system (.malloc len) ↔
      layout.header + len ≤ layout.modulus := by
  constructor
  · intro sufficient
    by_contra wraps
    exact malloc_insufficient isSize (Nat.lt_of_not_le wraps) sufficient
  · exact malloc_sufficient

/-! ## `calloc` -/

theorem calloc_sufficient_iff
    {system : System} {size nmemb : Nat} :
    Sufficient layout system (.calloc size nmemb) ↔
      NoWrap layout system (.calloc size nmemb) := by
  by_cases overflow : layout.modulus ≤ size * nmemb
  · constructor
    · intro _
      exact Or.inl overflow
    · intro _ kernel _ ptr next called nonnull
      rw [Request.run, calloc_of_overflow overflow, Except.ok.injEq,
        Prod.mk.injEq] at called
      exact absurd called.1.symm nonnull
  · have fits := Nat.lt_of_not_le overflow
    have same :
        Sufficient layout system (.calloc size nmemb) ↔
          Sufficient layout system (.malloc (size * nmemb)) := by
      simp only [Sufficient, Request.run, Request.bytes,
        calloc_of_fits fits]
    rw [same, malloc_sufficient_iff fits, NoWrap]
    constructor
    · exact Or.inr
    · intro noWrap
      exact noWrap.resolve_left overflow

/-! ## `realloc` -/

/-- The header of a moved block is the one `malloc` wrote. -/
theorem lenAt_moved
    {system : System} {new : Region} (grantable : Grantable layout new)
    {memory : Nat → Byte} {stop : Nat}
    (frame : ∀ address,
      address < new.start + layout.header ∨ stop ≤ address →
        memory address = (granted layout system new).memory address) :
    lenAt layout memory new.start = new.length := by
  have word := wordBytes_le_header layout
  rw [← grantable.lenAt_granted system]
  apply lenAt_congr
  intro index inWord
  exact frame _ (Or.inl (by omega))

/-- A block that must move is sufficient when the sum does not wrap. -/
theorem realloc_moved_sufficient
    {system : System} {old : Region} (block : Block layout system old)
    {newSize : Nat} (grows : old.length - layout.header < newSize)
    (noWrap : layout.header + newSize ≤ layout.modulus) :
    Sufficient layout system
      (.realloc (old.start + layout.header) newSize) := by
  intro kernel exact ptr next called nonnull
  rw [Request.run] at called
  rcases malloc_cases exact newSize system with
    ⟨errnum, failed⟩ | ⟨start, _, grantable, succeeded⟩
  · rw [realloc_failed block grows failed, Except.ok.injEq,
      Prod.mk.injEq] at called
    exact absurd called.1.symm nonnull
  · have holds := mappingLength_of_noWrap noWrap grantable.page
    have inside := grantable.inside
    have holdsHeader := block.holdsHeader
    have writable :
        (granted layout system
          ⟨start, mappingLength layout newSize⟩).Accessible
            (start + layout.header) (old.length - layout.header) :=
      accessible_at (grantable.block_granted system).member _ (by
        simp only
        omega)
    unfold Region.stop at inside
    simp only at inside
    rcases realloc_moved block grows succeeded (by simp only; omega)
        writable with ⟨memory, moved, frame, _⟩
    rw [moved, Except.ok.injEq, Prod.mk.injEq] at called
    rcases called with ⟨rfl, rfl⟩
    have len := lenAt_moved grantable frame
    change newSize ≤ capacity layout memory (start + layout.header)
    have size := capacity_of_len grantable.userP_lt len
    rw [size]
    exact Nat.le_sub_of_add_le (by rwa [Nat.add_comm])

/--
When the sum wraps, the old block is copied into a single page.  The kernel
here maps the page over the old block, so that the copy cannot fault.
-/
theorem realloc_insufficient
    {system : System} {old : Region} (block : Block layout system old)
    {newSize : Nat} (grows : old.length - layout.header < newSize)
    (isSize : newSize < layout.modulus)
    (wraps : layout.modulus < layout.header + newSize) :
    ¬ Sufficient layout system
      (.realloc (old.start + layout.header) newSize) := by
  intro sufficient
  have inside := block.inside
  have page := block.page
  unfold Region.stop at inside
  rcases malloc_wraps _ _ _ isSize wraps (show old.start + 4096 ≤ _ by omega)
      system with
    ⟨grantable, called⟩
  have writable :
      (granted layout system ⟨old.start, 4096⟩).Accessible
        (old.start + layout.header) (old.length - layout.header) := by
    have holdsHeader := block.holdsHeader
    have member : old ∈ (granted layout system ⟨old.start, 4096⟩).mappings :=
      List.mem_cons_of_mem _ block.member
    exact accessible_at member _ (by omega)
  have fits :
      (⟨old.start, 4096⟩ : Region).start + old.length ≤ layout.modulus :=
    inside
  rcases realloc_moved block grows called fits writable with
    ⟨memory, moved, frame, _⟩
  have enough := sufficient (mapsAt layout old.start)
    (mapsAt_exact old.start) _ _ moved (userP_ne_zero layout old.start)
  have len := lenAt_moved grantable frame
  change newSize ≤ capacity layout memory (old.start + layout.header)
    at enough
  have size := capacity_of_len grantable.userP_lt len
  simp only at size
  rw [size] at enough
  have small := layout.small
  omega

theorem realloc_sufficient_iff
    {system : System} {old : Region} (block : Block layout system old)
    {newSize : Nat} (isSize : newSize < layout.modulus) :
    Sufficient layout system
        (.realloc (old.start + layout.header) newSize) ↔
      NoWrap layout system
        (.realloc (old.start + layout.header) newSize) := by
  rw [NoWrap, capacity_of_block block]
  by_cases roomy : newSize ≤ old.length - layout.header
  · constructor
    · intro _
      exact Or.inl ⟨userP_ne_zero layout old.start, roomy⟩
    · intro _ kernel _ ptr next called _
      rw [Request.run, realloc_in_place block roomy, Except.ok.injEq,
        Prod.mk.injEq] at called
      rcases called with ⟨rfl, rfl⟩
      rw [capacity_of_block block]
      exact roomy
  · have grows := Nat.lt_of_not_le roomy
    constructor
    · intro sufficient
      by_contra wraps
      rcases not_or.mp wraps with ⟨_, sum⟩
      exact realloc_insufficient block grows isSize (Nat.lt_of_not_le sum)
        sufficient
    · intro noWrap
      rcases noWrap with ⟨_, stays⟩ | sum
      · exact absurd stays roomy
      · exact realloc_moved_sufficient block grows sum

/-! ## All requests -/

/--
Whatever the kernel does, the block returned for a request holds as many bytes
as were asked for exactly when the request does not wrap.
-/
theorem requests_sufficient_iff
    (layout : Layout) (system : System) (request : Request)
    (valid : request.Valid layout system) :
    Sufficient layout system request ↔ NoWrap layout system request := by
  cases request with
  | malloc len => exact malloc_sufficient_iff valid
  | calloc size nmemb => exact calloc_sufficient_iff
  | realloc ptr newSize =>
      rcases valid with ⟨isSize, rfl | ⟨region, block, rfl⟩⟩
      · have same :
            Sufficient layout system (.realloc 0 newSize) ↔
              Sufficient layout system (.malloc newSize) := by
          simp only [Sufficient, Request.run, Request.bytes, realloc_null]
        rw [same, malloc_sufficient_iff isSize, NoWrap]
        simp
      · exact realloc_sufficient_iff block isSize

/-- A process that has mapped nothing. -/
def blank : System :=
  ⟨fun _ => 0, [], [], 0⟩

/--
`malloc(SIZE_MAX)`: the sum with the header wraps to 15 bytes, a single page
is mapped, and its address is returned.
-/
theorem malloc_sizeMax_insufficient :
    (Request.malloc (2 ^ 64 - 1)).Valid Layout.x86_64 blank ∧
      ∃ ptr next,
        malloc Layout.x86_64 (mapsAt Layout.x86_64 65536) (2 ^ 64 - 1) blank =
            .ok (ptr, next) ∧
          ptr ≠ 0 ∧ (mapsAt Layout.x86_64 65536).Exact Layout.x86_64 ∧
          ¬ 2 ^ 64 - 1 ≤ capacity Layout.x86_64 next.memory ptr := by
  refine ⟨show 2 ^ 64 - 1 < 2 ^ 64 by decide, ?_⟩
  rcases malloc_wraps Layout.x86_64 (2 ^ 64 - 1) 65536 (by decide) (by decide)
      (by decide) blank with
    ⟨grantable, called⟩
  refine ⟨_, _, called, userP_ne_zero Layout.x86_64 65536,
    mapsAt_exact 65536, ?_⟩
  have size := capacity_of_block (grantable.block_granted blank)
  simp only at size
  rw [size]
  decide

theorem requests_sufficient_iff_page :
    Sufficient Layout.x86_64 blank (.malloc 4096) ↔
      NoWrap Layout.x86_64 blank (.malloc 4096) :=
  requests_sufficient_iff Layout.x86_64 blank (.malloc 4096)
    (show 4096 < 2 ^ 64 by decide)

end Nolibc.Stdlib.HeapCapacity
