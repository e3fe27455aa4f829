import Nolibc.Stdlib.Heap

/-!
# What the heap calls do

One theorem for each function of the heap: which of its branches are taken and
what they leave behind, in terms of the mapped regions.  The kernel is only
assumed to map what it is asked for.
-/

set_option autoImplicit false

namespace Nolibc.Stdlib.Heap

open Nolibc.Machine
open Nolibc.Foundation
open Nolibc.Foundation.Word

/-! ## Accesses -/

/-- A part of a mapped region is accessible. -/
theorem accessible_at
    {system : System} {region : Region}
    (member : region ∈ system.mappings) (offset : Nat) {count : Nat}
    (inside : offset + count ≤ region.length) :
    system.Accessible (region.start + offset) count := by
  intro index below
  refine ⟨region, member, ?_, ?_⟩
  · omega
  · unfold Region.stop
    omega

/-- So is a part of accessible memory. -/
theorem accessible_part
    {system : System} {address count : Nat}
    (accessible : system.Accessible address count) (offset : Nat) {few : Nat}
    (inside : offset + few ≤ count) :
    system.Accessible (address + offset) few := by
  intro index below
  rw [Nat.add_assoc]
  exact accessible (offset + index) (by omega)

theorem loadBytes_eq
    {system : System} {address count : Nat}
    (accessible : system.Accessible address count) :
    loadBytes address count system =
      .ok (Memory.block system.memory address count) :=
  if_pos accessible

section Calls

variable {layout : Layout}

variable (layout) in
theorem storeBytes_eq
    {system : System} {address : Nat} {bytes : List Byte}
    (accessible : system.Accessible address bytes.length) :
    storeBytes layout address bytes system =
      .ok
        { system with
          memory := Memory.apply system.memory
            (Memory.burst layout.modulus address bytes) } :=
  if_pos accessible

/-- The length the header of a region holds. -/
def lenAt (layout : Layout) (memory : Nat → Byte) (heap : Nat) : Nat :=
  decode layout.endian (Memory.block memory heap layout.wordBytes)

/-- A mapping of a page or more whose header holds its length. -/
structure Block (layout : Layout) (system : System) (region : Region) :
    Prop where
  member : region ∈ system.mappings
  inside : region.stop ≤ layout.modulus
  page : 4096 ≤ region.length
  len : lenAt layout system.memory region.start = region.length

theorem lenAt_congr
    {left right : Nat → Byte} {heap : Nat}
    (same : ∀ index, index < layout.wordBytes →
      left (heap + index) = right (heap + index)) :
    lenAt layout left heap = lenAt layout right heap := by
  unfold lenAt
  rw [Memory.block_congr same]

theorem Block.holdsHeader
    {system : System} {region : Region}
    (block : Block layout system region) :
    layout.header < region.length :=
  lt_of_lt_of_le layout.small block.page

/-- A block stays one while it is mapped and its header is left alone. -/
theorem Block.congr
    {system next : System} {region : Region}
    (block : Block layout system region)
    (mapped : region ∈ next.mappings)
    (same : ∀ address, region.start ≤ address →
      address < region.start + layout.header →
        next.memory address = system.memory address) :
    Block layout next region := by
  refine ⟨mapped, block.inside, block.page, ?_⟩
  rw [← block.len]
  apply lenAt_congr
  intro index inWord
  have word := wordBytes_le_header layout
  exact same (region.start + index) (Nat.le_add_right _ _) (by omega)

theorem Block.userP_lt
    {system : System} {region : Region}
    (block : Block layout system region) :
    region.start + layout.header < layout.modulus := by
  have inside := block.inside
  have holds := block.holdsHeader
  unfold Region.stop at inside
  omega

/-- What is read as the length, whatever a header holds. -/
theorem loadLen_lenAt
    {system : System} {region : Region}
    (member : region ∈ system.mappings)
    (holds : layout.header < region.length) :
    loadLen layout region.start system =
      .ok (lenAt layout system.memory region.start) := by
  have word := wordBytes_le_header layout
  have accessible : system.Accessible region.start layout.wordBytes :=
    accessible_at member 0 (by omega)
  simp only [loadLen, loadBytes_eq accessible, bind, Except.bind]
  rfl

theorem loadLen_eq
    {system : System} {region : Region}
    (block : Block layout system region) :
    loadLen layout region.start system = .ok region.length := by
  rw [loadLen_lenAt block.member block.holdsHeader, block.len]

/-! ## The copy -/

variable (layout) in
/--
The copying loop succeeds where it may read and write, touches nothing outside
the destination, and copies when source and destination are apart.
-/
theorem memcpyFrom_eq
    {system : System} (dst src pos : Nat) {left : Nat}
    (sourceFits : src + pos + left ≤ layout.modulus)
    (destinationFits : dst + pos + left ≤ layout.modulus)
    (readable : system.Accessible (src + pos) left)
    (writable : system.Accessible (dst + pos) left) :
    ∃ memory,
      memcpyFrom layout dst src pos left system =
          .ok { system with memory } ∧
        (∀ address,
          address < dst + pos ∨ dst + pos + left ≤ address →
            memory address = system.memory address) ∧
        (dst + pos + left ≤ src + pos ∨ src + pos + left ≤ dst + pos →
          ∀ index, index < left →
            memory (dst + pos + index) =
              system.memory (src + pos + index)) := by
  induction left generalizing system pos with
  | zero =>
      refine ⟨system.memory, rfl, fun _ _ => rfl, ?_⟩
      intro _ index inside
      omega
  | succ left induction =>
      have readHere : system.Accessible (src + pos) 1 :=
        accessible_part readable 0 (by omega)
      have writeHere : system.Accessible (dst + pos) 1 :=
        accessible_part writable 0 (by omega)
      have sourceMod : (src + pos) % layout.modulus = src + pos :=
        Nat.mod_eq_of_lt (by omega)
      have destinationMod : (dst + pos) % layout.modulus = dst + pos :=
        Nat.mod_eq_of_lt (by omega)
      let next : System :=
        { system with
          memory := Function.update system.memory (dst + pos)
            (system.memory (src + pos)) }
      have readOn : next.Accessible (src + (pos + 1)) left :=
        accessible_part readable 1 (by omega)
      have writeOn : next.Accessible (dst + (pos + 1)) left :=
        accessible_part writable 1 (by omega)
      rcases induction (pos + 1) (by omega) (by omega) readOn writeOn with
        ⟨memory, copied, frame, copies⟩
      refine ⟨memory, ?_, ?_, ?_⟩
      · have stored :
            storeBytes layout (dst + pos) [system.memory (src + pos)]
                system = .ok next := by
          rw [storeBytes_eq _ writeHere]
          simp [Memory.burst, Memory.apply_singleton, destinationMod, next]
        have loaded :
            loadBytes (src + pos) 1 system =
              .ok [system.memory (src + pos)] :=
          loadBytes_eq readHere
        simp only [memcpyFrom, sourceMod, destinationMod, loaded, stored,
          bind, Except.bind, copied, next]
      · intro address outside
        rw [frame address (by omega)]
        exact Function.update_of_ne (by omega) _ _
      · intro apart index inside
        cases index with
        | zero =>
            rw [frame (dst + pos + 0) (by omega)]
            exact Function.update_self _ _ _
        | succ index =>
            have moved := copies (by omega) index (by omega)
            rw [show dst + pos + (index + 1) = dst + (pos + 1) + index by
                omega,
              show src + pos + (index + 1) = src + (pos + 1) + index by
                omega, moved]
            exact Function.update_of_ne (by omega) _ _

/-! ## The kernel -/

/-- A reply that maps what was asked for, or an error number. -/
def Reply.Legal (layout : Layout) (length : Nat) : Reply → Prop
  | .refused errnum => 1 ≤ errnum ∧ errnum ≤ 4095
  | .mapped start => 0 < length ∧ start + length ≤ layout.modulus

/-- A kernel that refuses or maps exactly the length it is given. -/
def Kernel.Exact (layout : Layout) (kernel : Kernel) : Prop :=
  ∀ length system, (kernel length system).Legal layout length

/-- A refused `mmap` returns `MAP_FAILED` and sets `errno`. -/
theorem mmap_refused
    {kernel : Kernel} (exact : kernel.Exact layout)
    {length errnum : Nat} {system : System}
    (reply : kernel length system = .refused errnum) :
    ∃ errnum, mmap layout kernel length system =
      (mapFailed layout, { system with errnum }) := by
  have legal := exact length system
  rw [reply] at legal
  rcases legal with ⟨lower, upper⟩
  have error : layout.modulus - errnum + 4095 ≥ layout.modulus := by
    omega
  refine ⟨BitVec.ofNat 32
    (layout.modulus - (layout.modulus - errnum)), ?_⟩
  simp only [mmap, sysMmap, reply, if_pos error]

/-- A mapping of a page or more is never taken for an error. -/
theorem mmap_mapped
    {kernel : Kernel} (exact : kernel.Exact layout)
    {length start : Nat} (pages : 0 < length → 4096 ≤ length)
    {system : System} (reply : kernel length system = .mapped start) :
    (4096 ≤ length ∧ start + length ≤ layout.modulus) ∧
      mmap layout kernel length system =
        (start, system.map ⟨start, length⟩) := by
  have legal := exact length system
  rw [reply] at legal
  rcases legal with ⟨nonempty, inside⟩
  have page := pages nonempty
  have noError : ¬ start + 4095 ≥ layout.modulus := by omega
  refine ⟨⟨page, inside⟩, ?_⟩
  simp only [mmap, sysMmap, reply, if_neg noError]

/-! ## `malloc` -/

/-- The system with a fresh region and its header. -/
def granted (layout : Layout) (system : System) (region : Region) :
    System :=
  { system.map region with
    memory := Memory.apply (system.map region).memory
      (Memory.burst layout.modulus region.start
        (encode layout.endian layout.wordBytes region.length)) }

/-- A region `malloc` can be granted. -/
structure Grantable (layout : Layout) (region : Region) : Prop where
  page : 4096 ≤ region.length
  inside : region.stop ≤ layout.modulus
  isSize : region.length < layout.modulus

namespace Grantable

variable {region : Region} (grantable : Grantable layout region)

include grantable

theorem word_fits :
    region.start +
        (encode layout.endian layout.wordBytes region.length).length ≤
      layout.modulus := by
  have page := grantable.page
  have inside := grantable.inside
  have word := wordBytes_le_header layout
  have small := layout.small
  rw [encode_length]
  unfold Region.stop at inside
  omega

theorem granted_memory (system : System) {address : Nat}
    (behind : address < region.start ∨
      region.start + layout.wordBytes ≤ address) :
    (granted layout system region).memory address =
      (system.map region).memory address := by
  apply Memory.apply_burst_frame _ grantable.word_fits
  rw [encode_length]
  exact behind

theorem lenAt_granted (system : System) :
    lenAt layout (granted layout system region).memory region.start =
      region.length := by
  have readBack := Memory.block_apply_burst (system.map region).memory _ _ _
    grantable.word_fits
  rw [encode_length] at readBack
  rw [lenAt, granted, readBack]
  apply decode_encode
  rw [pow_wordBytes]
  exact grantable.isSize

/-- Behind the header a granted region reads as zeros. -/
theorem granted_zero
    (system : System) {index : Nat} (behind : layout.header ≤ index)
    (inside : index < region.length) :
    (granted layout system region).memory (region.start + index) = 0 := by
  have word := wordBytes_le_header layout
  have contained : region.Contains (region.start + index) :=
    ⟨Nat.le_add_right _ _, Nat.add_lt_add_left inside _⟩
  rw [grantable.granted_memory system (by omega)]
  exact if_pos contained

theorem granted_zeros
    (system : System) {count : Nat}
    (inside : layout.header + count ≤ region.length) :
    Memory.block (granted layout system region).memory
        (region.start + layout.header) count =
      List.replicate count 0 := by
  rw [Memory.block, List.eq_replicate_iff]
  constructor
  · simp
  · intro byte member
    rcases List.mem_map.mp member with ⟨index, inRange, rfl⟩
    rw [List.mem_range] at inRange
    rw [Nat.add_assoc]
    exact grantable.granted_zero system (Nat.le_add_right _ _) (by omega)

/-- Outside the region nothing changes. -/
theorem granted_frame
    (system : System) {address : Nat}
    (outside : ¬ region.Contains address) :
    (granted layout system region).memory address =
      system.memory address := by
  have word := wordBytes_le_header layout
  have small := layout.small
  have page := grantable.page
  have behind :
      address < region.start ∨
        region.start + layout.wordBytes ≤ address := by
    by_contra within
    apply outside
    constructor
    · omega
    · unfold Region.stop
      omega
  rw [grantable.granted_memory system behind]
  exact if_neg outside

theorem userP_lt : region.start + layout.header < layout.modulus := by
  have page := grantable.page
  have inside := grantable.inside
  have small := layout.small
  unfold Region.stop at inside
  omega

/-- Writing the header of a fresh region cannot fault. -/
theorem storeLen_map (system : System) :
    storeLen layout region.start region.length (system.map region) =
      .ok (granted layout system region) := by
  have page := grantable.page
  have word := wordBytes_le_header layout
  have small := layout.small
  have member : region ∈ (system.map region).mappings :=
    List.mem_cons_self
  apply storeBytes_eq
  rw [encode_length]
  exact accessible_at member 0 (by omega)

theorem block_granted (system : System) :
    Block layout (granted layout system region) region where
  member := List.mem_cons_self
  inside := grantable.inside
  page := grantable.page
  len := grantable.lenAt_granted system

end Grantable

theorem malloc_of_mmap
    {kernel : Kernel} {len heap : Nat} {system mapped : System}
    (call : mmap layout kernel (mappingLength layout len) system =
      (heap, mapped)) :
    malloc layout kernel len system =
      if heap = mapFailed layout then
        pure (0, mapped)
      else
        storeLen layout heap (mappingLength layout len) mapped >>=
          fun stored => pure (userP layout heap, stored) := by
  rw [malloc, call]

theorem malloc_refused
    {kernel : Kernel} (exact : kernel.Exact layout) {len errnum : Nat}
    {system : System}
    (reply : kernel (mappingLength layout len) system =
      .refused errnum) :
    ∃ errnum, malloc layout kernel len system =
      .ok (0, { system with errnum }) := by
  rcases mmap_refused exact reply with ⟨errnum, failed⟩
  refine ⟨errnum, ?_⟩
  rw [malloc_of_mmap failed, if_pos rfl]
  rfl

theorem malloc_mapped
    {kernel : Kernel} (exact : kernel.Exact layout) {len start : Nat}
    {system : System}
    (reply : kernel (mappingLength layout len) system = .mapped start) :
    Grantable layout ⟨start, mappingLength layout len⟩ ∧
      malloc layout kernel len system =
        .ok (start + layout.header,
          granted layout system ⟨start, mappingLength layout len⟩) := by
  rcases mmap_mapped exact (page_le_mappingLength layout) reply with
    ⟨⟨page, inside⟩, mapped⟩
  have grantable : Grantable layout ⟨start, mappingLength layout len⟩ :=
    ⟨page, inside, mappingLength_lt layout len⟩
  have notFailed : start ≠ mapFailed layout := by
    unfold mapFailed
    omega
  have address : userP layout start = start + layout.header :=
    userP_eq layout grantable.userP_lt
  have stored := grantable.storeLen_map system
  refine ⟨grantable, ?_⟩
  rw [malloc_of_mmap mapped, if_neg notFailed, stored, address]
  rfl

/--
`malloc` returns `NULL` and at most sets `errno`, or is granted a region of
the length it asks for and returns the address behind its header.
-/
theorem malloc_cases
    {kernel : Kernel} (exact : kernel.Exact layout) (len : Nat)
    (system : System) :
    (∃ errnum, malloc layout kernel len system =
        .ok (0, { system with errnum })) ∨
      ∃ start, kernel (mappingLength layout len) system = .mapped start ∧
        Grantable layout ⟨start, mappingLength layout len⟩ ∧
        malloc layout kernel len system =
          .ok (start + layout.header,
            granted layout system
              ⟨start, mappingLength layout len⟩) := by
  cases reply : kernel (mappingLength layout len) system with
  | refused errnum => exact Or.inl (malloc_refused exact reply)
  | mapped start => exact Or.inr ⟨start, rfl, malloc_mapped exact reply⟩

/-! ## `calloc` -/

/-- A product that is a `size_t` is what `malloc` is called with. -/
theorem calloc_of_fits
    {size nmemb : Nat} (fits : size * nmemb < layout.modulus)
    (kernel : Kernel) (system : System) :
    calloc layout kernel size nmemb system =
      malloc layout kernel (size * nmemb) system := by
  have exactQuotient : ¬ (size ≠ 0 ∧ size * nmemb / size ≠ nmemb) := by
    rintro ⟨nonzero, differs⟩
    exact differs (Nat.mul_div_cancel_left nmemb
      (Nat.pos_of_ne_zero nonzero))
  rw [calloc]
  simp only [Nat.mod_eq_of_lt fits, if_neg exactQuotient]

/-- A product that is not a `size_t` is refused. -/
theorem calloc_of_overflow
    {size nmemb : Nat} (overflow : layout.modulus ≤ size * nmemb)
    (kernel : Kernel) (system : System) :
    calloc layout kernel size nmemb system =
      .ok (0, { system with errnum := ENOMEM }) := by
  have positive : 0 < layout.modulus := Nat.two_pow_pos _
  have wrapped :=
    Nat.mod_lt (size * nmemb) positive
  have refused :
      size ≠ 0 ∧ size * nmemb % layout.modulus / size ≠ nmemb := by
    constructor
    · rintro rfl
      rw [Nat.zero_mul] at overflow
      omega
    · intro equal
      have atMost :=
        Nat.div_mul_le_self (size * nmemb % layout.modulus) size
      rw [equal, Nat.mul_comm] at atMost
      omega
  rw [calloc]
  simp only [if_pos refused]
  rfl

/-! ## `realloc` -/

theorem Block.capacity
    {system : System} {region : Region}
    (block : Block layout system region) :
    (layout.modulus + region.length - layout.header) % layout.modulus =
      region.length - layout.header := by
  have holds := block.holdsHeader
  have header := header_pos layout
  have inside := block.inside
  unfold Region.stop at inside
  have split : layout.modulus + region.length - layout.header =
      region.length - layout.header + layout.modulus := by
    omega
  rw [split, Nat.add_mod_right]
  exact Nat.mod_eq_of_lt (by omega)

theorem userP_ne_zero (layout : Layout) (start : Nat) :
    start + layout.header ≠ 0 := by
  have header := header_pos layout
  omega

theorem realloc_null
    (kernel : Kernel) (newSize : Nat) (system : System) :
    realloc layout kernel 0 newSize system =
      malloc layout kernel newSize system := by
  rw [realloc, if_pos rfl]

/-- A block with room enough stays where it is. -/
theorem realloc_in_place
    {system : System} {old : Region} (block : Block layout system old)
    {newSize : Nat} (roomy : newSize ≤ old.length - layout.header)
    (kernel : Kernel) :
    realloc layout kernel (old.start + layout.header) newSize system =
      .ok (old.start + layout.header, system) := by
  rw [realloc, if_neg (userP_ne_zero layout old.start),
    containerOf_add layout block.userP_lt]
  simp only [loadLen_eq block, block.capacity, bind, Except.bind,
    if_pos roomy]
  rfl

/-- When `malloc` fails, the old block is left alone. -/
theorem realloc_failed
    {system : System} {old : Region} (block : Block layout system old)
    {newSize : Nat} (grows : old.length - layout.header < newSize)
    {kernel : Kernel} {next : System}
    (called : malloc layout kernel newSize system = .ok (0, next)) :
    realloc layout kernel (old.start + layout.header) newSize system =
      .ok (0, next) := by
  rw [realloc, if_neg (userP_ne_zero layout old.start),
    containerOf_add layout block.userP_lt]
  simp only [loadLen_eq block, block.capacity, bind, Except.bind,
    if_neg (Nat.not_le_of_lt grows), called]
  rfl

/--
When `malloc` succeeds, the old block is copied as far as it went and its
mapping is given back, with the length its header then holds.
-/
theorem realloc_moved
    {system : System} {old new : Region} (block : Block layout system old)
    {newSize : Nat} (grows : old.length - layout.header < newSize)
    {kernel : Kernel}
    (called : malloc layout kernel newSize system =
      .ok (new.start + layout.header, granted layout system new))
    (fits : new.start + old.length ≤ layout.modulus)
    (writable : (granted layout system new).Accessible
      (new.start + layout.header) (old.length - layout.header)) :
    ∃ memory,
      realloc layout kernel (old.start + layout.header) newSize system =
          .ok (new.start + layout.header,
            ({ granted layout system new with memory } : System).unmap
              ⟨old.start, lenAt layout memory old.start⟩) ∧
        (∀ address,
          address < new.start + layout.header ∨
              new.start + old.length ≤ address →
            memory address =
              (granted layout system new).memory address) ∧
        (old.Disjoint new → old.length ≤ new.length →
          ∀ index, index < old.length - layout.header →
            memory (new.start + layout.header + index) =
              (granted layout system new).memory
                (old.start + layout.header + index)) := by
  have holds := block.holdsHeader
  have inside := block.inside
  have word := wordBytes_le_header layout
  have member : old ∈ (granted layout system new).mappings :=
    List.mem_cons_of_mem _ block.member
  have readable : (granted layout system new).Accessible
      (old.start + layout.header) (old.length - layout.header) :=
    accessible_at member _ (by omega)
  unfold Region.stop at inside
  have header := header_pos layout
  rcases memcpyFrom_eq layout (new.start + layout.header)
      (old.start + layout.header) 0 (by omega) (by omega) readable writable
    with ⟨memory, copied, frame, copies⟩
  refine ⟨memory, ?_, ?_, ?_⟩
  · have stillMapped :
        old ∈ ({ granted layout system new with memory } : System).mappings :=
      member
    have relen := loadLen_lenAt stillMapped holds
    rw [realloc, if_neg (userP_ne_zero layout old.start),
      containerOf_add layout block.userP_lt]
    simp only [loadLen_eq block, block.capacity, bind, Except.bind,
      if_neg (Nat.not_le_of_lt grows), called,
      if_neg (userP_ne_zero layout new.start),
      userP_eq layout block.userP_lt, memcpy, copied, relen]
    rfl
  · intro address outside
    exact frame address (by omega)
  · intro apart shorter index inCopy
    unfold Region.Disjoint Region.stop at apart
    exact copies (by omega) index inCopy

/-! ## `free` -/

/-- A block is given back as it was mapped. -/
theorem free_block
    {system : System} {region : Region}
    (block : Block layout system region) :
    free layout (region.start + layout.header) system =
      .ok (system.unmap region) := by
  rw [free, if_neg (userP_ne_zero layout region.start),
    containerOf_add layout block.userP_lt]
  simp only [loadLen_eq block, bind, Except.bind]
  rfl

end Calls

end Nolibc.Stdlib.Heap
