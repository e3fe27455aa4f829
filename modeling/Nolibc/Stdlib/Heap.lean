import Mathlib.Data.Nat.Bitwise
import Nolibc.Foundation.Memory
import Nolibc.Foundation.Region
import Nolibc.Foundation.Word
import Nolibc.Machine

/-!
# The heap

Every block of the nolibc heap is a mapping of its own: `malloc` asks the
kernel for one, keeps its length in a header at its start and hands out the
address behind the header.  There is no other bookkeeping.

The memory of the process, the mappings of the kernel and `errno` are explicit
here.  An access to an address that is not mapped is a fault.  The kernel is a
parameter which chooses the reply to each `mmap`; the arguments of that call
other than the length are constants and are left out.  `memcpy` is the generic
one of `string.h`.
-/

set_option autoImplicit false

namespace Nolibc.Stdlib.Heap

open Nolibc.Machine
open Nolibc.Foundation
open Nolibc.Foundation.Word

/-! ## The machine -/

/--
What the compiler makes of `struct nolibc_heap`.  The flexible array member
`user_p` has the largest alignment of the target and begins where the size of
the structure ends.
-/
structure Layout where
  target : Target
  endian : Endian
  /-- `sizeof(struct nolibc_heap)`, also the offset of `user_p`. -/
  header : Nat
  holdsLen : target.longBits / 8 ≤ header
  small : header < 4096

namespace Layout

/-- The layout on x86-64. -/
def x86_64 : Layout :=
  ⟨.x86_64, .little, 16, by decide, by decide⟩

variable (layout : Layout)

/-- One more than the greatest `size_t`. -/
def modulus : Nat :=
  2 ^ layout.target.longBits

/-- `sizeof(size_t)`. -/
def wordBytes : Nat :=
  layout.target.longBits / 8

end Layout

/-- A change of the mappings, as the kernel sees it. -/
inductive MapCall where
  | mapped (region : Region)
  | unmapped (region : Region)
  deriving DecidableEq, Repr

/-- The memory, the mappings with the calls that changed them, and `errno`. -/
structure System where
  memory : Nat → Byte
  mappings : List Region
  /-- The calls made so far, latest first. -/
  calls : List MapCall
  errnum : Errno

/-- The reply of the kernel to an `mmap`. -/
inductive Reply where
  | refused (errnum : Nat)
  | mapped (start : Nat)
  deriving DecidableEq, Repr

/-- A kernel replies to the length of an `mmap`. -/
abbrev Kernel : Type :=
  Nat → System → Reply

namespace System

/-- An address is in some mapping. -/
def Mapped (system : System) (address : Nat) : Prop :=
  ∃ region ∈ system.mappings, region.Contains address

instance (system : System) (address : Nat) :
    Decidable (system.Mapped address) :=
  inferInstanceAs (Decidable (∃ region ∈ system.mappings, _))

/-- Whether all of a block may be accessed. -/
def Accessible (system : System) (address count : Nat) : Prop :=
  ∀ index, index < count → system.Mapped (address + index)

instance (system : System) (address count : Nat) :
    Decidable (system.Accessible address count) :=
  inferInstanceAs (Decidable (∀ index, index < count → _))

/-- Map a range of zeros. -/
def map (system : System) (region : Region) : System :=
  { system with
    memory := fun address =>
      if region.Contains address then 0 else system.memory address
    mappings := region :: system.mappings
    calls := .mapped region :: system.calls }

/-- Unmap exactly a range. -/
def unmap (system : System) (region : Region) : System :=
  { system with
    mappings := region.cut system.mappings
    calls := .unmapped region :: system.calls }

end System

section Code

variable (layout : Layout)

/-- The load of bytes, all of which must be mapped. -/
def loadBytes (address count : Nat) (system : System) :
    Except Fault (List Byte) :=
  if system.Accessible address count then
    .ok (Memory.block system.memory address count)
  else
    .error .outOfBounds

/-- The store of bytes, all of which must be mapped. -/
def storeBytes (address : Nat) (bytes : List Byte) (system : System) :
    Except Fault System :=
  if system.Accessible address bytes.length then
    .ok
      { system with
        memory := Memory.apply system.memory
          (Memory.burst layout.modulus address bytes) }
  else
    .error .outOfBounds

/-- The value of `heap->len`. -/
def loadLen (heap : Nat) (system : System) : Except Fault Nat := do
  let bytes ← loadBytes heap layout.wordBytes system
  pure (decode layout.endian bytes)

/-- `heap->len = len` -/
def storeLen (heap len : Nat) (system : System) : Except Fault System :=
  storeBytes layout heap (encode layout.endian layout.wordBytes len) system

/-! ## `sys/mman.h` -/

/-- `sys_mmap`: the reply as it comes out of the system call. -/
def sysMmap (kernel : Kernel) (length : Nat) (system : System) :
    Nat × System :=
  match kernel length system with
  | .refused errnum => (layout.modulus - errnum, system)
  | .mapped start => (start, system.map ⟨start, length⟩)

/-- `MAP_FAILED` -/
def mapFailed : Nat :=
  layout.modulus - 1

/-- `mmap`; the test is `(unsigned long)ret >= -4095UL`. -/
def mmap (kernel : Kernel) (length : Nat) (system : System) :
    Nat × System :=
  let (ret, system) := sysMmap layout kernel length system
  if ret + 4095 ≥ layout.modulus then
    (mapFailed layout,
      { system with errnum := BitVec.ofNat 32 (layout.modulus - ret) })
  else
    (ret, system)

/-- `munmap`, whose result no caller here looks at. -/
def munmap (address length : Nat) (system : System) : System :=
  system.unmap ⟨address, length⟩

/-! ## `stdlib.h` -/

/-- `container_of(ptr, struct nolibc_heap, user_p)` -/
def containerOf (ptr : Nat) : Nat :=
  (layout.modulus + ptr - layout.header) % layout.modulus

/-- `heap->user_p` -/
def userP (heap : Nat) : Nat :=
  (heap + layout.header) % layout.modulus

/-- The copying loop of `memcpy` from `pos` on. -/
def memcpyFrom (dst src pos : Nat) : Nat → System → Except Fault System
  | 0, system => pure system
  | left + 1, system => do
      let bytes ← loadBytes ((src + pos) % layout.modulus) 1 system
      let system ←
        storeBytes layout ((dst + pos) % layout.modulus) bytes system
      memcpyFrom dst src (pos + 1) left system

/-- `memcpy` of `string.h`, between two blocks. -/
def memcpy (dst src len : Nat) (system : System) : Except Fault System :=
  memcpyFrom layout dst src 0 len system

/-- The length `malloc` asks `mmap` for. -/
def mappingLength (len : Nat) : Nat :=
  let len := (layout.header + len) % layout.modulus
  (len + 4095) % layout.modulus &&& (layout.modulus - 4096)

/-- `malloc`: a mapping of its own for every block. -/
def malloc (kernel : Kernel) (len : Nat) (system : System) :
    Except Fault (Nat × System) := do
  let len := mappingLength layout len
  let (heap, system) := mmap layout kernel len system
  if heap = mapFailed layout then
    pure (0, system)
  else
    let system ← storeLen layout heap len system
    pure (userP layout heap, system)

/-- `calloc`, which tests the product for overflow. -/
def calloc (kernel : Kernel) (size nmemb : Nat) (system : System) :
    Except Fault (Nat × System) :=
  let x := size * nmemb % layout.modulus
  if size ≠ 0 ∧ x / size ≠ nmemb then
    pure (0, { system with errnum := ENOMEM })
  else
    malloc layout kernel x system

/-- `realloc`, which moves a block that does not suffice. -/
def realloc (kernel : Kernel) (oldPtr newSize : Nat) (system : System) :
    Except Fault (Nat × System) := do
  if oldPtr = 0 then
    malloc layout kernel newSize system
  else
    let heap := containerOf layout oldPtr
    let len ← loadLen layout heap system
    let userPLen := (layout.modulus + len - layout.header) % layout.modulus
    if userPLen ≥ newSize then
      pure (oldPtr, system)
    else
      let (ret, system) ← malloc layout kernel newSize system
      if ret = 0 then
        pure (0, system)
      else
        let system ← memcpy layout ret (userP layout heap) userPLen system
        let len ← loadLen layout heap system
        pure (ret, munmap heap len system)

/-- `free`, which unmaps the block. -/
def free (ptr : Nat) (system : System) : Except Fault System := do
  if ptr = 0 then
    pure system
  else
    let heap := containerOf layout ptr
    let len ← loadLen layout heap system
    pure (munmap heap len system)

end Code

/-! ## Sizes and addresses -/

section Sizes

variable (layout : Layout)

theorem modulus_cases :
    layout.modulus = 2 ^ 32 ∨ layout.modulus = 2 ^ 64 := by
  unfold Layout.modulus
  rcases layout.target.longBits_cases with bits | bits
  · exact Or.inl (by rw [bits])
  · exact Or.inr (by rw [bits])

/-- A `size_t` takes as many bytes as it needs. -/
theorem pow_wordBytes : 256 ^ layout.wordBytes = layout.modulus := by
  unfold Layout.wordBytes Layout.modulus
  rcases layout.target.longBits_cases with bits | bits
  · rw [bits]
    rfl
  · rw [bits]
    rfl

theorem wordBytes_le_header : layout.wordBytes ≤ layout.header :=
  layout.holdsLen

theorem header_pos : 0 < layout.header := by
  have holds := layout.holdsLen
  rcases layout.target.longBits_cases with bits | bits
  · rw [bits] at holds
    omega
  · rw [bits] at holds
    omega

/-- Masking with `-4096` rounds down to a multiple of 4096. -/
theorem and_page_mask {bits value : Nat} (wide : 12 ≤ bits)
    (small : value < 2 ^ bits) :
    value &&& (2 ^ bits - 4096) = value / 4096 * 4096 := by
  have page : 4096 = 2 ^ 12 := rfl
  have lowBits : 4095 < 2 ^ bits :=
    lt_of_lt_of_le (by decide) (Nat.pow_le_pow_right (by decide) wide)
  have mask : 2 ^ bits - 4096 = 2 ^ bits - (4095 + 1) := rfl
  apply Nat.eq_of_testBit_eq
  intro index
  rw [Nat.testBit_and, mask, Nat.testBit_two_pow_sub_succ lowBits,
    show 4095 = 2 ^ 12 - 1 from rfl, Nat.testBit_two_pow_sub_one, page,
    Nat.testBit_mul_two_pow, Nat.testBit_div_two_pow]
  by_cases low : index < 12
  · simp [low]
  · have above : 12 ≤ index := Nat.le_of_not_lt low
    rw [Nat.sub_add_cancel above]
    by_cases inside : index < bits
    · simp [low, inside, above]
    · have zero : value.testBit index = false :=
        Nat.testBit_lt_two_pow (lt_of_lt_of_le small
          (Nat.pow_le_pow_right (by decide) (Nat.le_of_not_lt inside)))
      simp [zero]

theorem mappingLength_eq (len : Nat) :
    mappingLength layout len =
      ((layout.header + len) % layout.modulus + 4095) % layout.modulus /
        4096 * 4096 := by
  have wide : 12 ≤ layout.target.longBits := by
    rcases layout.target.longBits_cases with bits | bits <;> omega
  exact and_page_mask wide (Nat.mod_lt _ (Nat.two_pow_pos _))

theorem mappingLength_lt (len : Nat) :
    mappingLength layout len < layout.modulus := by
  have positive : 0 < layout.modulus := Nat.two_pow_pos _
  rw [mappingLength_eq]
  exact lt_of_le_of_lt (Nat.div_mul_le_self _ _) (Nat.mod_lt _ positive)

/-- A mapping of some length is a page at least. -/
theorem page_le_mappingLength
    {len : Nat} (positive : 0 < mappingLength layout len) :
    4096 ≤ mappingLength layout len := by
  rw [mappingLength_eq] at positive ⊢
  omega

/-- Nothing wraps: the mapping holds the header and the request. -/
theorem mappingLength_of_fits
    {len : Nat} (fits : layout.header + len + 4095 < layout.modulus) :
    layout.header + len ≤ mappingLength layout len := by
  rw [mappingLength_eq]
  rcases modulus_cases layout with modulus | modulus <;>
    rw [modulus] at fits ⊢ <;> omega

/-- Only the rounding wraps, or the sum is a whole power of two. -/
theorem mappingLength_of_edge
    {len : Nat} (sum : layout.header + len ≤ layout.modulus)
    (wraps : layout.modulus ≤ layout.header + len + 4095) :
    mappingLength layout len = 0 := by
  rw [mappingLength_eq]
  rcases modulus_cases layout with modulus | modulus <;>
    rw [modulus] at sum wraps ⊢ <;> omega

/-- The sum wraps: a single page is asked for. -/
theorem mappingLength_of_wraps
    {len : Nat} (isSize : len < layout.modulus)
    (wraps : layout.modulus < layout.header + len) :
    mappingLength layout len = 4096 := by
  have small := layout.small
  rw [mappingLength_eq]
  rcases modulus_cases layout with modulus | modulus <;>
    rw [modulus] at isSize wraps ⊢ <;> omega

theorem containerOf_add
    {start : Nat} (inside : start + layout.header < layout.modulus) :
    containerOf layout (start + layout.header) = start := by
  unfold containerOf
  rcases modulus_cases layout with modulus | modulus <;>
    rw [modulus] at inside ⊢ <;> omega

theorem userP_eq
    {start : Nat} (inside : start + layout.header < layout.modulus) :
    userP layout start = start + layout.header :=
  Nat.mod_eq_of_lt inside

end Sizes

end Nolibc.Stdlib.Heap
