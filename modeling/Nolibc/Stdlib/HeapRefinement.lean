import Nolibc.Foundation.Simulation
import Nolibc.Stdlib.HeapRepresentation

/-!
# The heap refines a map from pointers to bytes

Each call of the heap, for a user who keeps to the rules and with any honest
kernel, returns and has an answer in the map from pointers to bytes.
`heap_refines_blocks` answers every run of the heap by a run of the map, with
the state of the machine represented by the map at its end.
-/

set_option autoImplicit false

namespace Nolibc.Stdlib.HeapRefinement

open Nolibc.Machine
open Nolibc.Foundation
open Nolibc.Foundation.Simulation
open Nolibc.Stdlib.Heap

/-! ## Every call is answered -/

/-- The book that goes with the live blocks. -/
def bookOf (blocks : Blocks) : Book :=
  fun ptr => (blocks ptr).map List.length

theorem bookOf_update
    (blocks : Blocks) (ptr : Nat) (contents : Option (List Byte)) :
    bookOf (Function.update blocks ptr contents) =
      Function.update (bookOf blocks) ptr
        (contents.map List.length) := by
  funext other
  unfold bookOf
  by_cases same : other = ptr
  · subst same
    rw [Function.update_self, Function.update_self]
  · rw [Function.update_of_ne same, Function.update_of_ne same]

/-- A call returns, and the map from pointers to bytes has an answer to it. -/
def Answered (layout : Layout) (foreign : List Region)
    (initial : Nat → Byte) (kernel : Kernel) (blocks : Blocks)
    (system : System) (call : Call) : Prop :=
  ∃ outcome next after heap,
    call.run layout kernel system = .ok (outcome, next) ∧
      BlockStep blocks (.returned call outcome) after ∧
      (bookOf blocks).after call outcome = bookOf after ∧
      Represents layout foreign initial heap after next

section Answers

variable {layout : Layout} {foreign : List Region}
  {initial : Nat → Byte} {kernel : Kernel} {heap : List Region}
  {blocks : Blocks} {system : System}

/-- An honest kernel grants a fresh region with room for the request. -/
theorem malloc_honest
    (honest : Honest layout kernel) {len : Nat} (fits : Fits layout len)
    (system : System) :
    (∃ errnum, malloc layout kernel len system =
        .ok (0, { system with errnum })) ∨
      ∃ region, Grantable layout region ∧
        layout.header + len ≤ region.length ∧
        (∀ other ∈ system.mappings, other.Disjoint region) ∧
        malloc layout kernel len system =
          .ok (region.start + layout.header,
            granted layout system region) := by
  rcases malloc_cases honest.exact len system with
    failed | ⟨start, reply, grantable, succeeded⟩
  · exact Or.inl failed
  · exact Or.inr ⟨_, grantable, mappingLength_of_fits layout fits,
      honest.fresh _ system start reply, succeeded⟩

/-- A pointer of a live block, and the block behind it. -/
theorem Represents.block
    (represents : Represents layout foreign initial heap blocks system)
    {ptr : Nat} {contents : List Byte}
    (live : blocks ptr = some contents) :
    ∃ region ∈ heap, ptr = region.start + layout.header ∧
      Block layout system region ∧
      layout.header + contents.length ≤ region.length ∧
      Memory.block system.memory ptr contents.length = contents := by
  rcases represents.placed live with ⟨region, member, address, room, holds⟩
  exact ⟨region, member, address, represents.headers region member, room,
    holds⟩

theorem live_of_book
    {ptr : Nat} (booked : (bookOf blocks ptr).isSome) :
    ∃ contents, blocks ptr = some contents := by
  cases found : blocks ptr with
  | none => simp [bookOf, found] at booked
  | some contents => exact ⟨contents, rfl⟩

theorem malloc_answered
    (represents : Represents layout foreign initial heap blocks system)
    (honest : Honest layout kernel) {len : Nat}
    (fits : Fits layout len) :
    Answered layout foreign initial kernel blocks system
      (.malloc len) := by
  rcases malloc_honest honest fits system with
    ⟨errnum, failed⟩ | ⟨region, grantable, room, fresh, succeeded⟩
  · refine ⟨.pointer 0, _, blocks, heap, ?_,
      .mallocFailed blocks len, rfl, represents.withErrnum errnum⟩
    simp only [Call.run, failed]
    rfl
  · rcases represents.grant grantable fresh room with ⟨unused, granted⟩
    have nonnull := userP_ne_zero layout region.start
    have step := BlockStep.malloc (List.replicate len 0) nonnull unused
    rw [List.length_replicate] at step
    refine ⟨.pointer (region.start + layout.header), _, _, _, ?_, step, ?_,
      granted⟩
    · simp only [Call.run, succeeded]
      rfl
    · rw [bookOf_update, Book.after, if_neg nonnull, Option.map_some,
        List.length_replicate]

theorem calloc_answered
    (represents : Represents layout foreign initial heap blocks system)
    (honest : Honest layout kernel) {size nmemb : Nat}
    (allowed : size * nmemb < layout.modulus →
      Fits layout (size * nmemb)) :
    Answered layout foreign initial kernel blocks system
      (.calloc size nmemb) := by
  have failure {errnum : Errno}
      (failed : calloc layout kernel size nmemb system =
        .ok (0, { system with errnum })) :
      Answered layout foreign initial kernel blocks system
        (.calloc size nmemb) := by
    refine ⟨.pointer 0, _, blocks, heap, ?_,
      .callocFailed blocks size nmemb, rfl, represents.withErrnum errnum⟩
    simp only [Call.run, failed]
    rfl
  by_cases overflow : layout.modulus ≤ size * nmemb
  · exact failure (calloc_of_overflow overflow kernel system)
  · have isSize := Nat.lt_of_not_le overflow
    have same := calloc_of_fits isSize kernel system
    rcases malloc_honest honest (allowed isSize) system with
      ⟨errnum, failed⟩ | ⟨region, grantable, room, fresh, succeeded⟩
    · exact failure (same.trans failed)
    · rcases represents.grant grantable fresh room with ⟨unused, granted⟩
      have nonnull := userP_ne_zero layout region.start
      refine ⟨.pointer (region.start + layout.header), _, _, _, ?_,
        .calloc nonnull unused, ?_, granted⟩
      · simp only [Call.run, same, succeeded]
        rfl
      · rw [bookOf_update, Book.after, if_neg nonnull, Option.map_some,
          List.length_replicate]

theorem free_answered
    (represents : Represents layout foreign initial heap blocks system)
    {ptr : Nat} (allowed : ptr = 0 ∨ (bookOf blocks ptr).isSome) :
    Answered layout foreign initial kernel blocks system (.free ptr) := by
  rcases allowed with rfl | booked
  · exact ⟨.done, system, blocks, heap, rfl, .freeNull blocks, rfl,
      represents⟩
  · rcases live_of_book booked with ⟨contents, live⟩
    rcases represents.block live with ⟨region, member, rfl, block, _⟩
    refine ⟨.done, _, _, _, ?_, .free live, ?_,
      represents.release member⟩
    · simp only [Call.run, free_block block]
      rfl
    · rw [bookOf_update, Book.after,
        if_neg (userP_ne_zero layout region.start)]
      rfl

/-- Bytes inside the request lie behind the header of the block. -/
theorem Represents.accessible
    (represents : Represents layout foreign initial heap blocks system)
    {ptr : Nat} {contents : List Byte}
    (live : blocks ptr = some contents) {offset count : Nat}
    (inside : offset + count ≤ contents.length) :
    system.Accessible (ptr + offset) count := by
  rcases represents.block live with ⟨region, _, rfl, block, room, _⟩
  rw [Nat.add_assoc]
  exact accessible_at block.member _ (by omega)

theorem read_answered
    (represents : Represents layout foreign initial heap blocks system)
    {ptr offset count : Nat}
    (allowed : ∃ size, bookOf blocks ptr = some size ∧
      offset + count ≤ size) :
    Answered layout foreign initial kernel blocks system
      (.read ptr offset count) := by
  rcases allowed with ⟨size, booked, inside⟩
  rcases Option.map_eq_some_iff.mp booked with ⟨contents, live, rfl⟩
  refine ⟨.bytes ((contents.drop offset).take count), system, blocks, heap,
    ?_, .read live inside, rfl, represents⟩
  rcases represents.block live with ⟨_, _, _, _, _, holds⟩
  have values : Memory.block system.memory (ptr + offset) count =
      (contents.drop offset).take count := by
    rw [← Memory.block_drop_take system.memory inside, holds]
  simp only [Call.run, loadBytes_eq (represents.accessible live inside),
    values]
  rfl

theorem write_answered
    (represents : Represents layout foreign initial heap blocks system)
    {ptr offset : Nat} {bytes : List Byte}
    (allowed : ∃ size, bookOf blocks ptr = some size ∧
      offset + bytes.length ≤ size) :
    Answered layout foreign initial kernel blocks system
      (.write ptr offset bytes) := by
  rcases allowed with ⟨size, booked, inside⟩
  rcases Option.map_eq_some_iff.mp booked with ⟨contents, live, rfl⟩
  have stored := storeBytes_eq layout (represents.accessible live inside)
  rcases represents.block live with
    ⟨region, member, rfl, block, room, holds⟩
  have regionInside := block.inside
  unfold Region.stop at regionInside
  have address := block.userP_lt
  have sameLength := Memory.overwrite_length inside
  have frame (address : Nat)
      (outside : address < region.start + layout.header ∨
        region.stop ≤ address) :
      Memory.apply system.memory
          (Memory.burst layout.modulus
            (region.start + layout.header + offset) bytes) address =
        system.memory address := by
    apply Memory.apply_burst_frame system.memory (by omega)
    unfold Region.stop at outside
    omega
  have overwritten :
      Memory.block
          (Memory.apply system.memory
            (Memory.burst layout.modulus
              (region.start + layout.header + offset) bytes))
          (region.start + layout.header)
          (Memory.overwrite contents offset bytes).length =
        Memory.overwrite contents offset bytes := by
    rw [sameLength,
      Memory.block_apply_burst_inside system.memory inside (by omega),
      holds]
  refine ⟨.done, _, _, _, ?_, .write live inside, ?_,
    represents.retouch member frame (by rw [sameLength]; exact room)
      overwritten⟩
  · simp only [Call.run, stored]
    rfl
  · rw [bookOf_update, Option.map_some, sameLength, ← booked,
      Function.update_eq_self]
    rfl

/-- What is kept of a block is what agrees with its bytes. -/
theorem take_of_agreement
    {before : List Byte} {left right : Nat → Byte} {old new newSize : Nat}
    (holds : Memory.block right old before.length = before)
    (same : ∀ index, index < before.length → index < newSize →
      left (new + index) = right (old + index)) :
    (Memory.block left new newSize).take (min before.length newSize) =
      before.take (min before.length newSize) := by
  rw [Memory.block_take left _ _ _ (Nat.min_le_right _ _), ← holds,
    Memory.block_length, Memory.block_take right _ _ _ (Nat.min_le_left _ _)]
  apply Memory.block_congr
  intro index inBoth
  exact same index (lt_of_lt_of_le inBoth (Nat.min_le_left _ _))
    (lt_of_lt_of_le inBoth (Nat.min_le_right _ _))

/-- A block which stays where it is keeps its bytes. -/
theorem realloc_in_place_answered
    (represents : Represents layout foreign initial heap blocks system)
    {region : Region} (member : region ∈ heap)
    (block : Block layout system region) {before : List Byte}
    (live : blocks (region.start + layout.header) = some before)
    (holds : Memory.block system.memory (region.start + layout.header)
      before.length = before)
    {newSize : Nat} (roomy : newSize ≤ region.length - layout.header) :
    Answered layout foreign initial kernel blocks system
      (.realloc (region.start + layout.header) newSize) := by
  have nonnull := userP_ne_zero layout region.start
  have holdsHeader := block.holdsHeader
  have size : (Memory.block system.memory (region.start + layout.header)
      newSize).length = newSize := Memory.block_length _ _ _
  have kept := take_of_agreement holds
    (fun index _ (_ : index < newSize) => rfl)
  have step := BlockStep.realloc
    (Memory.block system.memory (region.start + layout.header) newSize)
    live nonnull (Or.inl rfl) (by rw [size]; exact kept)
  rw [size, Function.update_idem] at step
  refine ⟨.pointer (region.start + layout.header), _, _, _, ?_, step, ?_,
    represents.retouch member (fun _ _ => rfl) (by rw [size]; omega)
      (by rw [size])⟩
  · simp only [Call.run, realloc_in_place block roomy]
    rfl
  · rw [bookOf_update, Book.after, if_neg nonnull, if_neg nonnull,
      Function.update_idem, Option.map_some, size]

/-- A block which moves keeps its bytes, and its old mapping is given back. -/
theorem realloc_moved_answered
    (represents : Represents layout foreign initial heap blocks system)
    {old : Region} (member : old ∈ heap)
    (block : Block layout system old) {before : List Byte}
    (live : blocks (old.start + layout.header) = some before)
    (roomBefore : layout.header + before.length ≤ old.length)
    (holds : Memory.block system.memory (old.start + layout.header)
      before.length = before)
    (honest : Honest layout kernel) {newSize : Nat}
    (fits : Fits layout newSize)
    (grows : old.length - layout.header < newSize) :
    Answered layout foreign initial kernel blocks system
      (.realloc (old.start + layout.header) newSize) := by
  rcases malloc_honest honest fits system with
    ⟨errnum, failed⟩ | ⟨new, grantable, room, fresh, succeeded⟩
  · refine ⟨.pointer 0, _, blocks, heap, ?_, .reallocFailed blocks _ _, rfl,
      represents.withErrnum errnum⟩
    simp only [Call.run, realloc_failed block grows failed]
    rfl
  · rcases represents.grant grantable fresh room with ⟨unused, granted⟩
    have apart : old.Disjoint new := fresh old block.member
    have holdsHeader := block.holdsHeader
    have inside := grantable.inside
    have newBlock := grantable.block_granted system
    have writable :
        (Heap.granted layout system new).Accessible
          (new.start + layout.header) (old.length - layout.header) :=
      accessible_at newBlock.member _ (by omega)
    unfold Region.stop at inside
    rcases realloc_moved block grows succeeded (by omega) writable with
      ⟨memory, moved, frame, copies⟩
    have pointersDiffer :
        new.start + layout.header ≠ old.start + layout.header := by
      intro same
      rw [same, live] at unused
      exact absurd unused (by simp)
    have nonnull := userP_ne_zero layout new.start
    have size : (Memory.block memory (new.start + layout.header)
        newSize).length = newSize := Memory.block_length _ _ _
    have touched := granted.retouch List.mem_cons_self
      (fun address outside =>
        frame address (by unfold Region.stop at outside; omega))
      (show layout.header + (Memory.block memory
        (new.start + layout.header) newSize).length ≤ new.length by
          rw [size]; exact room)
      (by rw [size])
    have stillThere : old ∈ new :: heap := List.mem_cons_of_mem new member
    have len : lenAt layout memory old.start = old.length :=
      (touched.headers old stillThere).len
    have released := touched.release stillThere
    rw [len] at moved
    rw [Function.update_idem, Function.update_comm pointersDiffer]
      at released
    have copied (index : Nat) (inBefore : index < before.length)
        (_ : index < newSize) :
        memory (new.start + layout.header + index) =
          system.memory (old.start + layout.header + index) := by
      have contained :
          old.Contains (old.start + layout.header + index) :=
        ⟨by omega, by unfold Region.stop; omega⟩
      rw [copies apart (by omega) index (by omega),
        grantable.granted_frame system (apart.not_contains contained)]
    have kept := take_of_agreement holds copied
    have step := BlockStep.realloc
      (Memory.block memory (new.start + layout.header) newSize) live
      nonnull (Or.inr unused) (by rw [size]; exact kept)
    rw [size] at step
    refine ⟨.pointer (new.start + layout.header), _, _, _, ?_, step, ?_,
      released⟩
    · simp only [Call.run, moved]
      rfl
    · rw [bookOf_update, bookOf_update, Book.after, if_neg nonnull,
        if_neg (userP_ne_zero layout old.start), Option.map_some, size]
      rfl

theorem realloc_answered
    (represents : Represents layout foreign initial heap blocks system)
    (honest : Honest layout kernel) {oldPtr newSize : Nat}
    (allowed : oldPtr = 0 ∨ (bookOf blocks oldPtr).isSome)
    (fits : Fits layout newSize) :
    Answered layout foreign initial kernel blocks system
      (.realloc oldPtr newSize) := by
  rcases allowed with rfl | booked
  · rcases malloc_honest honest fits system with
      ⟨errnum, failed⟩ | ⟨region, grantable, room, fresh, succeeded⟩
    · refine ⟨.pointer 0, _, blocks, heap, ?_,
        .reallocFailed blocks 0 newSize, rfl, represents.withErrnum errnum⟩
      simp only [Call.run, realloc_null, failed]
      rfl
    · rcases represents.grant grantable fresh room with ⟨unused, granted⟩
      have nonnull := userP_ne_zero layout region.start
      have step := BlockStep.reallocNull (List.replicate newSize 0) nonnull
        unused
      rw [List.length_replicate] at step
      refine ⟨.pointer (region.start + layout.header), _, _, _, ?_, step,
        ?_, granted⟩
      · simp only [Call.run, realloc_null, succeeded]
        rfl
      · rw [bookOf_update, Book.after, if_neg nonnull, if_pos rfl,
          Option.map_some, List.length_replicate]
  · rcases live_of_book booked with ⟨before, live⟩
    rcases represents.block live with
      ⟨region, member, rfl, block, room, holds⟩
    by_cases roomy : newSize ≤ region.length - layout.header
    · exact realloc_in_place_answered represents member block live holds
        roomy
    · exact realloc_moved_answered represents member block live room holds
        honest fits (Nat.lt_of_not_le roomy)

theorem call_answered
    (represents : Represents layout foreign initial heap blocks system)
    (honest : Honest layout kernel) {call : Call}
    (allowed : Allowed layout (bookOf blocks) call) :
    Answered layout foreign initial kernel blocks system call := by
  cases call with
  | malloc len => exact malloc_answered represents honest allowed
  | calloc size nmemb => exact calloc_answered represents honest allowed
  | realloc oldPtr newSize =>
      exact realloc_answered represents honest allowed.1 allowed.2
  | free ptr => exact free_answered represents allowed
  | write ptr offset bytes => exact write_answered represents allowed
  | read ptr offset count => exact read_answered represents allowed

end Answers

/-! ## The refinement -/

/-- A client whose machine and book are those of some live blocks. -/
def Related (layout : Layout) (foreign : List Region)
    (initial : Nat → Byte) (blocks : Blocks) (client : Client) : Prop :=
  client.book = bookOf blocks ∧
    ∃ heap, Represents layout foreign initial heap blocks client.system

theorem heap_simulates
    (layout : Layout) (foreign : List Region) (initial : Nat → Byte) :
    Simulates (HeapStep layout) BlockStep
      (Related layout foreign initial) := by
  rintro blocks client next event ⟨booked, heap, represents⟩ step
  cases step with
  | returned kernel honest allowed ran =>
      rw [booked] at allowed
      rcases call_answered represents honest allowed with
        ⟨outcome, answer, after, answerHeap, answered, blockStep, book,
          represented⟩
      rw [ran, Except.ok.injEq, Prod.mk.injEq] at answered
      rcases answered with ⟨rfl, rfl⟩
      refine ⟨after, blockStep, ?_, answerHeap, represented⟩
      rw [booked]
      exact book
  | crashed kernel honest allowed ran =>
      rw [booked] at allowed
      rcases call_answered represents honest allowed with
        ⟨outcome, answer, after, answerHeap, answered, _⟩
      rw [ran] at answered
      exact absurd answered (by simp)

/--
Every run of the heap, from any memory and any disjoint mappings of others, is
a run of the map from pointers to bytes with the same calls and results, and
ends in a machine that represents the map.
-/
theorem heap_refines_blocks
    (layout : Layout) (system : System)
    (apart : system.mappings.Pairwise Region.Disjoint)
    (noCalls : system.calls = []) {events : List Event} {client : Client}
    (run : Run (HeapStep layout) ⟨system, fun _ => none⟩ events client) :
    ∃ blocks heap,
      Run BlockStep (fun _ => none) events blocks ∧
        client.book = bookOf blocks ∧
        Represents layout system.mappings system.memory heap blocks
          client.system := by
  have start : Related layout system.mappings system.memory
      (fun _ => none) ⟨system, fun _ => none⟩ :=
    ⟨rfl, [], Represents.start apart noCalls⟩
  rcases Simulates.run
      (heap_simulates layout system.mappings system.memory) start run with
    ⟨blocks, answers, booked, heap, represents⟩
  exact ⟨blocks, heap, answers, booked, represents⟩

/-! ## A run -/

/-- A kernel that maps at one address while nothing is mapped there. -/
def mapsOnceAt (layout : Layout) (start : Nat) : Kernel :=
  fun length system =>
    if (0 < length ∧ start + length ≤ layout.modulus) ∧
        ∀ region ∈ system.mappings, region.Disjoint ⟨start, length⟩ then
      .mapped start
    else
      .refused 12

theorem mapsOnceAt_honest (layout : Layout) (start : Nat) :
    Honest layout (mapsOnceAt layout start) where
  exact := by
    intro length system
    unfold mapsOnceAt
    split_ifs with room
    · exact room.1
    · exact ⟨by decide, by decide⟩
  fresh := by
    intro length system mapped reply
    unfold mapsOnceAt at reply
    split_ifs at reply with room
    · cases reply
      exact room.2

/-- A process with one mapping of its own. -/
def program : System :=
  ⟨fun _ => 0, [⟨4096, 4096⟩], [], 0⟩

/-- Allocate, write, fail to grow, read and free. -/
def sampleEvents : List Event :=
  [.returned (.malloc 2) (.pointer 65552),
    .returned (.write 65552 0 [104, 105]) .done,
    .returned (.realloc 65552 5000) (.pointer 0),
    .returned (.read 65552 0 2) (.bytes [104, 105]),
    .returned (.free 65552) .done]

set_option maxRecDepth 20000 in
theorem sampleEvents_run :
    ∃ client, Run (HeapStep Layout.x86_64) ⟨program, fun _ => none⟩ sampleEvents
      client := by
  have grants := mapsOnceAt_honest Layout.x86_64 65536
  have refuses := mapsOnceAt_honest Layout.x86_64 4096
  refine ⟨_, .more (.returned _ grants ?_ rfl) (.more
    (.returned _ grants ⟨2, rfl, ?_⟩ rfl) (.more
      (.returned _ refuses ⟨Or.inr rfl, ?_⟩ rfl) (.more
        (.returned _ refuses ⟨2, rfl, ?_⟩ rfl) (.more
          (.returned _ refuses (Or.inr rfl) rfl) (.done _)))))⟩
  · exact (show 16 + 2 + 4095 < 2 ^ 64 by decide)
  · decide
  · exact (show 16 + 5000 + 4095 < 2 ^ 64 by decide)
  · decide

theorem heap_refines_blocks_sample :
    ∃ client blocks heap,
      Run BlockStep (fun _ => none) sampleEvents blocks ∧
        Client.book client = bookOf blocks ∧
        Represents Layout.x86_64 program.mappings program.memory heap blocks
          client.system := by
  rcases sampleEvents_run with ⟨client, run⟩
  exact ⟨client, heap_refines_blocks Layout.x86_64 program (by decide) rfl run⟩

end Nolibc.Stdlib.HeapRefinement
